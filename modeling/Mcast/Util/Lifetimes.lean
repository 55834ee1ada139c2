import Mcast.Register
import Mcast.Util.CircularBuffer

/-!
# The lifetimes of the elements of the circular buffer

The operations of `CircularBuffer` with a register of the objects that `Construct` makes and
`Destroy` ends.  An object is at a slot of a block; the blocks are numbered in the order of the
calls of `NewBlock`, and an object that is in a block when `DeleteBlock` releases it is forgotten.

`Grow` constructs the elements anew in the new block and releases the old one with the objects that
they were moved from.  So every object is destroyed exactly once when the buffer never grows, and
after a single growth some object never is.
-/

namespace Mcast

namespace CircularBuffer

variable {T : Type*}

section Slots

variable {b : CircularBuffer T} {elements : List T}

/-! ## The slots of the elements -/

namespace Represents

theorem slots_eq (represents : b.Represents elements) :
    b.slots = (List.range elements.length).map fun i =>
      b.getIndex (b.begin_ + UInt64.ofNat i) := by
  rw [slots, represents.length]

theorem slots_construct (represents : b.Represents elements)
    (room : elements.length < b.capacity_.toNat) (x : T) :
    (b.construct x).slots = b.slots ++ [b.getIndex b.end_] := by
  rw [(represents.construct room x).slots_eq, represents.slots_eq, List.length_append,
    List.length_singleton, List.range_succ, List.map_append, represents.end_eq]
  rfl

theorem slots_popFront {x : T} (represents : b.Represents (x :: elements)) :
    b.slots = b.getIndex b.begin_ :: b.popFront.slots := by
  have start : b.begin_ + UInt64.ofNat 0 = b.begin_ := by simp
  have behind : b.popFront.slots = (List.range elements.length).map fun i =>
      b.getIndex (b.begin_ + 1 + UInt64.ofNat i) := represents.popFront.slots_eq
  rw [represents.slots_eq, behind, List.length_cons, List.range_succ_eq_map, List.map_cons,
    List.map_map]
  simp only [add_one_add_ofNat, Function.comp_def, start]

theorem slots_grow (represents : b.Represents elements) (below : b.capacity_.toNat < 2 ^ 63) :
    (b.grow (b.capacity_ * 2)).slots =
      (List.range elements.length).map fun i => 0 + UInt64.ofNat i := by
  have first : (b.grow (b.capacity_ * 2)).begin_ = 0 := rfl
  rw [(represents.grow below).slots_eq, first]
  apply List.map_congr_left
  intro i inside
  exact represents.getIndex_grow below (List.mem_range.mp inside)

/-- The assertion of `Grow` fails when the doubled capacity does not fit the word. -/
theorem capacity_lt_of_assert (represents : b.Represents elements)
    (asserted : b.capacity_ < b.capacity_ * 2) : b.capacity_.toNat < 2 ^ 63 := by
  obtain ⟨k, small, power⟩ := represents.power
  have bound : b.capacity_.toNat ≤ 2 ^ 63 := by
    rw [power]
    exact Nat.pow_le_pow_right (by decide) small
  rw [UInt64.lt_iff_toNat_lt, UInt64.toNat_mul] at asserted
  change b.capacity_.toNat < b.capacity_.toNat * 2 % 2 ^ 64 at asserted
  omega

end Represents

end Slots

/-- The buffer, the number of its block and the objects of all blocks. -/
structure Traced (T : Type*) where
  buffer : CircularBuffer T
  block : Nat
  objects : Register (Nat × UInt64)

namespace Traced

def new (cap : UInt64) : Traced T :=
  { buffer := .new cap, block := 0, objects := .empty }

/-- `Construct(Get(end_), x); ++end_; ++size_`. -/
def construct (t : Traced T) (x : T) : Traced T :=
  { t with
    buffer := t.buffer.construct x
    objects := t.objects.enter (t.block, t.buffer.getIndex t.buffer.end_) }

/-- `Destroy(Get(i))`. -/
def destroy (t : Traced T) (i : UInt64) : Traced T :=
  { t with
    buffer := t.buffer.destroy i
    objects := t.objects.leave (t.block, t.buffer.getIndex i) }

def deleteBlock (t : Traced T) (block : Nat) : Traced T :=
  { t with objects := t.objects.forget fun a => a.1 == block }

/-- The loop of `Grow`, which constructs objects in the next block. -/
def growLoop : Nat → UInt64 → (UInt64 → Option T) → Traced T → (UInt64 → Option T) × Traced T
  | 0, _, newVector, t => (newVector, t)
  | n + 1, i, newVector, t =>
      growLoop n (i + 1) (Function.update newVector i (t.buffer.get t.buffer.begin_))
        { t with
          buffer := { t.buffer with begin_ := t.buffer.begin_ + 1 }
          objects := t.objects.enter (t.block + 1, i) }

def grow (t : Traced T) (newCap : UInt64) : Traced T :=
  let copied := growLoop t.buffer.size_.toNat 0 (fun _ => none) t
  deleteBlock
    { copied.2 with
      buffer :=
        { copied.2.buffer with
          vector_ := copied.1
          begin_ := 0
          end_ := 0 + copied.2.buffer.size_
          capacity_ := newCap }
      block := t.block + 1 }
    t.block

def pushBack (t : Traced T) (x : T) : Traced T :=
  if t.buffer.size_ = t.buffer.capacity_ then
    (t.grow (t.buffer.capacity_ * 2)).construct x
  else
    t.construct x

def popFront (t : Traced T) : Traced T :=
  let t := t.destroy t.buffer.begin_
  { t with
    buffer := { t.buffer with begin_ := t.buffer.begin_ + 1, size_ := t.buffer.size_ - 1 } }

def clearLoop : Nat → UInt64 → Traced T → Traced T
  | 0, _, t => t
  | n + 1, first, t =>
      let t := t.destroy first
      clearLoop n (first + 1) { t with buffer := { t.buffer with size_ := t.buffer.size_ - 1 } }

def clear (t : Traced T) : Traced T :=
  let t := clearLoop t.buffer.size_.toNat t.buffer.begin_ t
  { t with buffer := { t.buffer with begin_ := 0, end_ := 0 } }

/-- `~CircularBuffer`. -/
def destructor (t : Traced T) : Traced T := t.clear.deleteBlock t.block

/-- An operation whose assertions hold: `size_ > 0` in `PopFront` and `new_cap > capacity_` in
`Grow`. -/
def step (t : Traced T) : Operation T → Option (Traced T)
  | .pushBack x =>
      if t.buffer.size_ = t.buffer.capacity_ → t.buffer.capacity_ < t.buffer.capacity_ * 2 then
        some (t.pushBack x)
      else
        none
  | .popFront => if 0 < t.buffer.size_ then some t.popFront else none
  | .clear => some t.clear

theorem step_cases {t t' : Traced T} {operation : Operation T}
    (stepped : t.step operation = some t') :
    (∃ x, operation = .pushBack x ∧
      (t.buffer.size_ = t.buffer.capacity_ → t.buffer.capacity_ < t.buffer.capacity_ * 2) ∧
      t' = t.pushBack x) ∨
    (operation = .popFront ∧ 0 < t.buffer.size_ ∧ t' = t.popFront) ∨
    (operation = .clear ∧ t' = t.clear) := by
  cases operation with
  | pushBack x =>
      obtain ⟨asserted, pushed⟩ := Option.ite_none_right_eq_some.mp stepped
      exact Or.inl ⟨x, rfl, asserted, (Option.some.inj pushed).symm⟩
  | popFront =>
      obtain ⟨nonempty, popped⟩ := Option.ite_none_right_eq_some.mp stepped
      exact Or.inr (Or.inl ⟨rfl, nonempty, (Option.some.inj popped).symm⟩)
  | clear => exact Or.inr (Or.inr ⟨rfl, (Option.some.inj stepped).symm⟩)

/-- A `PushBack` finds a free slot. -/
def hasRoom (t : Traced T) : Operation T → Bool
  | .pushBack _ => t.buffer.size_ != t.buffer.capacity_
  | _ => true

/-- The places of the elements. -/
def addresses (t : Traced T) : List (Nat × UInt64) := t.buffer.slots.map (Prod.mk t.block)

/-! ## The buffer without the objects -/

theorem growLoop_erased (n : Nat) (i : UInt64) (newVector : UInt64 → Option T) (t : Traced T) :
    (growLoop n i newVector t).1 = (CircularBuffer.growLoop n i newVector t.buffer).1 ∧
      (growLoop n i newVector t).2.buffer =
        (CircularBuffer.growLoop n i newVector t.buffer).2 := by
  induction n generalizing i newVector t with
  | zero => exact ⟨rfl, rfl⟩
  | succ n ih => exact ih _ _ _

theorem buffer_grow (t : Traced T) (newCap : UInt64) :
    (t.grow newCap).buffer = t.buffer.grow newCap := by
  obtain ⟨vector, buffer⟩ := growLoop_erased t.buffer.size_.toNat 0 (fun _ => none) t
  simp only [grow, deleteBlock, CircularBuffer.grow, vector, buffer]

theorem buffer_pushBack (t : Traced T) (x : T) :
    (t.pushBack x).buffer = t.buffer.pushBack x := by
  rw [pushBack, CircularBuffer.pushBack]
  split
  · rw [construct, buffer_grow]
  · rfl

theorem buffer_clearLoop (n : Nat) (first : UInt64) (t : Traced T) :
    (clearLoop n first t).buffer = CircularBuffer.clearLoop n first t.buffer := by
  induction n generalizing first t with
  | zero => rfl
  | succ n ih => exact ih _ _

theorem buffer_clear (t : Traced T) : t.clear.buffer = t.buffer.clear := by
  rw [clear, buffer_clearLoop, CircularBuffer.clear]

theorem buffer_step {t t' : Traced T} {operation : Operation T}
    (stepped : t.step operation = some t') : t'.buffer = t.buffer.apply operation := by
  rcases step_cases stepped with ⟨x, rfl, -, rfl⟩ | ⟨rfl, -, rfl⟩ | ⟨rfl, rfl⟩
  · exact t.buffer_pushBack x
  · rfl
  · exact t.buffer_clear

/-- The runs are those of the buffer. -/
theorem buffer_of_run {t t' : Traced T} {operations : List (Operation T)}
    (execution : Transition.run step t operations = some t') :
    t'.buffer = operations.foldl CircularBuffer.apply t.buffer := by
  induction operations generalizing t with
  | nil =>
      obtain rfl : t = t' := by simpa using execution
      rfl
  | cons operation operations ih =>
      obtain ⟨middle, first, rest⟩ := Transition.run_cons_eq_some.mp execution
      rw [ih rest, buffer_step first, List.foldl_cons]

/-! ## The objects of the loops -/

theorem growLoop_entered (n : Nat) (i : UInt64) (newVector : UInt64 → Option T) (t : Traced T) :
    (growLoop n i newVector t).2.objects =
      t.objects.enterAll ((List.range n).map fun m => (t.block + 1, i + UInt64.ofNat m)) := by
  induction n generalizing i newVector t with
  | zero => rfl
  | succ n ih =>
      rw [growLoop, ih, List.range_succ_eq_map, List.map_cons, List.map_map, Register.enterAll,
        Register.enterAll, List.foldl_cons]
      have start : i + UInt64.ofNat 0 = i := by simp
      simp only [add_one_add_ofNat, Function.comp_def, start]

theorem clearLoop_left (n : Nat) (first : UInt64) (t : Traced T) :
    (clearLoop n first t).block = t.block ∧
      (clearLoop n first t).objects =
        t.objects.leaveAll ((List.range n).map fun m =>
          (t.block, t.buffer.getIndex (first + UInt64.ofNat m))) := by
  induction n generalizing first t with
  | zero => exact ⟨rfl, rfl⟩
  | succ n ih =>
      obtain ⟨block, left⟩ := ih (first + 1)
        { t.destroy first with
          buffer := { (t.destroy first).buffer with size_ := (t.destroy first).buffer.size_ - 1 } }
      refine ⟨block, ?_⟩
      rw [clearLoop, left, List.range_succ_eq_map, List.map_cons, List.map_map, Register.leaveAll,
        Register.leaveAll, List.foldl_cons]
      have start : first + UInt64.ofNat 0 = first := by simp
      simp only [add_one_add_ofNat, Function.comp_def, start]
      rfl

theorem objects_clear (t : Traced T) : t.clear.objects = t.objects.leaveAll t.addresses := by
  change (clearLoop t.buffer.size_.toNat t.buffer.begin_ t).objects = _
  rw [(clearLoop_left _ _ t).2, addresses, slots, List.map_map]
  rfl

theorem nodup_addresses {t : Traced T} {elements : List T}
    (stored : t.buffer.Represents elements) : t.addresses.Nodup :=
  stored.nodup_slots.map (Prod.mk_right_injective t.block)

/-- The elements are stored, and the live objects are theirs. -/
structure Kept (t : Traced T) (elements : List T) : Prop where
  stored : t.buffer.Represents elements
  held : t.objects.Holds t.addresses
  clean : none ∉ t.objects.left

section Operations

variable {t : Traced T} {elements : List T}

namespace Kept

theorem new {cap : UInt64} (constructed : 0 < powOfTwo cap) :
    (Traced.new cap : Traced T).Kept [] := by
  obtain ⟨positive, small⟩ := powOfTwo_pos_iff.mp constructed
  exact {
    stored := Represents.new positive small
    held := Register.Holds.empty
    clean := List.not_mem_nil }

/-- The new element has a slot of its own. -/
theorem construct (kept : t.Kept elements) (room : elements.length < t.buffer.capacity_.toNat)
    (x : T) :
    (t.construct x).Kept (elements ++ [x]) ∧
      t.objects.present (t.block, t.buffer.getIndex t.buffer.end_) = none := by
  have stored := kept.stored.construct room x
  have places : (t.construct x).addresses =
      t.addresses ++ [(t.block, t.buffer.getIndex t.buffer.end_)] := by
    change (t.buffer.construct x).slots.map _ = _
    rw [kept.stored.slots_construct room x, List.map_append]
    rfl
  have held : (t.construct x).objects.Holds (t.construct x).addresses := by
    rw [places]
    exact kept.held.enter
  refine ⟨{ stored := stored, held := held, clean := kept.clean }, kept.held.free ?_⟩
  intro member
  have distinct : (t.construct x).addresses.Nodup := nodup_addresses stored
  rw [places] at distinct
  exact (List.nodup_append.mp distinct).2.2 _ member _ (List.mem_singleton_self _) rfl

/-- The first element is live. -/
theorem popFront {x : T} (kept : t.Kept (x :: elements)) :
    t.popFront.Kept elements ∧
      ∃ i, t.objects.present (t.block, t.buffer.getIndex t.buffer.begin_) = some i := by
  have places : t.addresses =
      (t.block, t.buffer.getIndex t.buffer.begin_) :: t.popFront.addresses := by
    rw [addresses, kept.stored.slots_popFront, List.map_cons]
    rfl
  have held := kept.held
  have distinct := nodup_addresses kept.stored
  rw [places] at held distinct
  obtain ⟨i, here⟩ := held.taken List.mem_cons_self
  refine ⟨?_, i, here⟩
  exact {
    stored := kept.stored.popFront
    held := held.leave (List.nodup_cons.mp distinct).1
    clean := Register.leave_clean here kept.clean }

/-- `Clear` destroys live objects only. -/
theorem clear_preserves {property : Register (Nat × UInt64) → Prop} (kept : t.Kept elements)
    (preserved : ∀ r a i, r.present a = some i → property r → property (r.leave a))
    (initial : property t.objects) : property t.clear.objects := by
  rw [objects_clear]
  exact kept.held.leaveAll_preserves preserved (nodup_addresses kept.stored) initial

theorem holds_clear (kept : t.Kept elements) : t.clear.objects.Holds [] := by
  rw [objects_clear]
  exact kept.held.leaveAll (nodup_addresses kept.stored)

theorem clear (kept : t.Kept elements) : t.clear.Kept [] := by
  have stored : t.clear.buffer.Represents [] := by
    rw [buffer_clear]
    exact kept.stored.clear
  refine { stored := stored, held := ?_, clean := ?_ }
  · rw [addresses, stored.slots_eq]
    exact kept.holds_clear
  · exact kept.clear_preserves (fun r a i here => Register.leave_clean here) kept.clean

/-- The objects of the new block come, and those of the old one go with it. -/
theorem objects_grow (kept : t.Kept elements) (below : t.buffer.capacity_.toNat < 2 ^ 63) :
    (t.grow (t.buffer.capacity_ * 2)).objects =
      (t.objects.enterAll (t.grow (t.buffer.capacity_ * 2)).addresses).forget
        fun a => a.1 == t.block := by
  have places : (t.grow (t.buffer.capacity_ * 2)).addresses =
      (List.range elements.length).map fun m => (t.block + 1, 0 + UInt64.ofNat m) := by
    rw [addresses, buffer_grow, kept.stored.slots_grow below, List.map_map]
    rfl
  rw [places, ← kept.stored.length, ← growLoop_entered]
  rfl

theorem apart_grow (t : Traced T) (newCap : UInt64) :
    (∀ a ∈ t.addresses, (a.1 == t.block) = true) ∧
      ∀ a ∈ (t.grow newCap).addresses, (a.1 == t.block) = false := by
  constructor
  · intro a old
    obtain ⟨j, -, rfl⟩ := List.mem_map.mp old
    exact beq_self_eq_true t.block
  · intro a new
    obtain ⟨j, -, rfl⟩ := List.mem_map.mp new
    exact beq_eq_false_iff_ne.mpr (Nat.succ_ne_self t.block)

theorem nodup_grow (kept : t.Kept elements) (below : t.buffer.capacity_.toNat < 2 ^ 63) :
    (t.addresses ++ (t.grow (t.buffer.capacity_ * 2)).addresses).Nodup := by
  obtain ⟨old, new⟩ := apart_grow t (t.buffer.capacity_ * 2)
  have stored : (t.grow (t.buffer.capacity_ * 2)).buffer.Represents elements := by
    rw [buffer_grow]
    exact kept.stored.grow below
  refine List.nodup_append.mpr ⟨nodup_addresses kept.stored, nodup_addresses stored, ?_⟩
  rintro a member b member' rfl
  exact absurd ((old a member).symm.trans (new a member')) (by decide)

theorem grow (kept : t.Kept elements) (below : t.buffer.capacity_.toNat < 2 ^ 63) :
    (t.grow (t.buffer.capacity_ * 2)).Kept elements := by
  obtain ⟨old, new⟩ := apart_grow t (t.buffer.capacity_ * 2)
  have clean := @Register.Holds.enterAll_preserves _ _ _ _ _ (fun r => none ∉ r.left)
    (fun _ _ _ clean => clean) kept.held (kept.nodup_grow below) kept.clean
  refine { stored := ?_, held := ?_, clean := ?_ }
  · rw [buffer_grow]
    exact kept.stored.grow below
  · rw [kept.objects_grow below]
    exact kept.held.enterAll.forget old new
  · rw [kept.objects_grow below]
    exact clean

/-- The object that an element was moved from is never destroyed. -/
theorem broken_grow {x : T} (kept : t.Kept (x :: elements))
    (below : t.buffer.capacity_.toNat < 2 ^ 63)
    (before : t.objects.Intact ∨ t.objects.Broken) :
    (t.grow (t.buffer.capacity_ * 2)).objects.Broken := by
  rw [kept.objects_grow below]
  rcases before with intact | broken
  · have copied := kept.held.enterAll_preserves (fun _ _ free intact => intact.enter free)
      (kept.nodup_grow below) intact
    have member : (t.block, t.buffer.getIndex t.buffer.begin_) ∈ t.addresses := by
      rw [addresses, kept.stored.slots_popFront, List.map_cons]
      exact List.mem_cons_self
    obtain ⟨i, here⟩ := kept.held.enterAll.taken (List.mem_append_left _ member)
    exact Or.inr ⟨i, copied.forget_lost here (beq_self_eq_true t.block)⟩
  · have copied := kept.held.enterAll_preserves (fun _ a _ broken => broken.enter a)
      (kept.nodup_grow below) broken
    exact copied.forget _

/-- `PushBack` on a full buffer. -/
theorem pushBack_full (kept : t.Kept elements) (full : t.buffer.size_ = t.buffer.capacity_)
    (asserted : t.buffer.capacity_ < t.buffer.capacity_ * 2) (x : T) :
    (t.pushBack x).Kept (elements ++ [x]) ∧
      (t.objects.Intact ∨ t.objects.Broken → (t.pushBack x).objects.Broken) := by
  have below := kept.stored.capacity_lt_of_assert asserted
  have room : elements.length < (t.grow (t.buffer.capacity_ * 2)).buffer.capacity_.toNat := by
    rw [buffer_grow]
    exact kept.stored.room_grow below
  rw [pushBack, if_pos full]
  refine ⟨((kept.grow below).construct room x).1, ?_⟩
  intro before
  cases elements with
  | nil =>
      obtain ⟨k, -, power⟩ := kept.stored.power
      have none_stored := kept.stored.length_of_full full
      exact absurd (none_stored.trans power) (Nat.two_pow_pos k).ne
  | cons first elements => exact (kept.broken_grow below before).enter _

/-- What an operation keeps. -/
theorem step {t' : Traced T} {operation : Operation T} (kept : t.Kept elements)
    (stepped : t.step operation = some t') :
    (∃ elements', t'.Kept elements') ∧
      (t.objects.Broken → t'.objects.Broken) ∧
      (t.objects.Intact →
        if t.hasRoom operation then t'.objects.Intact else t'.objects.Broken) := by
  rcases step_cases stepped with ⟨x, rfl, asserted, rfl⟩ | ⟨rfl, nonempty, rfl⟩ | ⟨rfl, rfl⟩
  · by_cases full : t.buffer.size_ = t.buffer.capacity_
    · obtain ⟨kept', broken⟩ := kept.pushBack_full full (asserted full) x
      refine ⟨⟨_, kept'⟩, fun before => broken (Or.inr before), ?_⟩
      intro intact
      simpa [hasRoom, full] using broken (Or.inl intact)
    · obtain ⟨kept', free⟩ := kept.construct (kept.stored.room_of_ne full) x
      rw [pushBack, if_neg full]
      refine ⟨⟨_, kept'⟩, fun broken => broken.enter _, ?_⟩
      intro intact
      have entered : (t.construct x).objects.Intact := intact.enter free
      simpa [hasRoom, full] using entered
  · cases elements with
    | nil =>
        rw [UInt64.lt_iff_toNat_lt, kept.stored.length] at nonempty
        exact absurd nonempty (Nat.lt_irrefl 0)
    | cons x elements =>
        obtain ⟨kept', i, here⟩ := kept.popFront
        exact ⟨⟨_, kept'⟩, fun broken => broken.leave _, fun intact => intact.leave here⟩
  · refine ⟨⟨_, kept.clear⟩, ?_, ?_⟩
    · exact kept.clear_preserves fun r a i _ broken => broken.leave a
    · exact kept.clear_preserves fun r a i here intact => intact.leave here

/-- The destructor releases a block without objects. -/
theorem objects_destructor (kept : t.Kept elements) : t.destructor.objects = t.clear.objects :=
  Register.forget_eq_self fun _ _ => kept.holds_clear.free List.not_mem_nil

end Kept

end Operations

/-- In every sequence of operations, `Destroy` is applied to live objects only; every object is
destroyed exactly once before its block is released when no `PushBack` finds the buffer full, and
in no other sequence. -/
theorem destroyed_once_iff_hasRoom {cap : UInt64} (constructed : 0 < powOfTwo cap)
    {operations : List (Operation T)} {t : Traced T}
    (execution : Transition.run step (new cap) operations = some t) :
    none ∉ t.destructor.objects.left ∧
      (t.destructor.objects.Settled ↔
        Transition.run (Transition.restrict step hasRoom) (new cap) operations = some t) := by
  have preserved : ∀ (before : Traced T) operation after, (∃ elements, before.Kept elements) →
      before.step operation = some after → ∃ elements, after.Kept elements := by
    rintro before operation after ⟨elements, kept⟩ stepped
    exact (kept.step stepped).1
  have initial : ∃ elements, (new cap : Traced T).Kept elements := ⟨[], Kept.new constructed⟩
  obtain ⟨elements, kept⟩ := Transition.run_preserves preserved initial execution
  rw [kept.objects_destructor]
  refine ⟨kept.clear.clean, ?_⟩
  rcases @Transition.good_or_spoilt_of_run _ _ step hasRoom _ (fun t => t.objects.Intact)
    (fun t => t.objects.Broken) preserved
    (fun _ _ _ ⟨_, kept⟩ stepped => (kept.step stepped).2.2)
    (fun _ _ _ ⟨_, kept⟩ stepped => (kept.step stepped).2.1) _ _ _ initial Register.Intact.empty
    execution with ⟨intact, roomy⟩ | ⟨broken, full⟩
  · have cleared := kept.clear_preserves (fun _ _ _ here intact => intact.leave here) intact
    exact iff_of_true
      (cleared.settled_iff.mpr fun _ => kept.holds_clear.free List.not_mem_nil) roomy
  · have cleared := kept.clear_preserves (fun _ a _ _ broken => broken.leave a) broken
    exact iff_of_false cleared.not_settled full

/-- A buffer of one slot, used twice. -/
def reuse : List (Operation Nat) :=
  [Operation.pushBack 1, .popFront, .pushBack 2]

theorem destroyed_once_iff_hasRoom_reuse :
    ∃ t, Transition.run step (new 1) reuse = some t ∧
      t.destructor.objects.entered = 2 ∧ t.destructor.objects.Settled :=
  ⟨_, rfl, rfl, (@destroyed_once_iff_hasRoom Nat 1 (by decide) reuse _ rfl).2.mpr rfl⟩

/-- The second element makes the buffer of one slot grow.  Three objects are constructed: the first
element, its successor in the new block and the second element; the first one is never destroyed. -/
theorem moved_object_not_destroyed :
    ∃ t, Transition.run step (new 1) [Operation.pushBack 1, .pushBack 2] = some t ∧
      t.destructor.objects.entered = 3 ∧
      t.destructor.objects.left = [some 1, some 2] ∧
      ¬t.destructor.objects.Settled := by
  refine ⟨_, rfl, rfl, rfl, ?_⟩
  rintro ⟨-, destroyed⟩
  exact absurd (destroyed 0 (by decide)) (by decide)

end Traced

end CircularBuffer

end Mcast

import Mathlib.Data.List.Nodup
import Mathlib.Logic.Function.Basic
import Mcast.Transition
import Mcast.Util.PowersOfTwo

/-!
# The circular buffer

`src/util/CircularBuffer.h`.  The 64-bit counters `begin_` and `end_` run freely and are masked by
the capacity at every access; `PushBack` on a full buffer first moves the elements to a block of
twice the capacity.  A slot is `none` while it holds no object.  The buffer refines a list: one
lemma for each operation, and by induction every sequence of operations.
-/

namespace Mcast

structure CircularBuffer (T : Type*) where
  size_ : UInt64
  capacity_ : UInt64
  begin_ : UInt64
  end_ : UInt64
  vector_ : UInt64 → Option T

namespace CircularBuffer

variable {T : Type*}

/-- The constructor; `NewBlock` returns raw storage. -/
def new (cap : UInt64) : CircularBuffer T :=
  { size_ := 0, capacity_ := powOfTwo cap, begin_ := 0, end_ := 0, vector_ := fun _ => none }

def getIndex (b : CircularBuffer T) (p : UInt64) : UInt64 := p &&& (b.capacity_ - 1)

/-- `*Get(i)`. -/
def get (b : CircularBuffer T) (i : UInt64) : Option T := b.vector_ (b.getIndex i)

/-- `Destroy(Get(i))`. -/
def destroy (b : CircularBuffer T) (i : UInt64) : CircularBuffer T :=
  { b with vector_ := Function.update b.vector_ (b.getIndex i) none }

/-- The loop of `Grow` from its index `i` on, with `n` rounds left.  It advances `begin_` itself;
the objects that it leaves behind go with the old block. -/
def growLoop : Nat → UInt64 → (UInt64 → Option T) → CircularBuffer T →
    (UInt64 → Option T) × CircularBuffer T
  | 0, _, newVector, b => (newVector, b)
  | n + 1, i, newVector, b =>
      growLoop n (i + 1) (Function.update newVector i (b.get b.begin_))
        { b with begin_ := b.begin_ + 1 }

def grow (b : CircularBuffer T) (newCap : UInt64) : CircularBuffer T :=
  let copied := growLoop b.size_.toNat 0 (fun _ => none) b
  { copied.2 with
    vector_ := copied.1
    begin_ := 0
    end_ := 0 + copied.2.size_
    capacity_ := newCap }

/-- `Construct(Get(end_), x); ++end_; ++size_`. -/
def construct (b : CircularBuffer T) (x : T) : CircularBuffer T :=
  { b with
    vector_ := Function.update b.vector_ (b.getIndex b.end_) (some x)
    end_ := b.end_ + 1
    size_ := b.size_ + 1 }

/-- Both overloads of `PushBack`: they differ in what happens to the argument only. -/
def pushBack (b : CircularBuffer T) (x : T) : CircularBuffer T :=
  if b.size_ = b.capacity_ then (b.grow (b.capacity_ * 2)).construct x else b.construct x

def popFront (b : CircularBuffer T) : CircularBuffer T :=
  { b.destroy b.begin_ with begin_ := b.begin_ + 1, size_ := b.size_ - 1 }

/-- The loop of `Clear`: it runs until `size_` is zero. -/
def clearLoop : Nat → UInt64 → CircularBuffer T → CircularBuffer T
  | 0, _, b => b
  | n + 1, first, b => clearLoop n (first + 1) { b.destroy first with size_ := b.size_ - 1 }

def clear (b : CircularBuffer T) : CircularBuffer T :=
  { clearLoop b.size_.toNat b.begin_ b with begin_ := 0, end_ := 0 }

def front (b : CircularBuffer T) : Option T := b.get b.begin_

def back (b : CircularBuffer T) : Option T := b.get (b.end_ - 1)

def size (b : CircularBuffer T) : UInt64 := b.size_

def empty (b : CircularBuffer T) : Bool := b.size == 0

/-- What an iteration from `begin()` to `end()` reads. -/
def toList (b : CircularBuffer T) : List T :=
  (List.range b.size_.toNat).filterMap fun i => b.get (b.begin_ + UInt64.ofNat i)

/-- The slots of the elements, from the first one on. -/
def slots (b : CircularBuffer T) : List UInt64 :=
  (List.range b.size_.toNat).map fun i => b.getIndex (b.begin_ + UInt64.ofNat i)

/-- The buffer holds exactly the elements of the list, from `begin_` to `end_ - 1`. -/
structure Represents (b : CircularBuffer T) (elements : List T) : Prop where
  power : ∃ k ≤ 63, b.capacity_.toNat = 2 ^ k
  span : b.end_ - b.begin_ = b.size_
  fits : b.size_ ≤ b.capacity_
  length : b.size_.toNat = elements.length
  holds : ∀ i, i < elements.length → b.get (b.begin_ + UInt64.ofNat i) = elements[i]?
  nothingElse : ∀ j x, b.vector_ j = some x →
    ∃ i < elements.length, j = b.getIndex (b.begin_ + UInt64.ofNat i)

@[simp] theorem vector_construct (b : CircularBuffer T) (x : T) :
    (b.construct x).vector_ = Function.update b.vector_ (b.getIndex b.end_) (some x) := rfl

@[simp] theorem vector_popFront (b : CircularBuffer T) :
    b.popFront.vector_ = Function.update b.vector_ (b.getIndex b.begin_) none := rfl

section Index

variable {b : CircularBuffer T} {k : Nat}

theorem toNat_getIndex (power : b.capacity_.toNat = 2 ^ k) (p : UInt64) :
    (b.getIndex p).toNat = p.toNat % 2 ^ k :=
  Bits.toNat_and_pred power p

theorem toNat_getIndex_add (power : b.capacity_.toNat = 2 ^ k) (small : k ≤ 63) (p : UInt64)
    (i : Nat) : (b.getIndex (p + UInt64.ofNat i)).toNat = (p.toNat + i) % 2 ^ k := by
  rw [toNat_getIndex power, Bits.toNat_add_ofNat_mod (by omega)]

/-- Fewer offsets than the capacity fall on different slots. -/
theorem getIndex_add_inj (power : b.capacity_.toNat = 2 ^ k) (small : k ≤ 63) {p : UInt64}
    {i j : Nat} (first : i < 2 ^ k) (second : j < 2 ^ k)
    (same : b.getIndex (p + UInt64.ofNat i) = b.getIndex (p + UInt64.ofNat j)) : i = j := by
  have residues := congrArg UInt64.toNat same
  rw [toNat_getIndex_add power small, toNat_getIndex_add power small] at residues
  exact Bits.eq_of_add_mod_eq first second residues

end Index

theorem add_one_add_ofNat (p : UInt64) (i : Nat) :
    p + 1 + UInt64.ofNat i = p + UInt64.ofNat (i + 1) := by
  rw [UInt64.ofNat_add, UInt64.add_assoc, UInt64.add_comm 1]
  rfl

section Operations

variable {b : CircularBuffer T} {elements : List T}

theorem Represents.size_eq (represents : b.Represents elements) :
    b.size_ = UInt64.ofNat elements.length := by
  rw [← represents.length, UInt64.ofNat_toNat]

theorem Represents.end_eq (represents : b.Represents elements) :
    b.end_ = b.begin_ + UInt64.ofNat elements.length := by
  rw [← represents.size_eq, ← represents.span, UInt64.add_comm, UInt64.sub_add_cancel]

/-- The number of elements is at most the capacity, in natural numbers. -/
theorem Represents.length_le (represents : b.Represents elements) :
    elements.length ≤ b.capacity_.toNat := by
  rw [← represents.length]
  exact UInt64.le_iff_toNat_le.mp represents.fits

theorem Represents.new {cap : UInt64} (positive : 1 ≤ cap.toNat) (small : cap.toNat ≤ 2 ^ 63) :
    (CircularBuffer.new cap : CircularBuffer T).Represents [] := by
  have exponent : (cap.toNat - 1).size ≤ 63 := (Bits.size_pred_le_iff positive).mpr small
  exact {
    power := ⟨_, exponent, toNat_powOfTwo positive small⟩
    span := UInt64.sub_self 0
    fits := UInt64.zero_le
    length := rfl
    holds := by simp
    nothingElse := by simp [CircularBuffer.new] }

/-- A new element behind the last one, while a slot is free. -/
theorem Represents.construct (represents : b.Represents elements)
    (room : elements.length < b.capacity_.toNat) (x : T) :
    (b.construct x).Represents (elements ++ [x]) := by
  obtain ⟨k, small, power⟩ := represents.power
  have sum : (b.size_ + 1).toNat = elements.length + 1 := by
    have limit : b.capacity_.toNat < 2 ^ 64 := UInt64.toNat_lt _
    rw [UInt64.toNat_add, represents.length, UInt64.toNat_one]
    exact Nat.mod_eq_of_lt (by omega)
  have apart : ∀ i, i < elements.length →
      b.getIndex (b.begin_ + UInt64.ofNat i) ≠ b.getIndex b.end_ := by
    intro i inside same
    rw [represents.end_eq] at same
    have := getIndex_add_inj power small (by omega) (by omega) same
    omega
  exact {
    power := ⟨k, small, power⟩
    span := by
      change b.end_ + 1 - b.begin_ = b.size_ + 1
      have span := represents.span
      grind
    fits := by
      rw [UInt64.le_iff_toNat_le]
      exact sum.trans_le room
    length := by simpa [CircularBuffer.construct] using sum
    holds := by
      intro i inside
      change (b.construct x).vector_ (b.getIndex (b.begin_ + UInt64.ofNat i)) = _
      rw [List.length_append, List.length_singleton] at inside
      rw [vector_construct]
      rcases Nat.lt_succ_iff_lt_or_eq.mp inside with old | rfl
      · rw [Function.update_of_ne (apart i old), List.getElem?_append_left old]
        exact represents.holds i old
      · rw [← represents.end_eq, Function.update_self]
        simp
    nothingElse := by
      intro j y held
      by_cases last : j = b.getIndex b.end_
      · exact ⟨elements.length, by simp, by rw [last, represents.end_eq]; rfl⟩
      · have old : b.vector_ j = some y := by
          rwa [vector_construct, Function.update_of_ne last] at held
        obtain ⟨i, inside, at_⟩ := represents.nothingElse j y old
        exact ⟨i, by simp; omega, at_⟩ }

theorem Represents.popFront {x : T} (represents : b.Represents (x :: elements)) :
    b.popFront.Represents elements := by
  obtain ⟨k, small, power⟩ := represents.power
  have bound := represents.length_le
  rw [List.length_cons, power] at bound
  have positive : 1 ≤ b.size_ := by
    rw [UInt64.le_iff_toNat_le, represents.length]
    exact Nat.le_add_left 1 _
  have difference : (b.size_ - 1).toNat = elements.length := by
    rw [UInt64.toNat_sub_of_le _ _ positive, represents.length]
    rfl
  have apart : ∀ i, i < elements.length →
      b.getIndex (b.begin_ + UInt64.ofNat (i + 1)) ≠ b.getIndex b.begin_ := by
    intro i inside same
    have first : b.begin_ = b.begin_ + UInt64.ofNat 0 := by simp
    rw [first, UInt64.add_assoc, ← UInt64.ofNat_add] at same
    have := getIndex_add_inj power small (by omega) (by omega) same
    omega
  exact {
    power := ⟨k, small, power⟩
    span := by
      change b.end_ - (b.begin_ + 1) = b.size_ - 1
      have span := represents.span
      grind
    fits := by
      rw [UInt64.le_iff_toNat_le]
      change (b.size_ - 1).toNat ≤ b.capacity_.toNat
      omega
    length := difference
    holds := by
      intro i inside
      change b.popFront.vector_ (b.getIndex (b.begin_ + 1 + UInt64.ofNat i)) = _
      rw [vector_popFront, add_one_add_ofNat, Function.update_of_ne (apart i inside)]
      exact represents.holds (i + 1) (Nat.succ_lt_succ inside)
    nothingElse := by
      intro j y held
      have other : j ≠ b.getIndex b.begin_ := by
        rintro rfl
        simp at held
      have old : b.vector_ j = some y := by
        rwa [vector_popFront, Function.update_of_ne other] at held
      obtain ⟨i, inside, rfl⟩ := represents.nothingElse j y old
      cases i with
      | zero => simp at other
      | succ i =>
          refine ⟨i, Nat.lt_of_succ_lt_succ inside, ?_⟩
          change _ = b.getIndex (b.begin_ + 1 + UInt64.ofNat i)
          rw [add_one_add_ofNat] }

/-- The loop of `Grow` only advances `begin_` of the old buffer. -/
theorem growLoop_snd (n : Nat) (i : UInt64) (newVector : UInt64 → Option T)
    (b : CircularBuffer T) :
    (growLoop n i newVector b).2 = { b with begin_ := b.begin_ + UInt64.ofNat n } := by
  induction n generalizing i newVector b with
  | zero => simp [growLoop]
  | succ n ih => rw [growLoop, ih, add_one_add_ofNat]

/-- The rounds left copy as many elements, from `begin_` on, to the slots from `i` on. -/
theorem growLoop_copied {n : Nat} (small : n < 2 ^ 64) (i : UInt64)
    (newVector : UInt64 → Option T) (b : CircularBuffer T) :
    (∀ m < n, (growLoop n i newVector b).1 (i + UInt64.ofNat m) =
      b.get (b.begin_ + UInt64.ofNat m)) ∧
      ∀ j, (∀ m < n, j ≠ i + UInt64.ofNat m) →
        (growLoop n i newVector b).1 j = newVector j := by
  induction n generalizing i newVector b with
  | zero => simp [growLoop]
  | succ n ih =>
      obtain ⟨copied, kept⟩ := ih (by omega) (i + 1)
        (Function.update newVector i (b.get b.begin_)) { b with begin_ := b.begin_ + 1 }
      simp only [growLoop]
      constructor
      · intro m inside
        cases m with
        | zero =>
            have behind : ∀ m < n, i + UInt64.ofNat 0 ≠ i + 1 + UInt64.ofNat m := by
              intro m inside same
              rw [add_one_add_ofNat] at same
              exact absurd (Bits.add_ofNat_inj (by omega) (by omega) same) (Nat.succ_ne_zero m).symm
            rw [kept _ behind]
            simp
        | succ m =>
            rw [← add_one_add_ofNat, ← add_one_add_ofNat]
            exact copied m (by omega)
      · intro j outside
        rw [kept j, Function.update_of_ne]
        · simpa using outside 0 (by omega)
        · intro m inside
          rw [add_one_add_ofNat]
          exact outside (m + 1) (by omega)

theorem grow_eq (b : CircularBuffer T) (newCap : UInt64) :
    b.grow newCap = {
      size_ := b.size_, capacity_ := newCap, begin_ := 0, end_ := b.size_,
      vector_ := (growLoop b.size_.toNat 0 (fun _ => none) b).1 } := by
  rw [grow, growLoop_snd, UInt64.zero_add]

theorem toNat_doubled {k : Nat} (power : b.capacity_.toNat = 2 ^ k)
    (below : b.capacity_.toNat < 2 ^ 63) : (b.capacity_ * 2).toNat = 2 ^ (k + 1) := by
  rw [UInt64.toNat_mul, Nat.pow_succ 2 k, ← power]
  exact Nat.mod_eq_of_lt (show b.capacity_.toNat * 2 < 2 ^ 64 by omega)

/-- The new block is read without rotation: the indices are below the new capacity. -/
theorem Represents.getIndex_grow (represents : b.Represents elements)
    (below : b.capacity_.toNat < 2 ^ 63) {i : Nat} (inside : i < elements.length) :
    (b.grow (b.capacity_ * 2)).getIndex (0 + UInt64.ofNat i) = 0 + UInt64.ofNat i := by
  obtain ⟨k, -, power⟩ := represents.power
  have bound := represents.length_le
  apply UInt64.toNat_inj.mp
  rw [grow_eq, toNat_getIndex (toNat_doubled power below), UInt64.zero_add,
    UInt64.toNat_ofNat_of_lt' (show i < 2 ^ 64 by omega)]
  exact Nat.mod_eq_of_lt (by omega)

/-- A `Grow` at any rotation keeps the elements and their order. -/
theorem Represents.grow (represents : b.Represents elements)
    (below : b.capacity_.toNat < 2 ^ 63) :
    (b.grow (b.capacity_ * 2)).Represents elements := by
  obtain ⟨k, small, power⟩ := represents.power
  have bound := represents.length_le
  have exponent : k < 63 := (Nat.pow_lt_pow_iff_right (by decide)).mp (power ▸ below)
  have doubled := toNat_doubled power below
  obtain ⟨copied, kept⟩ :=
    growLoop_copied (UInt64.toNat_lt b.size_) 0 (fun _ => (none : Option T)) b
  rw [represents.length] at copied kept
  have index := fun i (inside : i < elements.length) => represents.getIndex_grow below inside
  rw [grow_eq] at index ⊢
  rw [represents.length] at index ⊢
  exact {
    power := ⟨k + 1, exponent, doubled⟩
    span := UInt64.sub_zero b.size_
    fits := by
      rw [UInt64.le_iff_toNat_le]
      change b.size_.toNat ≤ (b.capacity_ * 2).toNat
      rw [represents.length]
      omega
    length := represents.length
    holds := by
      intro i inside
      rw [get, index i inside, ← represents.holds i inside]
      exact copied i inside
    nothingElse := by
      intro j x held
      by_contra outside
      have raw := kept j (by
        intro m inside same
        exact outside ⟨m, inside, by rw [same, index m inside]⟩)
      exact Option.some_ne_none x (held.symm.trans raw) }

theorem Represents.room_of_ne (represents : b.Represents elements) (spare : b.size_ ≠ b.capacity_) :
    elements.length < b.capacity_.toNat := by
  apply represents.length_le.lt_of_ne
  intro same
  exact spare (UInt64.toNat_inj.mp (represents.length.trans same))

theorem Represents.length_of_full (represents : b.Represents elements)
    (full : b.size_ = b.capacity_) : elements.length = b.capacity_.toNat := by
  rw [← full, represents.length]

theorem Represents.room_grow (represents : b.Represents elements)
    (below : b.capacity_.toNat < 2 ^ 63) :
    elements.length < (b.grow (b.capacity_ * 2)).capacity_.toNat := by
  obtain ⟨k, -, power⟩ := represents.power
  have bound := represents.length_le
  have positive := Nat.two_pow_pos k
  rw [grow_eq, toNat_doubled power below]
  omega

/-- `PushBack`, as long as the doubled capacity does not exceed `2 ^ 63`. -/
theorem Represents.pushBack (represents : b.Represents elements) (room : elements.length < 2 ^ 63)
    (x : T) : (b.pushBack x).Represents (elements ++ [x]) := by
  rw [CircularBuffer.pushBack]
  split
  · rename_i full
    have below : b.capacity_.toNat < 2 ^ 63 := represents.length_of_full full ▸ room
    exact (represents.grow below).construct (represents.room_grow below) x
  · rename_i spare
    exact represents.construct (represents.room_of_ne spare) x

/-- The loop of `Clear` leaves the counters and the capacity, and no object in the slots that it
visits. -/
theorem clearLoop_spec (n : Nat) (first : UInt64) (b : CircularBuffer T) :
    (clearLoop n first b).capacity_ = b.capacity_ ∧
      (clearLoop n first b).size_ = b.size_ - UInt64.ofNat n ∧
      ∀ j x, (clearLoop n first b).vector_ j = some x →
        b.vector_ j = some x ∧ ∀ m < n, j ≠ b.getIndex (first + UInt64.ofNat m) := by
  induction n generalizing first b with
  | zero => simp [clearLoop]
  | succ n ih =>
      obtain ⟨capacity, count, cleared⟩ :=
        ih (first + 1) { b.destroy first with size_ := b.size_ - 1 }
      refine ⟨capacity, ?_, ?_⟩
      · rw [clearLoop, count, UInt64.ofNat_add]
        grind
      · intro j x held
        obtain ⟨kept, later⟩ := cleared j x held
        have other : j ≠ b.getIndex first := by
          rintro rfl
          simp [destroy] at kept
        refine ⟨by simpa [destroy, other] using kept, ?_⟩
        intro m inside
        cases m with
        | zero => simpa using other
        | succ m =>
            rw [← add_one_add_ofNat]
            exact later m (by omega)

theorem Represents.clear (represents : b.Represents elements) : b.clear.Represents [] := by
  obtain ⟨capacity, count, cleared⟩ := clearLoop_spec b.size_.toNat b.begin_ b
  have zero : (clearLoop b.size_.toNat b.begin_ b).size_ = 0 := by
    rw [count, UInt64.ofNat_toNat, UInt64.sub_self]
  exact {
    power := by
      rw [CircularBuffer.clear, capacity]
      exact represents.power
    span := by
      rw [CircularBuffer.clear, zero]
      exact UInt64.sub_self 0
    fits := by
      rw [CircularBuffer.clear, zero]
      exact UInt64.zero_le
    length := by
      rw [CircularBuffer.clear, zero]
      rfl
    holds := by simp
    nothingElse := by
      intro j x held
      obtain ⟨old, others⟩ := cleared j x held
      obtain ⟨i, inside, at_⟩ := represents.nothingElse j x old
      rw [represents.length] at others
      exact absurd at_ (others i inside) }

/-- `Front` of an empty buffer reads a raw slot. -/
theorem Represents.front_eq (represents : b.Represents elements) : b.front = elements.head? := by
  cases elements with
  | nil =>
      apply Option.eq_none_iff_forall_ne_some.mpr
      intro x held
      obtain ⟨i, inside, -⟩ := represents.nothingElse _ x held
      exact absurd inside (Nat.not_lt_zero i)
  | cons x elements =>
      have first := represents.holds 0 (Nat.zero_lt_succ _)
      simpa [front] using first

theorem Represents.back_eq (represents : b.Represents elements) : b.back = elements.getLast? := by
  rw [List.getLast?_eq_getElem?]
  cases elements with
  | nil =>
      apply Option.eq_none_iff_forall_ne_some.mpr
      intro x held
      obtain ⟨i, inside, -⟩ := represents.nothingElse _ x held
      exact absurd inside (Nat.not_lt_zero i)
  | cons x elements =>
      have last := represents.holds elements.length (Nat.lt_succ_self _)
      have position : b.end_ - 1 = b.begin_ + UInt64.ofNat elements.length := by
        rw [represents.end_eq, List.length_cons, ← add_one_add_ofNat]
        grind
      rw [back, position, last]
      rfl

theorem Represents.empty_eq (represents : b.Represents elements) :
    b.empty = elements.isEmpty := by
  rw [empty, size, represents.size_eq, Bool.eq_iff_iff, beq_iff_eq, List.isEmpty_iff]
  constructor
  · intro zero
    have none_left : elements.length = 0 := by
      rw [← represents.length, represents.size_eq, zero]
      rfl
    exact List.eq_nil_of_length_eq_zero none_left
  · rintro rfl
    rfl

theorem Represents.toList_eq (represents : b.Represents elements) : b.toList = elements := by
  have reads : ∀ n ≤ elements.length,
      (List.range n).filterMap (fun i => b.get (b.begin_ + UInt64.ofNat i)) = elements.take n := by
    intro n inside
    induction n with
    | zero => simp
    | succ n ih =>
        rw [List.range_succ, List.filterMap_append, ih (by omega), List.take_add_one,
          ← represents.holds n inside]
        cases read : b.get (b.begin_ + UInt64.ofNat n) <;> simp [read]
  rw [toList, represents.length, reads _ le_rfl, List.take_length]

theorem Represents.nodup_slots (represents : b.Represents elements) : b.slots.Nodup := by
  obtain ⟨k, small, power⟩ := represents.power
  have bound := represents.length_le
  rw [← represents.length, power] at bound
  refine List.Nodup.map_on ?_ List.nodup_range
  intro i first j second same
  rw [List.mem_range] at first second
  exact getIndex_add_inj power small (by omega) (by omega) same

theorem Represents.read_slots (represents : b.Represents elements) :
    b.slots.map b.vector_ = elements.map some := by
  apply List.ext_getElem?
  intro i
  rw [slots, represents.length, List.map_map, List.getElem?_map, List.getElem?_map]
  by_cases inside : i < elements.length
  · have read := represents.holds i inside
    rw [List.getElem?_eq_getElem inside] at read
    rw [List.getElem?_range inside, List.getElem?_eq_getElem inside]
    exact congrArg some read
  · rw [List.getElem?_eq_none (by simpa using inside), List.getElem?_eq_none (by omega)]
    rfl

theorem Represents.getIndex_lt (represents : b.Represents elements) (p : UInt64) :
    b.getIndex p < b.capacity_ := by
  obtain ⟨k, -, power⟩ := represents.power
  rw [UInt64.lt_iff_toNat_lt, toNat_getIndex power, power]
  exact Nat.mod_lt _ (Nat.two_pow_pos k)

end Operations

inductive Operation (T : Type*)
  | pushBack (x : T)
  | popFront
  | clear
  deriving DecidableEq, Repr

def apply (b : CircularBuffer T) : Operation T → CircularBuffer T
  | .pushBack x => b.pushBack x
  | .popFront => b.popFront
  | .clear => b.clear

/-- What the operations do to the list of elements.  `PopFront` is only called on a non-empty
buffer, and `PushBack` not on `2 ^ 63` elements: it would double a capacity of `2 ^ 63`. -/
def fifo : List T → Operation T → Option (List T)
  | elements, .pushBack x => if elements.length < 2 ^ 63 then some (elements ++ [x]) else none
  | [], .popFront => none
  | _ :: elements, .popFront => some elements
  | _, .clear => some []

/-- Every operation of the buffer performs the operation of the list. -/
theorem Represents.apply {b : CircularBuffer T} {before after : List T} {operation : Operation T}
    (represents : b.Represents before) (stepped : fifo before operation = some after) :
    (b.apply operation).Represents after := by
  cases operation with
  | pushBack x =>
      simp only [fifo] at stepped
      split at stepped
      · rename_i room
        obtain rfl := Option.some.inj stepped
        exact represents.pushBack room x
      · cases stepped
  | popFront =>
      cases before with
      | nil => cases stepped
      | cons x elements =>
          obtain rfl := Option.some.inj stepped
          exact represents.popFront
  | clear =>
      obtain rfl := Option.some.inj stepped
      exact represents.clear

theorem Represents.run {b : CircularBuffer T} {before after : List T}
    {operations : List (Operation T)} (represents : b.Represents before)
    (execution : Transition.run fifo before operations = some after) :
    (operations.foldl CircularBuffer.apply b).Represents after := by
  induction operations generalizing b before with
  | nil =>
      obtain rfl : before = after := by simpa using execution
      exact represents
  | cons operation operations ih =>
      obtain ⟨middle, first, rest⟩ := Transition.run_cons_eq_some.mp execution
      exact ih (represents.apply first) rest

/-- After every sequence of operations the buffer is the list, every access is inside the block,
and a `Grow` at this point, whatever the rotation, leaves the list as it is. -/
theorem refines_fifo {cap : UInt64} (positive : 1 ≤ cap.toNat) (small : cap.toNat ≤ 2 ^ 62)
    {operations : List (Operation T)} {elements : List T}
    (execution : Transition.run fifo [] operations = some elements) :
    let b := operations.foldl apply (new cap)
    (∀ k, (new cap : CircularBuffer T).capacity_.toNat ≤ 2 ^ k ↔ cap.toNat ≤ 2 ^ k) ∧
      b.Represents elements ∧
      b.toList = elements ∧
      (∀ p, b.getIndex p < b.capacity_) ∧
      b.front = elements.head? ∧
      b.back = elements.getLast? ∧
      b.size.toNat = elements.length ∧
      b.empty = elements.isEmpty ∧
      (b.capacity_.toNat < 2 ^ 63 → (b.grow (b.capacity_ * 2)).Represents elements) := by
  have small : cap.toNat ≤ 2 ^ 63 := small.trans (by decide)
  have represents : (operations.foldl apply (new cap)).Represents elements :=
    (Represents.new positive small).run execution
  exact ⟨powOfTwo_le_iff positive small, represents, represents.toList_eq,
    represents.getIndex_lt, represents.front_eq, represents.back_eq, represents.length,
    represents.empty_eq, represents.grow⟩

/-- The second and third element fill a buffer of two slots whose first one is at the second slot;
the fourth one makes it grow. -/
def rotatedOperations : List (Operation Nat) :=
  [Operation.pushBack 1, .popFront, .pushBack 2, .pushBack 3, .pushBack 4, .popFront]

theorem refines_fifo_rotatedOperations :
    (rotatedOperations.foldl apply (new 2)).Represents [3, 4] ∧
      (rotatedOperations.foldl apply (new 2)).capacity_ = 4 :=
  ⟨(@refines_fifo Nat 2 (by decide) (by decide) rotatedOperations [3, 4] (by decide)).2.1,
    by decide⟩

end CircularBuffer

end Mcast

import Mcast.Register
import Mcast.Util.QueueOrder

/-!
# The accounts of the block queue

The operations of the queue with two registers: the objects made by `Construct` and ended by
`Destroy`, and the blocks obtained from `NewBlock` and returned by `DeleteBlock`.  No branch of the
queue reads an element, so that the calls are those of `Queue` with a trivial destructor whatever
the element type is, and a `Destroy` of a raw slot is entered as such.

`Clear` returns all blocks but the last.  Its loop over the blocks destroys every element once,
unless a block before the last one starts at the very address where the full last block ends: the
loop passes over the elements of this block.
-/

namespace Mcast

namespace Queue

variable {T : Type*}

/-- The calls made so far. -/
structure Accounts where
  objects : Register Nat
  blocks : Register Nat

structure Traced (T : Type*) where
  queue : Queue T
  accounts : Accounts

namespace Traced

section Model

variable (N : Nat)

def newBlock (accounts : Accounts) (block : Nat) : Accounts :=
  { accounts with blocks := accounts.blocks.enter block }

def new (block : Nat) : Option (Traced T) :=
  (Queue.new N block).map fun q =>
    { queue := q, accounts := newBlock { objects := .empty, blocks := .empty } block }

def construct (t : Traced T) (x : T) : Traced T :=
  { queue := t.queue.construct x
    accounts := { t.accounts with objects := t.accounts.objects.enter t.queue.end_.pos } }

def push (t : Traced T) (x : T) (block : Nat) : Option (Traced T) :=
  if t.queue.end_.end_ ≤ t.queue.end_.pos then
    let map_ := t.queue.map_.pushBack block
    map_.back.map fun last =>
      construct
        { queue := { t.queue with map_ := map_, end_ := Iterator.ofBlock N last }
          accounts := newBlock t.accounts block } x
  else
    some (t.construct x)

def destroy (t : Traced T) (p : Nat) : Traced T :=
  { queue := { t.queue with memory := Function.update t.queue.memory p none }
    accounts := { t.accounts with objects := t.accounts.objects.leave p } }

/-- With the block go the objects in it. -/
def deleteBlock (t : Traced T) (p : Nat) : Traced T :=
  { queue := t.queue.deleteBlock N p
    accounts :=
      { objects := t.accounts.objects.forget fun a => decide (p ≤ a ∧ a < p + N)
        blocks := t.accounts.blocks.leave p } }

/-- `DeleteBlock(map_.Front()); map_.PopFront()`, with the first block. -/
def dropBlock (t : Traced T) (first : Nat) : Traced T :=
  let t := t.deleteBlock N first
  { t with queue := { t.queue with map_ := t.queue.map_.popFront } }

def leaveBlock (t : Traced T) : Option (Traced T) :=
  t.queue.map_.front.bind fun first =>
    let t := t.dropBlock N first
    t.queue.map_.front.map fun next =>
      { t with queue := { t.queue with begin_ := Iterator.ofBlock N next } }

def popSlot (t : Traced T) : Traced T :=
  let t := t.destroy t.queue.begin_.pos
  { t with
    queue :=
      { t.queue with
        begin_ := { t.queue.begin_ with pos := t.queue.begin_.pos + 1 }
        size_ := t.queue.size_ - 1 } }

def pop (t : Traced T) : Option (Traced T) :=
  if t.queue.begin_.end_ ≤ t.queue.begin_.pos then
    (t.leaveBlock N).map popSlot
  else
    some t.popSlot

def destroyWhile (continues : Nat → Bool) : Nat → Nat → Traced T → Option (Traced T)
  | 0, it, t => if continues it then none else some t
  | fuel + 1, it, t =>
      if continues it then
        destroyWhile continues fuel (it + 1) (t.destroy it)
      else
        some t

def clearBlocks : Nat → UInt64 → Traced T → Option (Traced T)
  | 0, mapIt, t => if mapIt = t.queue.map_.end_ then some t else none
  | fuel + 1, mapIt, t =>
      if mapIt = t.queue.map_.end_ then
        some t
      else
        (t.queue.map_.get mapIt).bind fun block =>
          (destroyWhile (fun it => it != block + N && it != t.queue.end_.pos) N block t).bind
            fun t => t.queue.map_.front.bind fun first =>
              clearBlocks fuel (mapIt + 1) (t.dropBlock N first)

def clear (t : Traced T) : Option (Traced T) :=
  (destroyWhile (fun it => it != t.queue.begin_.end_) N t.queue.begin_.pos t).bind fun t =>
    (clearBlocks N t.queue.map_.size.toNat (t.queue.map_.begin_ + 1) t).bind fun t =>
      t.queue.map_.front.map fun first =>
        { t with
          queue :=
            { t.queue with
              size_ := 0
              begin_ := Iterator.ofBlock N first
              end_ := Iterator.ofBlock N first } }

/-- `~Queue`. -/
def destructor (t : Traced T) : Option (Traced T) := t.clear N

/-- `none` as a state means that the behaviour is no longer defined. -/
def step (s : Option (Traced T)) : Operation T → Option (Option (Traced T))
  | .push x block =>
      s.bind fun t =>
        if t.queue.end_.end_ ≤ t.queue.end_.pos →
            t.queue.held.length < 2 ^ 63 ∧
              ∀ b ∈ t.queue.held, block + N ≤ b ∨ b + N ≤ block then
          some (t.push N x block)
        else
          none
  | .pop => s.bind fun t => if t.queue.size_ = 0 then none else some (t.pop N)
  | .clear => s.map fun t => t.clear N

end Model

section Erasure

variable {N : Nat}

/-! ## The queue without the accounts -/

theorem queue_push (t : Traced T) (x : T) (block : Nat) :
    (t.push N x block).map queue = t.queue.push N x block := by
  rw [push, Queue.push]
  split
  · rw [Option.map_map]
    rfl
  · rfl

theorem queue_popSlot (t : Traced T) : t.queue.popSlot true = some t.popSlot.queue := by
  rw [Queue.popSlot, destroy_of_live (Or.inl rfl)]
  rfl

theorem queue_pop (t : Traced T) : (t.pop N).map queue = t.queue.pop N true := by
  rw [pop, Queue.pop]
  split
  · rw [leaveBlock, Queue.leaveBlock]
    cases t.queue.map_.front with
    | none => rfl
    | some first =>
        simp only [Option.bind_some]
        change (((t.queue.map_.popFront.front).map _).map _).map _ = _
        cases t.queue.map_.popFront.front with
        | none => rfl
        | some next => exact (queue_popSlot _).symm
  · exact (queue_popSlot t).symm

theorem queue_destroyWhile (continues : Nat → Bool) (fuel it : Nat) (t : Traced T) :
    (destroyWhile continues fuel it t).map queue =
      Queue.destroyWhile true continues fuel it t.queue := by
  induction fuel generalizing it t with
  | zero =>
      rw [destroyWhile, Queue.destroyWhile]
      split <;> rfl
  | succ fuel ih =>
      rw [destroyWhile, Queue.destroyWhile]
      split
      · rw [ih, destroy_of_live (Or.inl rfl), Option.bind_some]
        rfl
      · rfl

theorem queue_clearBlocks (fuel : Nat) (mapIt : UInt64) (t : Traced T) :
    (clearBlocks N fuel mapIt t).map queue =
      Queue.clearBlocks N true fuel mapIt t.queue := by
  induction fuel generalizing mapIt t with
  | zero =>
      rw [clearBlocks, Queue.clearBlocks]
      split <;> rfl
  | succ fuel ih =>
      rw [clearBlocks, Queue.clearBlocks]
      split
      · rfl
      · cases t.queue.map_.get mapIt with
        | none => rfl
        | some block =>
            simp only [Option.bind_some, ← queue_destroyWhile]
            cases destroyWhile (fun it => it != block + N && it != t.queue.end_.pos) N block t with
            | none => rfl
            | some t =>
                simp only [Option.bind_some, Option.map_some]
                cases t.queue.map_.front with
                | none => rfl
                | some first => exact ih _ _

theorem queue_clear (t : Traced T) : (t.clear N).map queue = t.queue.clear N true := by
  rw [clear, Queue.clear, ← queue_destroyWhile]
  cases destroyWhile (fun it => it != t.queue.begin_.end_) N t.queue.begin_.pos t with
  | none => rfl
  | some t =>
      simp only [Option.bind_some, Option.map_some, ← queue_clearBlocks]
      cases clearBlocks N t.queue.map_.size.toNat (t.queue.map_.begin_ + 1) t with
      | none => rfl
      | some t =>
          simp only [Option.bind_some, Option.map_some, Option.map_map]
          rfl

end Erasure

/-! ## What every call keeps -/

/-- A property of the objects that `Construct`, `Destroy` and `DeleteBlock` keep, wherever they are
applied. -/
structure Stable (N : Nat) (property : (Nat → Option T) → Register Nat → Prop) : Prop where
  construct : ∀ memory objects p x, property memory objects →
    property (Function.update memory p (some x)) (objects.enter p)
  destroy : ∀ memory objects p, property memory objects →
    property (Function.update memory p none) (objects.leave p)
  deleteBlock : ∀ memory objects p, property memory objects →
    property (eraseRange memory p N) (objects.forget fun a => decide (p ≤ a ∧ a < p + N))

/-- The objects of the register are those of the memory. -/
def Mirrored (memory : Nat → Option T) (objects : Register Nat) : Prop :=
  ∀ a, (objects.present a).isSome = (memory a).isSome

theorem stable_mirrored (N : Nat) : Stable N (Mirrored (T := T)) where
  construct := by
    intro memory objects p x mirrored a
    by_cases here : a = p
    · simp [Register.enter, here]
    · simp [Register.enter, here, mirrored a]
  destroy := by
    intro memory objects p mirrored a
    by_cases here : a = p
    · simp [Register.leave, here]
    · simp [Register.leave, here, mirrored a]
  deleteBlock := by
    intro memory objects p mirrored a
    by_cases here : p ≤ a ∧ a < p + N
    · simp [Register.forget, eraseRange, here]
    · simp [Register.forget, eraseRange, here, mirrored a]

/-- A wrong call is never made good. -/
theorem stable_broken (N : Nat) : Stable N fun (_ : Nat → Option T) objects => objects.Broken where
  construct := fun _ _ p _ broken => broken.enter p
  destroy := fun _ _ p broken => broken.leave p
  deleteBlock := fun _ _ _ broken => broken.forget _

namespace Stable

variable {N : Nat} {property : (Nat → Option T) → Register Nat → Prop} {t t' : Traced T}

theorem push {x : T} {block : Nat} (stable : Stable N property)
    (holds : property t.queue.memory t.accounts.objects) (pushed : t.push N x block = some t') :
    property t'.queue.memory t'.accounts.objects := by
  rw [Traced.push] at pushed
  split at pushed
  · obtain ⟨last, -, rfl⟩ := Option.map_eq_some_iff.mp pushed
    exact stable.construct _ _ _ _ holds
  · obtain rfl := Option.some.inj pushed
    exact stable.construct _ _ _ _ holds

theorem pop (stable : Stable N property) (holds : property t.queue.memory t.accounts.objects)
    (popped : t.pop N = some t') : property t'.queue.memory t'.accounts.objects := by
  rw [Traced.pop] at popped
  split at popped
  · obtain ⟨t₁, left, rfl⟩ := Option.map_eq_some_iff.mp popped
    obtain ⟨first, -, left⟩ := Option.bind_eq_some_iff.mp left
    obtain ⟨next, -, rfl⟩ := Option.map_eq_some_iff.mp left
    exact stable.destroy _ _ _ (stable.deleteBlock _ _ first holds)
  · obtain rfl := Option.some.inj popped
    exact stable.destroy _ _ _ holds

theorem destroyWhile {continues : Nat → Bool} {fuel it : Nat} (stable : Stable N property)
    (holds : property t.queue.memory t.accounts.objects)
    (destroyed : destroyWhile continues fuel it t = some t') :
    property t'.queue.memory t'.accounts.objects := by
  induction fuel generalizing it t with
  | zero =>
      rw [Traced.destroyWhile] at destroyed
      split at destroyed
      · cases destroyed
      · exact Option.some.inj destroyed ▸ holds
  | succ fuel ih =>
      rw [Traced.destroyWhile] at destroyed
      split at destroyed
      · exact ih (stable.destroy _ _ it holds) destroyed
      · exact Option.some.inj destroyed ▸ holds

theorem clearBlocks {fuel : Nat} {mapIt : UInt64} (stable : Stable N property)
    (holds : property t.queue.memory t.accounts.objects)
    (cleared : clearBlocks N fuel mapIt t = some t') :
    property t'.queue.memory t'.accounts.objects := by
  induction fuel generalizing mapIt t with
  | zero =>
      rw [Traced.clearBlocks] at cleared
      split at cleared
      · exact Option.some.inj cleared ▸ holds
      · cases cleared
  | succ fuel ih =>
      rw [Traced.clearBlocks] at cleared
      split at cleared
      · exact Option.some.inj cleared ▸ holds
      · obtain ⟨block, -, cleared⟩ := Option.bind_eq_some_iff.mp cleared
        obtain ⟨t₁, destroyed, cleared⟩ := Option.bind_eq_some_iff.mp cleared
        obtain ⟨first, -, cleared⟩ := Option.bind_eq_some_iff.mp cleared
        exact ih (stable.deleteBlock _ _ first (stable.destroyWhile holds destroyed)) cleared

theorem clear (stable : Stable N property) (holds : property t.queue.memory t.accounts.objects)
    (cleared : t.clear N = some t') : property t'.queue.memory t'.accounts.objects := by
  obtain ⟨t₁, destroyed, cleared⟩ := Option.bind_eq_some_iff.mp cleared
  obtain ⟨t₂, swept, cleared⟩ := Option.bind_eq_some_iff.mp cleared
  obtain ⟨first, -, rfl⟩ := Option.map_eq_some_iff.mp cleared
  have kept := stable.clearBlocks (stable.destroyWhile holds destroyed) swept
  exact kept

end Stable

/-! ## The blocks -/

/-- The blocks that are out are the ones held. -/
structure Lent (blocks : Register Nat) (held : List Nat) : Prop where
  intact : blocks.Intact
  out : ∀ b, (blocks.present b).isSome = true ↔ b ∈ held

namespace Lent

variable {blocks : Register Nat} {held : List Nat} {block : Nat}

theorem enter (lent : Lent blocks held) (fresh : block ∉ held) :
    Lent (blocks.enter block) (held ++ [block]) where
  intact := lent.intact.enter (Register.Holds.free lent.out fresh)
  out := Register.Holds.enter lent.out

theorem leave (lent : Lent blocks (block :: held)) (other : block ∉ held) :
    Lent (blocks.leave block) held where
  intact := by
    obtain ⟨i, here⟩ := Register.Holds.taken lent.out List.mem_cons_self
    exact lent.intact.leave here
  out := Register.Holds.leave lent.out other

theorem not_settled (lent : Lent blocks (block :: held)) : ¬blocks.Settled := by
  rw [lent.intact.settled_iff]
  intro nothing
  have here := (lent.out block).mpr List.mem_cons_self
  rw [nothing block] at here
  cases here

end Lent

section Rounds

variable {N : Nat} {t t' : Traced T} {first block : Nat} {rest : List Nat}

theorem blocks_destroyWhile {continues : Nat → Bool} {fuel it : Nat}
    (destroyed : destroyWhile continues fuel it t = some t') :
    t'.accounts.blocks = t.accounts.blocks := by
  induction fuel generalizing it t with
  | zero =>
      rw [destroyWhile] at destroyed
      split at destroyed
      · cases destroyed
      · rw [Option.some.inj destroyed]
  | succ fuel ih =>
      rw [destroyWhile] at destroyed
      split at destroyed
      · have same := ih destroyed
        exact same
      · rw [Option.some.inj destroyed]

/-- One round of the loop of `Clear` over the blocks. -/
theorem clearBlocks_cons (sweep : Sweep N t.queue first (block :: rest)) {fuel : Nat}
    (cleared : clearBlocks N fuel (t.queue.map_.begin_ + 1) t = some t') :
    ∃ fuel' t₁, destroyWhile (fun it => it != block + N && it != t.queue.end_.pos) N block t =
        some t₁ ∧
      t₁.queue =
        { t.queue with memory := eraseRange t.queue.memory block (visited N t.queue block) } ∧
      Sweep N (t₁.dropBlock N first).queue block rest ∧
      clearBlocks N fuel' ((t₁.dropBlock N first).queue.map_.begin_ + 1) (t₁.dropBlock N first) =
        some t' := by
  have notEnd := sweep.begin_succ_ne_end
  have current : t.queue.map_.get (t.queue.map_.begin_ + 1) = some block :=
    sweep.map.holds 1 (by simp)
  have front : t.queue.map_.front = some first := sweep.map.front_eq
  have visits := sweep.destroyed true
  rw [← queue_destroyWhile] at visits
  obtain ⟨t₁, destroyed, queue⟩ := Option.map_eq_some_iff.mp visits
  cases fuel with
  | zero => simp [clearBlocks, notEnd] at cleared
  | succ fuel =>
      rw [clearBlocks, if_neg notEnd, current, Option.bind_some, destroyed, Option.bind_some,
        queue] at cleared
      simp only [front, Option.bind_some] at cleared
      refine ⟨fuel, t₁, destroyed, queue, ?_, ?_⟩
      · have next := sweep.step
        simpa [dropBlock, deleteBlock, Queue.deleteBlock, queue] using next
      · have begins : (t₁.dropBlock N first).queue.map_.begin_ = t.queue.map_.begin_ + 1 := by
          change t₁.queue.map_.popFront.begin_ = _
          rw [queue]
          rfl
        rw [begins]
        exact cleared

theorem clearBlocks_nil (sweep : Sweep N t.queue first []) {fuel : Nat}
    (cleared : clearBlocks N fuel (t.queue.map_.begin_ + 1) t = some t') : t' = t := by
  have atEnd : t.queue.map_.begin_ + 1 = t.queue.map_.end_ := sweep.map.end_eq.symm
  cases fuel <;> simpa [clearBlocks, atEnd, eq_comm] using cleared

theorem not_mem_of_apart (positive : 0 < N) (apart : (slots N (first :: rest)).Nodup) :
    first ∉ rest := by
  intro again
  rw [slots_cons, List.nodup_append'] at apart
  have front : first ∈ List.range' first N := List.mem_range'_1.mpr (by omega)
  exact apart.2.2 front (mem_slots.mpr ⟨first, again, by omega⟩)

/-- The loop returns all blocks but the last. -/
theorem Lent.clearBlocks (positive : 0 < N) (sweep : Sweep N t.queue first rest)
    (lent : Lent t.accounts.blocks (first :: rest)) {fuel : Nat}
    (cleared : clearBlocks N fuel (t.queue.map_.begin_ + 1) t = some t') :
    Lent t'.accounts.blocks [rest.getLastD first] := by
  induction rest generalizing t first fuel with
  | nil =>
      rw [clearBlocks_nil sweep cleared]
      exact lent
  | cons block rest ih =>
      obtain ⟨fuel', t₁, destroyed, -, next, later⟩ := clearBlocks_cons sweep cleared
      rw [List.getLastD_cons]
      refine ih next ?_ later
      have other := not_mem_of_apart positive sweep.apart
      change Lent (t₁.accounts.blocks.leave first) _
      rw [blocks_destroyWhile destroyed]
      exact lent.leave other

/-! ## The objects -/

/-- A loop over `m` slots that hold objects. -/
theorem intact_destroyWhile {continues : Nat → Bool} {m fuel it : Nat}
    (on : ∀ k < m, continues (it + k) = true) (off : continues (it + m) = false)
    (live : ∀ k < m, (t.queue.memory (it + k)).isSome = true)
    (mirrored : Mirrored t.queue.memory t.accounts.objects) (intact : t.accounts.objects.Intact)
    (destroyed : destroyWhile continues fuel it t = some t') : t'.accounts.objects.Intact := by
  induction m generalizing fuel it t with
  | zero =>
      rw [Nat.add_zero] at off
      have stopped : t = t' := by
        cases fuel <;> simpa [destroyWhile, off] using destroyed
      exact stopped ▸ intact
  | succ m ih =>
      have first : continues it = true := on 0 (by omega)
      cases fuel with
      | zero => simp [destroyWhile, first] at destroyed
      | succ fuel =>
          rw [destroyWhile, if_pos first] at destroyed
          have here := live 0 (by omega)
          rw [← mirrored] at here
          obtain ⟨i, here⟩ := Option.isSome_iff_exists.mp here
          refine ih ?_ ?_ ?_ ((stable_mirrored 0).destroy _ _ it mirrored) (intact.leave here)
            destroyed
          · intro k inside
            rw [show it + 1 + k = it + (k + 1) by omega]
            exact on _ (by omega)
          · rw [show it + 1 + m = it + (m + 1) by omega]
            exact off
          · intro k inside
            change (Function.update t.queue.memory it none (it + 1 + k)).isSome = true
            rw [Function.update_of_ne (by omega), show it + 1 + k = it + (k + 1) by omega]
            exact live (k + 1) (by omega)

/-- A loop that comes to a raw slot. -/
theorem broken_destroyWhile {continues : Nat → Bool} {k fuel it : Nat}
    (on : ∀ j ≤ k, continues (it + j) = true) (raw : t.queue.memory (it + k) = none)
    (mirrored : Mirrored t.queue.memory t.accounts.objects)
    (destroyed : destroyWhile continues fuel it t = some t') : t'.accounts.objects.Broken := by
  induction k generalizing fuel it t with
  | zero =>
      have first : continues it = true := on 0 le_rfl
      cases fuel with
      | zero => simp [destroyWhile, first] at destroyed
      | succ fuel =>
          rw [destroyWhile, if_pos first] at destroyed
          have nothing : t.accounts.objects.present it = none := by
            rw [← Option.not_isSome_iff_eq_none, mirrored, ← Nat.add_zero it, raw]
            simp
          refine (stable_broken 0).destroyWhile ?_ destroyed
          exact Register.Broken.leave_of_none nothing
  | succ k ih =>
      have first : continues it = true := on 0 (by omega)
      cases fuel with
      | zero => simp [destroyWhile, first] at destroyed
      | succ fuel =>
          rw [destroyWhile, if_pos first] at destroyed
          refine ih ?_ ?_ ((stable_mirrored 0).destroy _ _ it mirrored) destroyed
          · intro j inside
            rw [show it + 1 + j = it + (j + 1) by omega]
            exact on _ (by omega)
          · change Function.update t.queue.memory it none (it + 1 + k) = none
            rw [Function.update_of_ne (by omega), show it + 1 + k = it + (k + 1) by omega]
            exact raw

/-- The inner loop stops at once at a block before the last one that contains the address of `end_`. -/
theorem end_eq_of_middle (positive : 0 < N) {q : Queue T} (sweep : Sweep N q first (block :: rest))
    (more : rest ≠ []) (inside : block ≤ q.end_.pos ∧ q.end_.pos < block + N) :
    q.end_.pos = block ∧ rest.getLastD block + N ≤ block := by
  have apart := sweep.apart
  have low := sweep.endLow
  have high := sweep.endHigh
  rw [List.getLastD_cons] at low high
  rw [slots_cons, slots_cons, List.nodup_append', List.nodup_append'] at apart
  have disjoint : ∀ a, block ≤ a → a < block + N → rest.getLastD block ≤ a →
      ¬a < rest.getLastD block + N := by
    intro a above below lastAbove lastBelow
    exact apart.2.1.2.2 (List.mem_range'_1.mpr ⟨above, below⟩)
      (mem_slots_getLastD more ⟨lastAbove, lastBelow⟩)
  have behind := disjoint q.end_.pos inside.1 inside.2 low
  by_cases start : q.end_.pos = block
  · exact ⟨start, by omega⟩
  · exact absurd (by omega) (disjoint (q.end_.pos - 1) (by omega) (by omega) (by omega))

/-- After the inner loop the block holds no object, if it is the last one or does not start at
`end_`. -/
theorem emptied_of_tidy (positive : 0 < N) {q : Queue T}
    (sweep : Sweep N q first (block :: rest)) (tidy : q.end_.pos ∉ (block :: rest).dropLast)
    {a : Nat} (above : block ≤ a) (below : a < block + N) :
    eraseRange q.memory block (visited N q block) a = none := by
  rw [eraseRange]
  split
  · rfl
  · rename_i unvisited
    have member : a ∈ List.range' block N := List.mem_range'_1.mpr ⟨above, below⟩
    have outside : ¬(first ≤ a ∧ a < first + N) := by
      intro within
      have apart := sweep.apart
      rw [slots_cons, List.nodup_append'] at apart
      exact apart.2.2 (List.mem_range'_1.mpr within) (List.mem_append_left _ member)
    have inside : block ≤ q.end_.pos ∧ q.end_.pos < block + N ∧ q.end_.pos ≤ a := by
      rw [visited] at unvisited
      split at unvisited <;> omega
    rw [← Option.not_isSome_iff_eq_none, sweep.live a outside, List.getLastD_cons]
    rintro ⟨-, used⟩
    rcases eq_or_ne rest [] with rfl | more
    · simp only [List.getLastD_nil] at used
      omega
    · obtain ⟨start, -⟩ := end_eq_of_middle positive sweep more ⟨inside.1, inside.2.1⟩
      apply tidy
      rw [List.dropLast_cons_of_ne_nil more, start]
      exact List.mem_cons_self

/-- A round that returns a block without an object. -/
theorem intact_round {t₁ : Traced T} (sweep : Sweep N t.queue first (block :: rest))
    (emptied : ∀ a, first ≤ a ∧ a < first + N → t.queue.memory a = none)
    (mirrored : Mirrored t.queue.memory t.accounts.objects) (intact : t.accounts.objects.Intact)
    (destroyed : destroyWhile (fun it => it != block + N && it != t.queue.end_.pos) N block t =
      some t₁)
    (queue : t₁.queue =
      { t.queue with memory := eraseRange t.queue.memory block (visited N t.queue block) }) :
    (t₁.dropBlock N first).accounts.objects.Intact := by
  have mirrored₁ := (stable_mirrored N).destroyWhile mirrored destroyed
  have same : (t₁.dropBlock N first).accounts.objects = t₁.accounts.objects := by
    apply Register.forget_eq_self
    intro a inside
    rw [← Option.not_isSome_iff_eq_none, mirrored₁, queue]
    change ¬(eraseRange _ _ _ a).isSome = true
    rw [eraseRange, emptied a (of_decide_eq_true inside), ite_self]
    simp
  rw [same]
  exact intact_destroyWhile (fun k inside => visited_on inside) visited_off sweep.live_visited
    mirrored intact destroyed

theorem intact_clearBlocks (positive : 0 < N) (sweep : Sweep N t.queue first rest)
    (emptied : ∀ a, first ≤ a ∧ a < first + N → t.queue.memory a = none)
    (tidy : t.queue.end_.pos ∉ rest.dropLast)
    (mirrored : Mirrored t.queue.memory t.accounts.objects) (intact : t.accounts.objects.Intact)
    {fuel : Nat} (cleared : clearBlocks N fuel (t.queue.map_.begin_ + 1) t = some t') :
    t'.accounts.objects.Intact := by
  induction rest generalizing t first fuel with
  | nil =>
      rw [clearBlocks_nil sweep cleared]
      exact intact
  | cons block rest ih =>
      obtain ⟨fuel', t₁, destroyed, queue, next, later⟩ := clearBlocks_cons sweep cleared
      have mirrored₁ := (stable_mirrored N).destroyWhile mirrored destroyed
      refine ih next ?_ ?_ ((stable_mirrored N).deleteBlock _ _ first mirrored₁)
        (intact_round sweep emptied mirrored intact destroyed queue) later
      · rintro a ⟨above, below⟩
        change eraseRange t₁.queue.memory first N a = none
        rw [queue, eraseRange]
        split
        · rfl
        · exact emptied_of_tidy positive sweep tidy above below
      · change t₁.queue.end_.pos ∉ rest.dropLast
        rw [queue]
        intro member
        apply tidy
        rw [List.dropLast_cons_of_ne_nil (by rintro rfl; cases member)]
        exact List.mem_cons_of_mem _ member

/-- A block before the last one that starts at `end_` keeps its first object. -/
theorem live_of_untidy (positive : 0 < N) {q : Queue T}
    (sweep : Sweep N q first (block :: rest)) (more : rest ≠ []) (start : q.end_.pos = block) :
    (eraseRange (eraseRange q.memory block (visited N q block)) first N block).isSome = true := by
  have apart := sweep.apart
  rw [slots_cons, List.nodup_append'] at apart
  have member : block ∈ slots N (block :: rest) :=
    mem_slots.mpr ⟨block, List.mem_cons_self, by omega⟩
  have outside : ¬(first ≤ block ∧ block < first + N) := by
    intro within
    exact apart.2.2 (List.mem_range'_1.mpr within) member
  have none_visited : visited N q block = 0 := by
    rw [visited, if_pos (by omega)]
    omega
  obtain ⟨-, behind⟩ := end_eq_of_middle positive sweep more (by omega)
  rw [eraseRange, if_neg outside, eraseRange, if_neg (by omega), sweep.live block outside,
    List.getLastD_cons]
  exact ⟨member, by omega⟩

/-- A block is returned with an object: the first one, or one that starts at `end_`. -/
theorem broken_clearBlocks (positive : 0 < N) (sweep : Sweep N t.queue first rest)
    (untidy : (rest ≠ [] ∧ ∃ a, first ≤ a ∧ a < first + N ∧ (t.queue.memory a).isSome = true) ∨
      t.queue.end_.pos ∈ rest.dropLast)
    (mirrored : Mirrored t.queue.memory t.accounts.objects) (intact : t.accounts.objects.Intact)
    {fuel : Nat} (cleared : clearBlocks N fuel (t.queue.map_.begin_ + 1) t = some t') :
    t'.accounts.objects.Broken := by
  induction rest generalizing t first fuel with
  | nil =>
      rcases untidy with ⟨more, -⟩ | member
      · exact absurd rfl more
      · cases member
  | cons block rest ih =>
      obtain ⟨fuel', t₁, destroyed, queue, next, later⟩ := clearBlocks_cons sweep cleared
      have mirrored₁ := (stable_mirrored N).destroyWhile mirrored destroyed
      by_cases live : ∃ a, first ≤ a ∧ a < first + N ∧ (t.queue.memory a).isSome = true
      · obtain ⟨a, above, below, object⟩ := live
        have apart := sweep.apart
        rw [slots_cons, slots_cons, List.nodup_append'] at apart
        have unvisited : ¬(block ≤ a ∧ a < block + visited N t.queue block) := by
          have count := visited_le N t.queue block
          intro inside
          exact apart.2.2 (List.mem_range'_1.mpr ⟨above, below⟩)
            (List.mem_append_left _ (List.mem_range'_1.mpr (by omega)))
        have here : (t₁.accounts.objects.present a).isSome = true := by
          rw [mirrored₁, queue]
          change (eraseRange _ _ _ a).isSome = true
          rw [eraseRange, if_neg unvisited]
          exact object
        obtain ⟨i, here⟩ := Option.isSome_iff_exists.mp here
        have intact₁ := intact_destroyWhile (fun k inside => visited_on inside) visited_off
          sweep.live_visited mirrored intact destroyed
        refine (stable_broken N).clearBlocks ?_ later
        exact Or.inr ⟨i, intact₁.forget_lost here (decide_eq_true ⟨above, below⟩)⟩
      · have member : t.queue.end_.pos ∈ (block :: rest).dropLast := by
          rcases untidy with ⟨-, object⟩ | member
          · exact absurd object live
          · exact member
        have more : rest ≠ [] := by
          rintro rfl
          cases member
        have emptied : ∀ a, first ≤ a ∧ a < first + N → t.queue.memory a = none := by
          rintro a ⟨above, below⟩
          rw [← Option.not_isSome_iff_eq_none]
          intro object
          exact live ⟨a, above, below, object⟩
        refine ih next ?_ ((stable_mirrored N).deleteBlock _ _ first mirrored₁)
          (intact_round sweep emptied mirrored intact destroyed queue) later
        rw [List.dropLast_cons_of_ne_nil more, List.mem_cons] at member
        rcases member with start | member
        · left
          refine ⟨more, block, le_rfl, by omega, ?_⟩
          change (eraseRange t₁.queue.memory first N block).isSome = true
          rw [queue]
          exact live_of_untidy positive sweep more start
        · right
          change t₁.queue.end_.pos ∈ rest.dropLast
          rw [queue]
          exact member

end Rounds

end Traced

end Queue

end Mcast

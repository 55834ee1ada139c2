import Mcast.Util.Queue

/-!
# The order of the block queue

Runs of the queue beside the list of the elements pushed and not yet popped or cleared, each with
the slot in which it was constructed.  The queue and the list agree in every state of a run exactly
when no state has elements while `begin_.pos` stands at the end of a block that the next block does
not follow directly, and no `Clear` runs a destructor on raw storage.
-/

namespace Mcast

namespace Queue

variable {T : Type*}

inductive Operation (T : Type*)
  | push (x : T) (block : Nat)
  | pop
  | clear
  deriving DecidableEq, Repr

/-- `queue` is `none` when the behaviour of the program is no longer defined. -/
structure Observed (T : Type*) where
  queue : Option (Queue T)
  elements : List (Nat × T)

section Runs

variable (N : Nat) (trivial : Bool)

def start (block : Nat) : Observed T :=
  { queue := new N block, elements := [] }

/-- `NewBlock` answers with storage apart from the blocks held, whose number stays below `2 ^ 63`;
`Pop` is called while there are elements. -/
def step (s : Observed T) : Operation T → Option (Observed T)
  | .push x block =>
      s.queue.bind fun q =>
        if q.end_.end_ ≤ q.end_.pos →
            q.held.length < 2 ^ 63 ∧ ∀ b ∈ q.held, block + N ≤ b ∨ b + N ≤ block then
          some { queue := q.push N x block, elements := s.elements ++ [(q.slotFor block, x)] }
        else
          none
  | .pop =>
      s.queue.bind fun q =>
        match s.elements with
        | [] => none
        | _ :: rest => some { queue := q.pop N trivial, elements := rest }
  | .clear => s.queue.map fun q => { queue := q.clear N trivial, elements := [] }

/-- The queue is the list: it has its length and stores its elements; `Front` refers to the oldest
one, in a slot of a block held, and `Pop` destroys this one only. -/
def Correct (s : Observed T) : Prop :=
  ∃ q, s.queue = some q ∧
    q.size_ = s.elements.length ∧
    (∀ e ∈ s.elements, q.memory e.1 = some e.2) ∧
    ∀ e rest, s.elements = e :: rest →
      q.front = e.1 ∧
      q.memory q.front = some e.2 ∧
      (∃ block ∈ q.held, block ≤ q.begin_.pos ∧ q.begin_.pos < block + N) ∧
      ∃ q', q.pop N trivial = some q' ∧ q'.memory e.1 = none ∧
        (∀ e' ∈ rest, q'.memory e'.1 = some e'.2) ∧ q'.size_ = rest.length

/-- Where `begin_.pos` stands at the end of the first block of a queue with elements, the second
block starts at this address. -/
def Aligned (s : Observed T) : Prop :=
  ∀ q, s.queue = some q → q.size_ ≠ 0 → q.begin_.pos = q.begin_.end_ →
    q.held[1]? = some q.begin_.end_

/-- `Clear` visits no free slot: there are several blocks, or the only one is used up.  With a
trivial destructor it may. -/
def clearsObjects (s : Observed T) : Operation T → Bool
  | .clear => s.queue.all fun q => trivial || q.held.length != 1 || q.end_.pos == q.end_.end_
  | _ => true

variable {N trivial}

/-- The invariant of the runs. -/
def Stored (N : Nat) (s : Observed T) : Prop :=
  ∃ q first rest, s.queue = some q ∧ Valid N q first rest s.elements

theorem stored_start (N block : Nat) : Stored N (start N block : Observed T) := by
  obtain ⟨q, built, valid⟩ := Valid.new (T := T) N block
  exact ⟨q, block, [], built, valid⟩

/-- A step leads to the invariant again, unless it is a `Clear` of raw slots. -/
theorem Stored.step {before after : Observed T} {operation : Operation T} (positive : 0 < N)
    (stored : Stored N before) (stepped : Queue.step N trivial before operation = some after)
    (objects : clearsObjects trivial before operation = true) : Stored N after := by
  obtain ⟨q, first, rest, queue, valid⟩ := stored
  cases operation with
  | push x block =>
      simp only [Queue.step, queue, Option.bind_some] at stepped
      split at stepped
      · rename_i answer
        obtain rfl := Option.some.inj stepped
        rw [valid.held_eq] at answer
        obtain ⟨q', rest', pushed, valid'⟩ := valid.push positive x answer
        exact ⟨q', first, rest', pushed, valid'⟩
      · cases stepped
  | pop =>
      simp only [Queue.step, queue, Option.bind_some] at stepped
      split at stepped
      · cases stepped
      · rename_i e others listed
        obtain rfl := Option.some.inj stepped
        rw [listed] at valid
        obtain ⟨q', first', rest', popped, -, valid'⟩ := valid.pop positive trivial
        exact ⟨q', first', rest', popped, valid'⟩
  | clear =>
      simp only [Queue.step, queue, Option.map_some] at stepped
      obtain rfl := Option.some.inj stepped
      have used : trivial = true ∨ rest ≠ [] ∨ q.end_.pos = q.end_.end_ := by
        simp only [clearsObjects, queue, Option.all_some, valid.held_eq, Bool.or_eq_true,
          bne_iff_ne, beq_iff_eq, or_assoc] at objects
        refine objects.imp_right (Or.imp_left ?_)
        rintro several rfl
        exact several rfl
      obtain ⟨q', cleared, valid'⟩ := valid.clear_of_live used
      exact ⟨q', _, [], cleared, valid'⟩

/-- A `Clear` of raw slots is undefined. -/
theorem Stored.clear_undefined {before after : Observed T} {operation : Operation T}
    (stored : Stored N before) (stepped : Queue.step N trivial before operation = some after)
    (raw : clearsObjects trivial before operation = false) : after.queue = none := by
  obtain ⟨q, first, rest, queue, valid⟩ := stored
  cases operation with
  | push x block => cases raw
  | pop => cases raw
  | clear =>
      simp only [clearsObjects, queue, Option.all_some, valid.held_eq, Bool.or_eq_false_iff,
        bne_eq_false_iff_eq, beq_eq_false_iff_ne] at raw
      obtain ⟨⟨rfl, only⟩, free⟩ := raw
      obtain rfl : rest = [] := by simpa using only
      simp only [Queue.step, queue, Option.map_some] at stepped
      obtain rfl := Option.some.inj stepped
      exact valid.clear_of_raw free

/-- In a state of the invariant the queue is the list exactly when it is aligned. -/
theorem Stored.correct_iff {s : Observed T} (positive : 0 < N) (stored : Stored N s) :
    Correct N trivial s ↔ Aligned s := by
  obtain ⟨q, first, rest, queue, valid⟩ := stored
  constructor
  · rintro ⟨q', queue', -, -, oldest⟩ q'' queue'' nonempty boundary
    obtain rfl := Option.some.inj (queue.symm.trans queue')
    obtain rfl := Option.some.inj (queue.symm.trans queue'')
    cases listed : s.elements with
    | nil => simp [valid.size, listed] at nonempty
    | cons e others =>
        rw [listed] at valid
        have behind := valid.oldest_behind positive (boundary.trans valid.beginEnd)
        have refers : q.begin_.pos = e.1 := (oldest e others listed).1
        rw [valid.held_eq, List.getElem?_cons_succ, ← List.head?_eq_getElem?, behind, ← refers,
          boundary]
  · intro aligned
    refine ⟨q, queue, valid.size, fun e element => (valid.objects e.1 e.2).mpr element, ?_⟩
    intro e others listed
    have size := valid.size
    rw [listed] at valid size
    have refers : q.begin_.pos = e.1 ∧
        ∃ block ∈ q.held, block ≤ q.begin_.pos ∧ q.begin_.pos < block + N := by
      rcases valid.beginHigh.lt_or_eq with inside | boundary
      · refine ⟨(valid.oldest_inside inside).symm, first, ?_, valid.beginLow, inside⟩
        rw [valid.held_eq]
        exact List.mem_cons_self
      · have behind := valid.oldest_behind positive boundary
        have next := aligned q queue (by simp [size]) (boundary.trans valid.beginEnd.symm)
        rw [valid.held_eq, List.getElem?_cons_succ, ← List.head?_eq_getElem?, behind,
          valid.beginEnd, ← boundary] at next
        obtain same : e.1 = q.begin_.pos := Option.some.inj next
        refine ⟨same.symm, e.1, ?_, same.le, by omega⟩
        rw [valid.held_eq]
        exact List.mem_cons_of_mem _ (List.mem_of_head? behind)
    obtain ⟨q', first', rest', popped, gone, valid'⟩ := valid.pop positive trivial
    refine ⟨refers.1, ?_, refers.2, q', popped, gone, ?_, valid'.size⟩
    · rw [front, refers.1]
      exact (valid.objects e.1 e.2).mpr List.mem_cons_self
    · intro e' element
      exact (valid'.objects e'.1 e'.2).mpr element

/-- Every state of a run is stored, or undefined after a `Clear` of raw slots. -/
theorem stored_or_undefined_of_run {block : Nat} {operations : List (Operation T)}
    {s : Observed T} (positive : 0 < N)
    (execution : Transition.run (Queue.step N trivial) (start N block) operations = some s) :
    Stored N s ∨ s.queue = none := by
  refine @Transition.run_preserves _ _ _ (fun s => Stored N s ∨ s.queue = none) ?_ _ _ _
    (Or.inl (stored_start N block)) execution
  intro before operation after holds stepped
  rcases holds with stored | undefined
  · cases objects : clearsObjects trivial before operation with
    | true => exact Or.inl (stored.step positive stepped objects)
    | false => exact Or.inr (stored.clear_undefined stepped objects)
  · cases operation <;> simp [Queue.step, undefined] at stepped

/-- The queue is the list of its elements in every state of a run exactly when every state is
aligned and every `Clear` destroys objects only. -/
theorem correct_iff_aligned {block : Nat} {operations : List (Operation T)} {s : Observed T}
    (positive : 0 < N)
    (execution : Transition.run (Queue.step N trivial) (start N block) operations = some s) :
    Transition.Always (Queue.step N trivial) (Correct N trivial) (start N block) operations ↔
      Transition.Always (Queue.step N trivial) Aligned (start N block) operations ∧
        Transition.run (Transition.restrict (Queue.step N trivial) (clearsObjects trivial))
          (start N block) operations = some s := by
  have defined_iff : Transition.Always (Queue.step N trivial) (fun s => s.queue ≠ none)
      (start N block) operations ↔
        Transition.run (Transition.restrict (Queue.step N trivial) (clearsObjects trivial))
          (start N block) operations = some s := by
    refine @Transition.always_iff_restrict _ _ _ _ _ (Stored N) ?_ ?_ ?_ _ _ _
      (stored_start N block) execution
    · intro before operation after stored stepped objects
      exact stored.step positive stepped objects
    · rintro state ⟨q, first, rest, queue, -⟩
      simp [queue]
    · intro before operation after stored stepped defined
      by_contra raw
      exact defined (stored.clear_undefined stepped (Bool.eq_false_of_not_eq_true raw))
  rw [← defined_iff]
  constructor
  · intro always
    refine ⟨?_, ?_⟩
    · intro earlier later middle whole reached
      have correct := always earlier later middle whole reached
      rcases stored_or_undefined_of_run positive reached with stored | undefined
      · exact (stored.correct_iff positive).mp correct
      · intro q queue
        rw [undefined] at queue
        cases queue
    · intro earlier later middle whole reached
      obtain ⟨q, queue, -⟩ := always earlier later middle whole reached
      simp [queue]
  · rintro ⟨aligned, defined⟩ earlier later middle whole reached
    rcases stored_or_undefined_of_run positive reached with stored | undefined
    · exact (stored.correct_iff positive).mpr (aligned earlier later middle whole reached)
    · exact absurd undefined (defined earlier later middle whole reached)

end Runs

/-- A push at the end of the only block, which is answered with the block behind it. -/
def adjacentTrace : List (Operation Nat) :=
  [Operation.push 1 0, .pop, .push 2 1]

theorem correct_iff_aligned_adjacentTrace :
    ∃ s, Transition.run (step 1 true) (start 1 0) adjacentTrace = some s ∧
      s.elements = [(1, 2)] ∧
      Transition.Always (step 1 true) (Correct 1 true) (start 1 0) adjacentTrace := by
  refine ⟨_, rfl, rfl, (@correct_iff_aligned Nat 1 true 0 adjacentTrace _ (by decide) rfl).mpr
    ⟨?_, rfl⟩⟩
  refine (Transition.always_cons rfl).mpr ⟨?_, (Transition.always_cons rfl).mpr ⟨?_,
    (Transition.always_cons rfl).mpr ⟨?_, Transition.always_nil.mpr ?_⟩⟩⟩ <;>
  · intro q queue
    obtain rfl := Option.some.inj queue
    decide

/-- Two elements come and go, and a third one is pushed when `MemCache` hands out the first block
again. -/
def recycledTrace : List (Operation Nat) :=
  [Operation.push 1 0, .push 2 1, .pop, .pop, .push 3 0]

/-- The queue has the element 3 at the address 0, and `Front` refers to the address 2. -/
theorem front_outside_blocks :
    ∃ s q, Transition.run (step 1 true) (start 1 0) recycledTrace = some s ∧
      s.queue = some q ∧ s.elements = [(0, 3)] ∧ q.size_ = 1 ∧ q.held = [1, 0] ∧ q.front = 2 ∧
      ¬Correct 1 true s := by
  refine ⟨_, _, rfl, rfl, rfl, rfl, rfl, rfl, ?_⟩
  rintro ⟨q, queue, -, -, oldest⟩
  obtain rfl := Option.some.inj queue
  exact absurd (oldest (0, 3) [] rfl).1 (by decide)

end Queue

end Mcast

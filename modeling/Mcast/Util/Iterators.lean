import Mcast.Util.CircularBuffer

/-!
# The iterators of the circular buffer

The classes `Iterator` and `ConstIterator` of `CircularBuffer`.  An iterator holds a free-running
position, which is masked at every access.  Both classes have the same fields and the same prefix
operators.  The postfix increment of `Iterator` moves back by one, as its decrement does; the
postfix operators of `ConstIterator` make an `Iterator` from a pointer to a constant buffer, which
no constructor accepts, so that they cannot be used.

A traversal is the loop from `begin()` to `end()`.  It visits the slots of the elements in their
order exactly when none of its increments is a postfix one.
-/

namespace Mcast

namespace CircularBuffer

variable {T : Type*}

/-- `Iterator` and `ConstIterator`. -/
inductive Access
  | mutable
  | constant
  deriving DecidableEq, Repr

/-- The buffer is known by its address. -/
structure Iterator (access : Access) where
  index : UInt64
  buffer : Nat
  deriving DecidableEq, Repr

namespace Iterator

variable {access : Access}

/-- `operator++()`. -/
def preIncrement (it : Iterator access) : Iterator access := { it with index := it.index + 1 }

/-- `operator++(int)`: the result and the iterator behind the call. -/
def postIncrement (it : Iterator .mutable) : Iterator .mutable × Iterator .mutable :=
  (it, { it with index := it.index - 1 })

/-- `operator--()`. -/
def preDecrement (it : Iterator access) : Iterator access := { it with index := it.index - 1 }

/-- `operator--(int)`. -/
def postDecrement (it : Iterator .mutable) : Iterator .mutable × Iterator .mutable :=
  (it, { it with index := it.index - 1 })

/-- An operator before or behind the iterator. -/
inductive Form
  | pre
  | post
  deriving DecidableEq, Repr

def increment : Form → Iterator .mutable → Iterator .mutable
  | .pre, it => it.preIncrement
  | .post, it => it.postIncrement.2

def decrement : Form → Iterator .mutable → Iterator .mutable
  | .pre, it => it.preDecrement
  | .post, it => it.postDecrement.2

theorem preIncrement_offset (p : UInt64) (i address : Nat) :
    preIncrement (⟨p + UInt64.ofNat i, address⟩ : Iterator access) =
      ⟨p + UInt64.ofNat (i + 1), address⟩ := by
  rw [preIncrement, UInt64.ofNat_add, ← UInt64.add_assoc]
  rfl

/-- A decrement of either form undoes the prefix increment only. -/
theorem decrement_increment_iff (back form : Form) (it : Iterator .mutable) :
    decrement back (increment form it) = it ↔ form = .pre := by
  obtain ⟨index, buffer⟩ := it
  have undone : decrement back (increment form ⟨index, buffer⟩) =
      ⟨(increment form ⟨index, buffer⟩).index - 1, buffer⟩ := by
    cases back <;> cases form <;> rfl
  rw [undone, Iterator.mk.injEq]
  cases form with
  | pre => simp [increment, preIncrement]
  | post =>
      have moved : index - 1 - 1 ≠ index := by
        intro same
        have zero : (0 : UInt64) = 2 := by grind
        exact absurd zero (by decide)
      simpa [increment, postIncrement] using moved

end Iterator

open Iterator

/-- `begin()`, of the buffer at the address. -/
def beginIterator (b : CircularBuffer T) (address : Nat) : Iterator .mutable :=
  { index := b.begin_, buffer := address }

def endIterator (b : CircularBuffer T) (address : Nat) : Iterator .mutable :=
  { index := b.end_, buffer := address }

def cbegin (b : CircularBuffer T) (address : Nat) : Iterator .constant :=
  { index := b.begin_, buffer := address }

def cend (b : CircularBuffer T) (address : Nat) : Iterator .constant :=
  { index := b.end_, buffer := address }

/-- `for (it = first; it != last; advance)`, with the slots of `*it`.  The advances may differ from
round to round; the result is `none` when the loop has not ended after the given number of them. -/
def traverse {access : Access} (b : CircularBuffer T) (last : Iterator access) :
    Nat → (Nat → Iterator access → Iterator access) → Iterator access → Option (List UInt64)
  | 0, _, it => if it = last then some [] else none
  | n + 1, advances, it =>
      if it = last then
        some []
      else
        (b.traverse last n (fun i => advances (i + 1)) (advances 0 it)).map
          (b.getIndex it.index :: ·)

section Traversal

variable {b : CircularBuffer T} {elements : List T}

namespace Represents

/-- The positions of `begin_` on are different from `end_`. -/
theorem offset_ne_end (represents : b.Represents elements) {i : Nat}
    (inside : i < elements.length) : b.begin_ + UInt64.ofNat i ≠ b.end_ := by
  have limit : elements.length < 2 ^ 64 := represents.length ▸ UInt64.toNat_lt b.size_
  intro same
  rw [represents.end_eq] at same
  exact inside.ne (Bits.add_ofNat_inj (inside.trans limit) limit same)

/-- The slots before and behind an element are the same one in a block of two slots only. -/
theorem capacity_le_two (represents : b.Represents elements) {p : UInt64}
    (same : b.getIndex p = b.getIndex (p + UInt64.ofNat 2)) : b.capacity_.toNat ≤ 2 := by
  obtain ⟨k, small, power⟩ := represents.power
  by_contra more
  have twice : b.getIndex (p + UInt64.ofNat 0) = b.getIndex (p + UInt64.ofNat 2) := by
    rw [← same]
    simp
  exact absurd (getIndex_add_inj power small (by omega) (by omega) twice) (by decide)

/-- One round of the loop, at the element with the number `i`. -/
theorem traverse_succ {access : Access} (represents : b.Represents elements) {i : Nat}
    (inside : i < elements.length) (address n : Nat)
    (advances : Nat → Iterator access → Iterator access) :
    b.traverse ⟨b.end_, address⟩ (n + 1) advances ⟨b.begin_ + UInt64.ofNat i, address⟩ =
      (b.traverse ⟨b.end_, address⟩ n (fun j => advances (j + 1))
        (advances 0 ⟨b.begin_ + UInt64.ofNat i, address⟩)).map
          (b.getIndex (b.begin_ + UInt64.ofNat i) :: ·) := by
  rw [traverse, if_neg]
  intro same
  exact represents.offset_ne_end inside (congrArg Iterator.index same)

/-- The loop of prefix increments, from the element with the number `i` on. -/
theorem traverse_preIncrement {access : Access} (represents : b.Represents elements)
    (address : Nat) {advances : Nat → Iterator access → Iterator access} {i n : Nat}
    (all : ∀ j < n, advances j = preIncrement) (rest : i + n = elements.length) :
    b.traverse ⟨b.end_, address⟩ n advances ⟨b.begin_ + UInt64.ofNat i, address⟩ =
      some ((List.range' i n).map fun j => b.getIndex (b.begin_ + UInt64.ofNat j)) := by
  induction n generalizing i advances with
  | zero =>
      obtain rfl : i = elements.length := rest
      rw [traverse, if_pos (by rw [represents.end_eq])]
      rfl
  | succ n ih =>
      have later : ∀ j < n, advances (j + 1) = preIncrement := by
        intro j inside
        exact all (j + 1) (Nat.succ_lt_succ inside)
      rw [represents.traverse_succ (by omega), all 0 (Nat.succ_pos n), preIncrement_offset,
        ih later (by omega), List.range'_succ]
      rfl

/-- Behind a postfix increment the loop does not visit the rest of the elements and stop. -/
theorem traverse_postIncrement (represents : b.Represents elements) (address : Nat)
    {forms : Nat → Form} {i n : Nat} (rest : i + 1 + n = elements.length) :
    b.traverse ⟨b.end_, address⟩ n (fun j => increment (forms j))
        ⟨b.begin_ + UInt64.ofNat i - 1, address⟩ ≠
      some ((List.range' (i + 1) n).map fun j => b.getIndex (b.begin_ + UInt64.ofNat j)) := by
  have bound := represents.length_le
  have ahead : b.begin_ + UInt64.ofNat (i + 1) =
      b.begin_ + UInt64.ofNat i - 1 + UInt64.ofNat 2 := by
    rw [UInt64.ofNat_add, show UInt64.ofNat 2 = 1 + 1 from rfl, show UInt64.ofNat 1 = 1 from rfl]
    grind
  intro visited
  cases n with
  | zero =>
      rw [traverse] at visited
      split at visited
      · rename_i same
        have position := congrArg Iterator.index same
        rw [represents.end_eq, ← rest, Nat.add_zero, ahead] at position
        have zero : (0 : UInt64) = UInt64.ofNat 2 := by grind
        exact absurd zero (by decide)
      · cases visited
  | succ n =>
      rw [traverse] at visited
      split at visited
      · cases visited
      · rw [List.range'_succ, List.map_cons, Option.map_eq_some_iff] at visited
        obtain ⟨later, loop, visited⟩ := visited
        obtain ⟨same, rfl⟩ := List.cons.inj visited
        rw [ahead] at same
        have two := represents.capacity_le_two same
        obtain rfl : i = 0 := by omega
        obtain rfl : n = 0 := by omega
        rw [traverse] at loop
        split at loop
        · rename_i final
          have position := congrArg Iterator.index final
          rw [represents.end_eq, ← rest] at position
          cases form : forms 0 with
          | pre =>
              rw [form] at position
              simp only [increment, preIncrement] at position
              have zero : (0 : UInt64) = 2 := by grind
              exact absurd zero (by decide)
          | post =>
              rw [form] at position
              simp only [increment, postIncrement] at position
              have zero : (0 : UInt64) = 4 := by grind
              exact absurd zero (by decide)
        · cases loop

/-- The loop visits the rest of the elements and stops exactly when no increment is a postfix
one. -/
theorem traverse_increment_iff (represents : b.Represents elements) (address : Nat)
    {forms : Nat → Form} {i n : Nat} (rest : i + n = elements.length) :
    b.traverse ⟨b.end_, address⟩ n (fun j => increment (forms j))
        ⟨b.begin_ + UInt64.ofNat i, address⟩ =
      some ((List.range' i n).map fun j => b.getIndex (b.begin_ + UInt64.ofNat j)) ↔
    ∀ j < n, forms j = .pre := by
  constructor
  · intro visited
    induction n generalizing i forms with
    | zero => simp
    | succ n ih =>
        rw [represents.traverse_succ (by omega), List.range'_succ, List.map_cons,
          Option.map_eq_some_iff] at visited
        obtain ⟨later, loop, visited⟩ := visited
        obtain ⟨-, rfl⟩ := List.cons.inj visited
        cases form : forms 0 with
        | pre =>
            rw [form, increment, preIncrement_offset] at loop
            have later := ih (by omega) loop
            intro j inside
            cases j with
            | zero => exact form
            | succ j => exact later j (by omega)
        | post =>
            rw [form] at loop
            exact absurd loop (represents.traverse_postIncrement address (by omega))
  · intro all
    refine represents.traverse_preIncrement address ?_ rest
    intro j inside
    rw [all j inside]
    rfl

end Represents

end Traversal

/-- In every state that the operations reach, a loop over `begin()` to `end()` visits the slots of
the elements in their order and stops after `Size()` advances exactly when these are prefix
increments; the loop over `cbegin()` to `cend()` has no others.  A decrement undoes the prefix
increment and not the postfix one. -/
theorem traverses_iff_preIncrement {cap : UInt64} (constructed : 0 < powOfTwo cap)
    {operations : List (Operation T)} {elements : List T}
    (execution : Transition.run fifo [] operations = some elements) (address : Nat) :
    let b := operations.foldl apply (new cap)
    (b.slots.Nodup ∧ b.slots.map b.vector_ = elements.map some) ∧
      (∀ forms : Nat → Form,
        b.traverse (b.endIterator address) b.size.toNat (fun j => increment (forms j))
            (b.beginIterator address) = some b.slots ↔
          ∀ j < b.size.toNat, forms j = .pre) ∧
      b.traverse (b.cend address) b.size.toNat (fun _ => preIncrement) (b.cbegin address) =
        some b.slots ∧
      ∀ (back form : Form) (it : Iterator .mutable),
        decrement back (increment form it) = it ↔ form = .pre := by
  obtain ⟨positive, small⟩ := powOfTwo_pos_iff.mp constructed
  have represents : (operations.foldl apply (new cap)).Represents elements :=
    (Represents.new positive small).run execution
  generalize operations.foldl apply (new cap) = b at represents
  have first : b.begin_ = b.begin_ + UInt64.ofNat 0 := by simp
  have visited : b.slots =
      (List.range' 0 b.size_.toNat).map fun j => b.getIndex (b.begin_ + UInt64.ofNat j) := by
    rw [slots, List.range_eq_range']
  have all : 0 + b.size_.toNat = elements.length := by rw [Nat.zero_add, represents.length]
  refine ⟨⟨represents.nodup_slots, represents.read_slots⟩, ?_, ?_, decrement_increment_iff⟩
  · intro forms
    rw [beginIterator, first, visited]
    exact represents.traverse_increment_iff address all
  · rw [cbegin, first, visited]
    exact represents.traverse_preIncrement address (fun _ _ => rfl) all

/-- Two elements at the slots 1 and 2 of four. -/
def rotated : CircularBuffer Nat := rotatedOperations.foldl apply (new 2)

theorem traverses_iff_preIncrement_rotated :
    rotated.traverse (rotated.endIterator 0) 2 (fun _ => increment .pre)
        (rotated.beginIterator 0) = some [1, 2] ∧
      [1, 2].map rotated.vector_ = [some 3, some 4] := by
  have traverses :=
    @traverses_iff_preIncrement Nat 2 (by decide) rotatedOperations [3, 4] (by decide) 0
  exact ⟨(traverses.2.1 fun _ => .pre).mpr (fun _ _ => rfl), traverses.1.2⟩

/-- From the first element the postfix increment goes to the slot before it, where there is no
object, and a decrement moves on in the same direction. -/
theorem postIncrement_leaves_elements :
    rotated.traverse (rotated.endIterator 0) rotated.size.toNat (fun _ => increment .post)
        (rotated.beginIterator 0) ≠ some rotated.slots ∧
      rotated.get (increment .post (rotated.beginIterator 0)).index = none ∧
      decrement .pre (increment .post (rotated.beginIterator 0)) ≠ rotated.beginIterator 0 := by
  decide

end CircularBuffer

end Mcast

import Mathlib.Data.List.Nodup
import Mcast.Util.CircularBuffer

/-!
# The block queue

`src/util/Queue.h`.  The elements lie in blocks of `N` slots whose addresses a circular buffer
holds in order.  `Push` takes a new block when `end_` has reached the end of the last one, `Pop`
leaves the first block only at the call after the one that used its last slot, and `Front`
dereferences `begin_.pos` as it is.  Addresses count slots of one flat memory, so that two blocks
may lie side by side; a slot is `none` while it holds no object.  The allocator answers with any
block that is apart from the blocks held.

`Front` is therefore wrong exactly while the queue is not empty and `begin_.pos` stands at the end
of the first block, unless the next block begins at this very address.
-/

namespace Mcast

namespace Queue

structure Iterator where
  pos : Nat
  end_ : Nat
  deriving DecidableEq, Repr

/-- `Iterator(p)`. -/
def Iterator.ofBlock (N p : Nat) : Iterator :=
  { pos := p, end_ := p + N }

end Queue

structure Queue (T : Type*) where
  begin_ : Queue.Iterator
  end_ : Queue.Iterator
  map_ : CircularBuffer Nat
  size_ : Nat
  memory : Nat → Option T

namespace Queue

variable {T : Type*}

/-- The storage without the objects of `count` slots. -/
def eraseRange (memory : Nat → Option T) (first count : Nat) : Nat → Option T :=
  fun a => if first ≤ a ∧ a < first + count then none else memory a

section Model

-- `N` is `NumOfObjectsPerBlock`; `trivial` says that the destructor of `T` does nothing.  Any
-- other destructor is undefined on raw storage.
variable (N : Nat) (trivial : Bool)

/-- The constructor, with the address of its first block. -/
def new (block : Nat) : Option (Queue T) :=
  let map_ := (CircularBuffer.new 1).pushBack block
  map_.front.map fun first =>
    { begin_ := Iterator.ofBlock N first
      end_ := Iterator.ofBlock N first
      map_ := map_
      size_ := 0
      memory := fun _ => none }

def construct (q : Queue T) (x : T) : Queue T :=
  { q with
    memory := Function.update q.memory q.end_.pos (some x)
    end_ := { q.end_ with pos := q.end_.pos + 1 }
    size_ := q.size_ + 1 }

/-- Both overloads of `Push`; `block` is what `NewBlock` returns if it is called. -/
def push (q : Queue T) (x : T) (block : Nat) : Option (Queue T) :=
  if q.end_.end_ ≤ q.end_.pos then
    let map_ := q.map_.pushBack block
    map_.back.map fun last =>
      ({ q with map_ := map_, end_ := Iterator.ofBlock N last } : Queue T).construct x
  else
    some (q.construct x)

/-- The slot in which this `Push` constructs its element. -/
def slotFor (q : Queue T) (block : Nat) : Nat :=
  if q.end_.end_ ≤ q.end_.pos then block else q.end_.pos

/-- The reference that `Front` returns. -/
def front (q : Queue T) : Nat := q.begin_.pos

/-- `Destroy`. -/
def destroy (q : Queue T) (p : Nat) : Option (Queue T) :=
  if (q.memory p).isSome || trivial then
    some { q with memory := Function.update q.memory p none }
  else
    none

/-- `DeleteBlock`: the storage goes back to the allocator. -/
def deleteBlock (q : Queue T) (p : Nat) : Queue T :=
  { q with memory := eraseRange q.memory p N }

/-- The branch of `Pop` that leaves the first block. -/
def leaveBlock (q : Queue T) : Option (Queue T) :=
  q.map_.front.bind fun first =>
    let map_ := q.map_.popFront
    map_.front.map fun next =>
      { q.deleteBlock N first with map_ := map_, begin_ := Iterator.ofBlock N next }

/-- `Destroy(begin_.pos); ++begin_.pos; --size_`. -/
def popSlot (q : Queue T) : Option (Queue T) :=
  (q.destroy trivial q.begin_.pos).map fun q =>
    { q with begin_ := { q.begin_ with pos := q.begin_.pos + 1 }, size_ := q.size_ - 1 }

def pop (q : Queue T) : Option (Queue T) :=
  if q.begin_.end_ ≤ q.begin_.pos then
    (q.leaveBlock N).bind (popSlot trivial)
  else
    q.popSlot trivial

/-- The loops of `Clear` over the slots of a block, at most `fuel` of them. -/
def destroyWhile (continues : Nat → Bool) : Nat → Nat → Queue T → Option (Queue T)
  | 0, it, q => if continues it then none else some q
  | fuel + 1, it, q =>
      if continues it then
        (q.destroy trivial it).bind (destroyWhile continues fuel (it + 1))
      else
        some q

/-- The loop of `Clear` over the blocks behind the first one.  Each round destroys the elements of
one block and deletes the block before it. -/
def clearBlocks : Nat → UInt64 → Queue T → Option (Queue T)
  | 0, mapIt, q => if mapIt = q.map_.end_ then some q else none
  | fuel + 1, mapIt, q =>
      if mapIt = q.map_.end_ then
        some q
      else
        (q.map_.get mapIt).bind fun block =>
          (destroyWhile trivial (fun it => it != block + N && it != q.end_.pos) N block q).bind
            fun q => q.map_.front.bind fun first =>
              clearBlocks fuel (mapIt + 1)
                { q.deleteBlock N first with map_ := q.map_.popFront }

def clear (q : Queue T) : Option (Queue T) :=
  (destroyWhile trivial (fun it => it != q.begin_.end_) N q.begin_.pos q).bind fun q =>
    (clearBlocks N trivial q.map_.size.toNat (q.map_.begin_ + 1) q).bind fun q =>
      q.map_.front.map fun first =>
        { q with
          size_ := 0
          begin_ := Iterator.ofBlock N first
          end_ := Iterator.ofBlock N first }

end Model

/-- The addresses of the blocks held by `map_`. -/
def held (q : Queue T) : List Nat := q.map_.toList

/-- The slots of some blocks, in order. -/
def slots (N : Nat) (blocks : List Nat) : List Nat :=
  blocks.flatMap fun block => List.range' block N

section Slots

variable {N : Nat} {blocks : List Nat} {block a : Nat}

@[simp] theorem slots_nil : slots N [] = [] := rfl

@[simp] theorem slots_cons : slots N (block :: blocks) = List.range' block N ++ slots N blocks := rfl

@[simp] theorem slots_append_singleton :
    slots N (blocks ++ [block]) = slots N blocks ++ List.range' block N := by
  simp [slots]

theorem mem_slots : a ∈ slots N blocks ↔ ∃ block ∈ blocks, block ≤ a ∧ a < block + N := by
  simp [slots, List.mem_range'_1]

end Slots

/-- The state of the queue that holds the given elements, each with the address of its slot: the
slots of the blocks are the slots passed by `begin_`, the elements, and the slots from `end_` on. -/
structure Valid (N : Nat) (q : Queue T) (first : Nat) (rest : List Nat)
    (elements : List (Nat × T)) : Prop where
  map : q.map_.Represents (first :: rest)
  apart : (slots N (first :: rest)).Nodup
  beginEnd : q.begin_.end_ = first + N
  beginLow : first ≤ q.begin_.pos
  beginHigh : q.begin_.pos ≤ first + N
  endEnd : q.end_.end_ = rest.getLastD first + N
  endLow : rest.getLastD first ≤ q.end_.pos
  endHigh : q.end_.pos ≤ q.end_.end_
  layout : slots N (first :: rest) =
    List.range' first (q.begin_.pos - first) ++
      (elements.map Prod.fst ++ List.range' q.end_.pos (q.end_.end_ - q.end_.pos))
  objects : ∀ a x, q.memory a = some x ↔ (a, x) ∈ elements
  size : q.size_ = elements.length

namespace Valid

variable {N : Nat} {q : Queue T} {first : Nat} {rest : List Nat} {elements : List (Nat × T)}

/-- The first block from `begin_.pos` on, followed by the other blocks, begins with the elements. -/
theorem layout_from_begin (valid : Valid N q first rest elements) :
    List.range' q.begin_.pos (first + N - q.begin_.pos) ++ slots N rest =
      elements.map Prod.fst ++ List.range' q.end_.pos (q.end_.end_ - q.end_.pos) := by
  have low := valid.beginLow
  have high := valid.beginHigh
  have split : List.range' first N = List.range' first (q.begin_.pos - first) ++
      List.range' q.begin_.pos (first + N - q.begin_.pos) := by
    have := @List.range'_append_1 first (q.begin_.pos - first) (first + N - q.begin_.pos)
    rw [show first + (q.begin_.pos - first) = q.begin_.pos by omega,
      show q.begin_.pos - first + (first + N - q.begin_.pos) = N by omega] at this
    exact this.symm
  have layout := valid.layout
  rw [slots_cons, split, List.append_assoc] at layout
  exact List.append_cancel_left layout

/-- An address of a slot belongs to an element unless the slot is passed or still free. -/
theorem mem_addresses_iff (valid : Valid N q first rest elements) (a : Nat) :
    a ∈ elements.map Prod.fst ↔ a ∈ slots N (first :: rest) ∧
      ¬(first ≤ a ∧ a < q.begin_.pos) ∧ ¬(q.end_.pos ≤ a ∧ a < q.end_.end_) := by
  have low := valid.beginLow
  have high := valid.endHigh
  have apart := valid.apart
  rw [valid.layout] at apart ⊢
  obtain ⟨-, behind, passed⟩ := List.nodup_append'.mp apart
  obtain ⟨-, -, free⟩ := List.nodup_append'.mp behind
  simp only [List.mem_append, List.mem_range'_1]
  constructor
  · intro element
    refine ⟨Or.inr (Or.inl element), ?_, ?_⟩
    · intro inside
      exact passed (List.mem_range'_1.mpr (by omega)) (List.mem_append_left _ element)
    · intro inside
      exact free element (List.mem_range'_1.mpr (by omega))
  · rintro ⟨inside | element | inside, unpassed, used⟩
    · omega
    · exact element
    · omega

theorem held_eq (valid : Valid N q first rest elements) : q.held = first :: rest :=
  valid.map.toList_eq

theorem nodup_addresses (valid : Valid N q first rest elements) :
    (elements.map Prod.fst).Nodup := by
  have apart := valid.apart
  rw [valid.layout] at apart
  exact (List.nodup_append'.mp (List.nodup_append'.mp apart).2.1).1

/-- The storage holds an object exactly at the addresses of the elements. -/
theorem isSome_memory_iff (valid : Valid N q first rest elements) (a : Nat) :
    (q.memory a).isSome = true ↔ a ∈ elements.map Prod.fst := by
  rw [Option.isSome_iff_exists, List.mem_map]
  constructor
  · rintro ⟨x, held⟩
    exact ⟨(a, x), (valid.objects a x).mp held, rfl⟩
  · rintro ⟨⟨b, x⟩, element, rfl⟩
    exact ⟨x, (valid.objects b x).mpr element⟩

/-- An empty queue at the start of its only block. -/
theorem single {block : Nat} (map : q.map_.Represents [block])
    (begins : q.begin_ = Iterator.ofBlock N block) (ends : q.end_ = Iterator.ofBlock N block)
    (size : q.size_ = 0) (raw : ∀ a, q.memory a = none) : Valid N q block [] [] where
  map := map
  apart := by simp [List.nodup_range']
  beginEnd := by rw [begins]; rfl
  beginLow := by rw [begins]; exact le_rfl
  beginHigh := by rw [begins]; exact Nat.le_add_right _ _
  endEnd := by rw [ends]; rfl
  endLow := by rw [ends]; exact le_rfl
  endHigh := by rw [ends]; exact Nat.le_add_right _ _
  layout := by simp [begins, ends, Iterator.ofBlock]
  objects := by simp [raw]
  size := size

theorem new (N : Nat) (block : Nat) :
    ∃ q : Queue T, Queue.new N block = some q ∧ Valid N q block [] [] := by
  have map : ((CircularBuffer.new 1).pushBack block).Represents [block] :=
    (CircularBuffer.Represents.new (by decide) (by decide)).pushBack (by decide) block
  refine ⟨_, by rw [Queue.new, map.front_eq]; rfl, ?_⟩
  exact single map rfl rfl rfl fun _ => rfl

/-- A new object in the slot of `end_`. -/
theorem construct (valid : Valid N q first rest elements) (room : q.end_.pos < q.end_.end_)
    (x : T) : Valid N (q.construct x) first rest (elements ++ [(q.end_.pos, x)]) where
  map := valid.map
  apart := valid.apart
  beginEnd := valid.beginEnd
  beginLow := valid.beginLow
  beginHigh := valid.beginHigh
  endEnd := valid.endEnd
  endLow := valid.endLow.trans (Nat.le_succ _)
  endHigh := room
  layout := by
    obtain ⟨free, split⟩ : ∃ free, q.end_.end_ - q.end_.pos = free + 1 :=
      ⟨q.end_.end_ - q.end_.pos - 1, by omega⟩
    have less : q.end_.end_ - (q.end_.pos + 1) = free := by omega
    rw [valid.layout, split, List.range'_succ]
    simp [Queue.construct, less]
  objects := by
    intro a y
    have raw : ∀ z, (q.end_.pos, z) ∉ elements := by
      intro z element
      have address := List.mem_map_of_mem (f := Prod.fst) element
      exact ((valid.mem_addresses_iff _).mp address).2.2 ⟨le_rfl, room⟩
    rw [List.mem_append, List.mem_singleton, ← valid.objects, Prod.mk.injEq]
    change Function.update q.memory q.end_.pos (some x) a = some y ↔ _
    by_cases here : a = q.end_.pos
    · subst here
      simp [valid.objects, raw, eq_comm]
    · simp [here]
  size := by simp [Queue.construct, valid.size]

/-- A new block behind the last one, when that is used up. -/
theorem addBlock (valid : Valid N q first rest elements) (full : q.end_.end_ ≤ q.end_.pos)
    (few : (first :: rest).length < 2 ^ 63) {block : Nat}
    (fresh : ∀ b ∈ first :: rest, block + N ≤ b ∨ b + N ≤ block) :
    Valid N { q with map_ := q.map_.pushBack block, end_ := Iterator.ofBlock N block } first
      (rest ++ [block]) elements where
  map := valid.map.pushBack few block
  apart := by
    rw [← List.cons_append, slots_append_singleton, List.nodup_append']
    refine ⟨valid.apart, List.nodup_range', ?_⟩
    intro a old new
    obtain ⟨b, member, inside⟩ := mem_slots.mp old
    have := fresh b member
    rw [List.mem_range'_1] at new
    omega
  beginEnd := valid.beginEnd
  beginLow := valid.beginLow
  beginHigh := valid.beginHigh
  endEnd := by simp [Iterator.ofBlock]
  endLow := by simp [Iterator.ofBlock]
  endHigh := Nat.le_add_right _ _
  layout := by
    have used : q.end_.end_ - q.end_.pos = 0 := by omega
    rw [← List.cons_append, slots_append_singleton, valid.layout, used]
    simp [Iterator.ofBlock]
  objects := valid.objects
  size := valid.size

/-- `Push` appends an element in a slot of its own. -/
theorem push (valid : Valid N q first rest elements) (positive : 0 < N) (x : T) {block : Nat}
    (answer : q.end_.end_ ≤ q.end_.pos → (first :: rest).length < 2 ^ 63 ∧
      ∀ b ∈ first :: rest, block + N ≤ b ∨ b + N ≤ block) :
    ∃ q' rest', q.push N x block = some q' ∧
      Valid N q' first rest' (elements ++ [(q.slotFor block, x)]) := by
  rw [Queue.push, slotFor]
  split
  · rename_i full
    obtain ⟨few, fresh⟩ := answer full
    have added := valid.addBlock full few fresh
    have last : (q.map_.pushBack block).back = some block := by
      rw [(valid.map.pushBack few block).back_eq]
      exact List.getLast?_concat
    simp only [last, Option.map_some]
    exact ⟨_, _, rfl, added.construct (by simpa [Iterator.ofBlock] using positive) x⟩
  · rename_i room
    exact ⟨_, _, rfl, valid.construct (by omega) x⟩

/-- While `begin_.pos` is inside the first block, the oldest element is there. -/
theorem oldest_inside {e : Nat × T} (valid : Valid N q first rest (e :: elements))
    (inside : q.begin_.pos < first + N) : e.1 = q.begin_.pos := by
  obtain ⟨left, split⟩ : ∃ left, first + N - q.begin_.pos = left + 1 :=
    ⟨first + N - q.begin_.pos - 1, by omega⟩
  have layout := valid.layout_from_begin
  rw [split, List.range'_succ] at layout
  exact (List.cons.inj layout).1.symm

/-- At the end of the first block, it is at the start of the next one. -/
theorem oldest_behind {e : Nat × T} (valid : Valid N q first rest (e :: elements))
    (positive : 0 < N) (boundary : q.begin_.pos = first + N) : rest.head? = some e.1 := by
  have layout := valid.layout_from_begin
  rw [boundary, Nat.sub_self] at layout
  obtain ⟨n, rfl⟩ : ∃ n, N = n + 1 := ⟨N - 1, by omega⟩
  cases rest with
  | nil => simp at layout
  | cons second rest =>
      rw [slots_cons, List.range'_succ] at layout
      have same : second = e.1 := (List.cons.inj layout).1
      rw [List.head?_cons, same]

/-- The element that `Pop` destroys inside the first block is the oldest one. -/
theorem popSlot {e : Nat × T} (valid : Valid N q first rest (e :: elements))
    (inside : q.begin_.pos < first + N) (trivial : Bool) :
    ∃ q', q.popSlot trivial = some q' ∧ q'.memory e.1 = none ∧ Valid N q' first rest elements := by
  obtain ⟨a, x⟩ := e
  obtain rfl : a = q.begin_.pos := valid.oldest_inside inside
  have live : q.memory q.begin_.pos = some x := (valid.objects _ x).mpr List.mem_cons_self
  have low := valid.beginLow
  have distinct := valid.nodup_addresses
  rw [List.map_cons, List.nodup_cons] at distinct
  refine ⟨_, by simp only [Queue.popSlot, destroy, live]; rfl, ?_, ?_⟩
  · simp
  · exact {
      map := valid.map
      apart := valid.apart
      beginEnd := valid.beginEnd
      beginLow := low.trans (Nat.le_succ _)
      beginHigh := inside
      endEnd := valid.endEnd
      endLow := valid.endLow
      endHigh := valid.endHigh
      layout := by
        have passed : List.range' first (q.begin_.pos + 1 - first) =
            List.range' first (q.begin_.pos - first) ++ [q.begin_.pos] := by
          rw [show q.begin_.pos + 1 - first = q.begin_.pos - first + 1 by omega,
            List.range'_1_concat, show first + (q.begin_.pos - first) = q.begin_.pos by omega]
        rw [valid.layout, passed]
        simp
      objects := by
        intro a y
        change Function.update q.memory q.begin_.pos none a = some y ↔ _
        by_cases here : a = q.begin_.pos
        · subst here
          have gone : (q.begin_.pos, y) ∉ elements := by
            intro element
            exact distinct.1 (List.mem_map.mpr ⟨_, element, rfl⟩)
          simp [gone]
        · simp [here, valid.objects]
      size := by simp [valid.size] }

/-- At the end of the first block, `Pop` goes on to the next one. -/
theorem leaveBlock {e : Nat × T} (valid : Valid N q first rest (e :: elements))
    (positive : 0 < N) (boundary : q.begin_.pos = first + N) :
    ∃ q' second rest', q.leaveBlock N = some q' ∧ q'.begin_.pos = second ∧
      Valid N q' second rest' (e :: elements) := by
  have behind := valid.oldest_behind positive boundary
  have layout := valid.layout_from_begin
  have apart := valid.apart
  rw [boundary, Nat.sub_self] at layout
  cases rest with
  | nil => cases behind
  | cons second rest =>
      have front : q.map_.front = some first := valid.map.front_eq
      have popped : q.map_.popFront.Represents (second :: rest) := valid.map.popFront
      have next : q.map_.popFront.front = some second := popped.front_eq
      refine ⟨_, second, rest, by simp only [Queue.leaveBlock, front, Option.bind_some, next]; rfl,
        rfl, ?_⟩
      rw [slots_cons, List.nodup_append'] at apart
      exact {
        map := popped
        apart := apart.2.1
        beginEnd := rfl
        beginLow := le_rfl
        beginHigh := Nat.le_add_right _ _
        endEnd := by
          rw [← List.getLastD_cons]
          exact valid.endEnd
        endLow := by
          rw [← List.getLastD_cons]
          exact valid.endLow
        endHigh := valid.endHigh
        layout := by simpa [Iterator.ofBlock, deleteBlock] using layout
        objects := by
          intro a x
          rw [← valid.objects]
          change eraseRange q.memory first N a = some x ↔ _
          rw [eraseRange]
          split
          · rename_i inside
            have raw : q.memory a ≠ some x := by
              intro held
              have address := List.mem_map_of_mem (f := Prod.fst) ((valid.objects a x).mp held)
              exact ((valid.mem_addresses_iff a).mp address).2.1 (by rw [boundary]; exact inside)
            simp [raw]
          · rfl
        size := valid.size }

/-- `Pop` destroys the oldest element and keeps the others. -/
theorem pop {e : Nat × T} (valid : Valid N q first rest (e :: elements)) (positive : 0 < N)
    (trivial : Bool) :
    ∃ q' first' rest', q.pop N trivial = some q' ∧ q'.memory e.1 = none ∧
      Valid N q' first' rest' elements := by
  rw [Queue.pop]
  split
  · rename_i reached
    have high := valid.beginHigh
    rw [valid.beginEnd] at reached
    obtain ⟨q₁, second, rest₁, left, start, valid₁⟩ :=
      valid.leaveBlock positive (by omega)
    obtain ⟨q₂, popped, gone, valid₂⟩ := valid₁.popSlot (by omega) trivial
    exact ⟨q₂, second, rest₁, by rw [left]; exact popped, gone, valid₂⟩
  · rename_i inside
    rw [valid.beginEnd] at inside
    obtain ⟨q₁, popped, gone, valid₁⟩ := valid.popSlot (by omega) trivial
    exact ⟨q₁, first, rest, popped, gone, valid₁⟩

end Valid

section Clear

variable {N : Nat} {q : Queue T}

theorem destroy_of_live {trivial : Bool} {p : Nat}
    (live : trivial = true ∨ (q.memory p).isSome = true) :
    q.destroy trivial p = some { q with memory := Function.update q.memory p none } := by
  rw [destroy, if_pos (by rw [Bool.or_eq_true]; exact live.symm)]

theorem eraseRange_succ (memory : Nat → Option T) (it m : Nat) :
    eraseRange (Function.update memory it none) (it + 1) m = eraseRange memory it (m + 1) := by
  funext a
  by_cases here : a = it
  · subst here
    simp [eraseRange]
  · simp only [eraseRange, Function.update_of_ne here]
    congr 1
    apply propext
    omega

/-- A loop over `m` slots that hold objects destroys them. -/
theorem destroyWhile_of_live {trivial : Bool} {continues : Nat → Bool} {m fuel it : Nat}
    (enough : m ≤ fuel) (on : ∀ k < m, continues (it + k) = true)
    (off : continues (it + m) = false)
    (live : trivial = true ∨ ∀ k < m, (q.memory (it + k)).isSome = true) :
    destroyWhile trivial continues fuel it q =
      some { q with memory := eraseRange q.memory it m } := by
  induction m generalizing fuel it q with
  | zero =>
      have same : eraseRange q.memory it 0 = q.memory := by
        funext a
        rw [eraseRange, if_neg (by omega)]
      rw [Nat.add_zero] at off
      cases fuel <;> simp [destroyWhile, off, same]
  | succ m ih =>
      obtain ⟨fuel, rfl⟩ : ∃ n, fuel = n + 1 := ⟨fuel - 1, by omega⟩
      have first : continues it = true := on 0 (by omega)
      have next : trivial = true ∨ ∀ k < m,
          (Function.update q.memory it none (it + 1 + k)).isSome = true := by
        apply live.imp_right
        intro all k inside
        rw [Function.update_of_ne (by omega), show it + 1 + k = it + (k + 1) by omega]
        exact all (k + 1) (by omega)
      have object : trivial = true ∨ (q.memory it).isSome = true :=
        live.imp_right fun all => all 0 (by omega)
      rw [destroyWhile, if_pos first, destroy_of_live object, Option.bind_some, ih (by omega)
          (fun k inside => by rw [show it + 1 + k = it + (k + 1) by omega]; exact on _ (by omega))
          (by rw [show it + 1 + m = it + (m + 1) by omega]; exact off) next, eraseRange_succ]

/-- A loop that comes to a raw slot is undefined, unless the destructor is trivial. -/
theorem destroyWhile_of_raw {continues : Nat → Bool} {k fuel it : Nat}
    (enough : k < fuel) (on : ∀ j ≤ k, continues (it + j) = true)
    (raw : q.memory (it + k) = none) :
    destroyWhile false continues fuel it q = none := by
  induction k generalizing fuel it q with
  | zero =>
      obtain ⟨fuel, rfl⟩ : ∃ n, fuel = n + 1 := ⟨fuel - 1, by omega⟩
      have first : continues it = true := on 0 le_rfl
      rw [Nat.add_zero] at raw
      simp [destroyWhile, first, destroy, raw]
  | succ k ih =>
      obtain ⟨fuel, rfl⟩ : ∃ n, fuel = n + 1 := ⟨fuel - 1, by omega⟩
      have first : continues it = true := on 0 (by omega)
      rw [destroyWhile, if_pos first, destroy]
      split
      · rw [Option.bind_some]
        apply ih (by omega)
        · intro j inside
          rw [show it + 1 + j = it + (j + 1) by omega]
          exact on _ (by omega)
        · change Function.update q.memory it none (it + 1 + k) = none
          rw [Function.update_of_ne (by omega), show it + 1 + k = it + (k + 1) by omega]
          exact raw
      · rfl

/-- The state at the head of the loop over the blocks: the objects left are the elements of the
blocks behind the first one, apart from what the first block may still hold. -/
structure Sweep (N : Nat) (q : Queue T) (first : Nat) (rest : List Nat) : Prop where
  map : q.map_.Represents (first :: rest)
  apart : (slots N (first :: rest)).Nodup
  endLow : rest.getLastD first ≤ q.end_.pos
  endHigh : q.end_.pos ≤ rest.getLastD first + N
  live : ∀ a, ¬(first ≤ a ∧ a < first + N) →
    ((q.memory a).isSome = true ↔
      a ∈ slots N rest ∧ ¬(q.end_.pos ≤ a ∧ a < rest.getLastD first + N))
  settled : rest = [] → ∀ a, q.memory a = none

/-- How many slots of a block the inner loop visits. -/
def visited (N : Nat) (q : Queue T) (block : Nat) : Nat :=
  if block ≤ q.end_.pos ∧ q.end_.pos < block + N then q.end_.pos - block else N

theorem visited_le (N : Nat) (q : Queue T) (block : Nat) : visited N q block ≤ N := by
  rw [visited]
  split <;> omega

theorem visited_on {block k : Nat} (inside : k < visited N q block) :
    (block + k != block + N && block + k != q.end_.pos) = true := by
  rw [visited] at inside
  simp only [Bool.and_eq_true, bne_iff_ne]
  split at inside <;> omega

theorem visited_off {block : Nat} :
    (block + visited N q block != block + N && block + visited N q block != q.end_.pos) =
      false := by
  simp only [Bool.and_eq_false_iff, bne_eq_false_iff_eq, visited]
  split
  · right
    omega
  · left
    rfl

theorem mem_slots_getLastD {first a : Nat} {rest : List Nat} (more : rest ≠ [])
    (inside : rest.getLastD first ≤ a ∧ a < rest.getLastD first + N) : a ∈ slots N rest := by
  refine mem_slots.mpr ⟨rest.getLastD first, ?_, inside⟩
  rw [List.getLastD_eq_getLast?, List.getLast?_eq_some_getLast more]
  exact List.getLast_mem more

namespace Sweep

variable {first block : Nat} {rest : List Nat}

/-- The slots that the inner loop visits hold objects. -/
theorem live_visited (sweep : Sweep N q first (block :: rest)) :
    ∀ k < visited N q block, (q.memory (block + k)).isSome = true := by
  intro k inside
  have count := visited_le N q block
  have apart := sweep.apart
  rw [slots_cons, slots_cons, List.nodup_append', List.nodup_append'] at apart
  obtain ⟨-, ⟨-, -, others⟩, front⟩ := apart
  have member : block + k ∈ List.range' block N := List.mem_range'_1.mpr (by omega)
  have outside : ¬(first ≤ block + k ∧ block + k < first + N) := by
    intro within
    exact front (List.mem_range'_1.mpr within) (List.mem_append_left _ member)
  rw [sweep.live _ outside]
  refine ⟨List.mem_append_left _ member, ?_⟩
  intro free
  have low := sweep.endLow
  rw [List.getLastD_cons] at free low
  rcases eq_or_ne rest [] with rfl | more
  · simp only [List.getLastD_nil] at free low
    rw [visited] at inside
    split at inside <;> omega
  · have inLast : rest.getLastD block ≤ block + k ∧ block + k < rest.getLastD block + N := by
      omega
    exact others member (mem_slots_getLastD more inLast)

theorem destroyed (sweep : Sweep N q first (block :: rest)) (trivial : Bool) :
    destroyWhile trivial (fun it => it != block + N && it != q.end_.pos) N block q =
      some { q with memory := eraseRange q.memory block (visited N q block) } := by
  exact destroyWhile_of_live (visited_le N q block) (fun k inside => visited_on inside) visited_off
    (Or.inr sweep.live_visited)

/-- One round of the loop. -/
theorem step (sweep : Sweep N q first (block :: rest)) :
    Sweep N
      { q with
        memory := eraseRange (eraseRange q.memory block (visited N q block)) first N
        map_ := q.map_.popFront } block rest := by
  have apart := sweep.apart
  have low := sweep.endLow
  have high := sweep.endHigh
  rw [List.getLastD_cons] at low high
  rw [slots_cons, List.nodup_append'] at apart
  have front := apart.2.2
  have others := (List.nodup_append'.mp apart.2.1).2.2
  refine {
    map := sweep.map.popFront
    apart := apart.2.1
    endLow := low
    endHigh := high
    live := ?_
    settled := ?_ }
  · intro a outside
    have kept : eraseRange q.memory block (visited N q block) a = q.memory a := by
      have count := visited_le N q block
      rw [eraseRange, if_neg (by omega)]
    change (eraseRange _ first N a).isSome = true ↔ _
    rw [eraseRange]
    split
    · rename_i inside
      have absent : a ∉ slots N rest := by
        intro member
        exact front (List.mem_range'_1.mpr inside) (List.mem_append_right _ member)
      simp [absent]
    · rename_i other
      rw [kept, sweep.live a other, List.getLastD_cons, slots_cons, List.mem_append,
        List.mem_range'_1]
      constructor
      · rintro ⟨here | later, used⟩
        · exact absurd here outside
        · exact ⟨later, used⟩
      · rintro ⟨later, used⟩
        exact ⟨Or.inr later, used⟩
  · rintro rfl a
    change eraseRange (eraseRange q.memory block (visited N q block)) first N a = none
    rw [eraseRange, eraseRange]
    split
    · rfl
    · rename_i other
      split
      · rfl
      · rename_i unvisited
        have raw : ¬(q.memory a).isSome = true := by
          rw [sweep.live a other]
          rintro ⟨member, used⟩
          simp only [slots_cons, slots_nil, List.append_nil, List.mem_range'_1,
            List.getLastD_cons, List.getLastD_nil] at member used low high
          rw [visited] at unvisited
          split at unvisited <;> omega
        simpa using raw

/-- While there is another block, the loop goes on. -/
theorem begin_succ_ne_end (sweep : Sweep N q first (block :: rest)) :
    q.map_.begin_ + 1 ≠ q.map_.end_ := by
  intro same
  have limit := sweep.map.length_le.trans_lt (UInt64.toNat_lt _)
  rw [sweep.map.end_eq, UInt64.add_right_inj] at same
  have counts := congrArg UInt64.toNat same
  rw [UInt64.toNat_ofNat_of_lt' limit] at counts
  simp at counts

/-- The loop ends with the last block, which holds no object. -/
theorem clearBlocks (sweep : Sweep N q first rest) (trivial : Bool) {fuel : Nat}
    (enough : rest.length ≤ fuel) :
    ∃ q', Queue.clearBlocks N trivial fuel (q.map_.begin_ + 1) q = some q' ∧
      q'.map_.Represents [rest.getLastD first] ∧ ∀ a, q'.memory a = none := by
  induction rest generalizing q first fuel with
  | nil =>
      have atEnd : q.map_.begin_ + 1 = q.map_.end_ := sweep.map.end_eq.symm
      refine ⟨q, ?_, sweep.map, sweep.settled rfl⟩
      cases fuel <;> simp [Queue.clearBlocks, atEnd]
  | cons block rest ih =>
      obtain ⟨fuel, rfl⟩ : ∃ n, fuel = n + 1 := ⟨fuel - 1, by simp at enough; omega⟩
      have notEnd := sweep.begin_succ_ne_end
      have current : q.map_.get (q.map_.begin_ + 1) = some block := sweep.map.holds 1 (by simp)
      have front : q.map_.front = some first := sweep.map.front_eq
      obtain ⟨q', swept, map, raw⟩ := ih sweep.step (Nat.le_of_succ_le_succ enough)
      refine ⟨q', ?_, by rwa [List.getLastD_cons], raw⟩
      rw [Queue.clearBlocks, if_neg notEnd, current, Option.bind_some, sweep.destroyed trivial,
        Option.bind_some]
      simp only [front, Option.bind_some]
      exact swept

end Sweep

namespace Valid

variable {first : Nat} {rest : List Nat} {elements : List (Nat × T)}

/-- The part of the first block that the first loop of `Clear` visits holds elements only, unless
the block is the only one and has free slots. -/
theorem live_first (valid : Valid N q first rest elements)
    (used : rest ≠ [] ∨ q.end_.pos = q.end_.end_) :
    ∀ k < first + N - q.begin_.pos, (q.memory (q.begin_.pos + k)).isSome = true := by
  intro k inside
  have low := valid.beginLow
  have member : q.begin_.pos + k ∈ List.range' first N := List.mem_range'_1.mpr (by omega)
  rw [valid.isSome_memory_iff, valid.mem_addresses_iff]
  refine ⟨List.mem_append_left _ member, by omega, ?_⟩
  intro free
  rcases used with more | full
  · have apart := valid.apart
    rw [slots_cons, List.nodup_append'] at apart
    have last := valid.endLow
    rw [valid.endEnd] at free
    exact apart.2.2 member (mem_slots_getLastD more ⟨last.trans free.1, free.2⟩)
  · omega

/-- After the first loop of `Clear`. -/
theorem sweep (valid : Valid N q first rest elements) :
    Sweep N
      { q with memory := eraseRange q.memory q.begin_.pos (first + N - q.begin_.pos) }
      first rest := by
  have low := valid.beginLow
  have high := valid.beginHigh
  have ends := valid.endEnd
  refine {
    map := valid.map
    apart := valid.apart
    endLow := valid.endLow
    endHigh := valid.endEnd ▸ valid.endHigh
    live := ?_
    settled := ?_ }
  · intro a outside
    change (eraseRange q.memory _ _ a).isSome = true ↔ _
    rw [eraseRange, if_neg (by omega), valid.isSome_memory_iff, valid.mem_addresses_iff, ends,
      slots_cons, List.mem_append, List.mem_range'_1]
    constructor
    · rintro ⟨here | behind, -, used⟩
      · exact absurd here outside
      · exact ⟨behind, used⟩
    · rintro ⟨behind, used⟩
      exact ⟨Or.inr behind, by omega, used⟩
  · rintro rfl a
    change eraseRange q.memory q.begin_.pos _ a = none
    rw [eraseRange]
    split
    · rfl
    · rename_i unvisited
      have raw : ¬(q.memory a).isSome = true := by
        rw [valid.isSome_memory_iff, valid.mem_addresses_iff]
        rintro ⟨member, unpassed, -⟩
        simp only [slots_cons, slots_nil, List.append_nil, List.mem_range'_1] at member
        omega
      simpa using raw

/-- The first loop of `Clear`. -/
theorem destroyed_first (valid : Valid N q first rest elements) {trivial : Bool}
    (used : trivial = true ∨ rest ≠ [] ∨ q.end_.pos = q.end_.end_) :
    destroyWhile trivial (fun it => it != q.begin_.end_) N q.begin_.pos q =
      some { q with memory := eraseRange q.memory q.begin_.pos (first + N - q.begin_.pos) } := by
  have low := valid.beginLow
  have high := valid.beginHigh
  have ends := valid.beginEnd
  apply destroyWhile_of_live (by omega)
  · intro k inside
    rw [bne_iff_ne]
    omega
  · rw [bne_eq_false_iff_eq]
    omega
  · exact used.imp_right valid.live_first

/-- `Clear` leaves the empty queue in the last block. -/
theorem clear_of_live (valid : Valid N q first rest elements) {trivial : Bool}
    (used : trivial = true ∨ rest ≠ [] ∨ q.end_.pos = q.end_.end_) :
    ∃ q', q.clear N trivial = some q' ∧ Valid N q' (rest.getLastD first) [] [] := by
  have rounds : rest.length ≤ q.map_.size.toNat := by
    rw [CircularBuffer.size, valid.map.length]
    exact Nat.le_succ _
  obtain ⟨q', swept, map, raw⟩ := valid.sweep.clearBlocks trivial rounds
  have front : q'.map_.front = some (rest.getLastD first) := map.front_eq
  let block := Iterator.ofBlock N (rest.getLastD first)
  refine ⟨{ q' with size_ := 0, begin_ := block, end_ := block }, ?_, single map rfl rfl rfl raw⟩
  rw [Queue.clear, valid.destroyed_first used, Option.bind_some]
  change (Queue.clearBlocks N trivial q.map_.size.toNat (q.map_.begin_ + 1) _).bind _ = _
  rw [swept, Option.bind_some, front, Option.map_some]

/-- The slot of `end_` is raw. -/
theorem raw_end (valid : Valid N q first rest elements) (room : q.end_.pos < q.end_.end_) :
    q.memory q.end_.pos = none := by
  rw [← Option.not_isSome_iff_eq_none, valid.isSome_memory_iff, valid.mem_addresses_iff]
  rintro ⟨-, -, used⟩
  exact used ⟨le_rfl, room⟩

/-- In an only block. -/
theorem begin_le_end (valid : Valid N q first [] elements) : q.begin_.pos ≤ q.end_.pos := by
  have lengths := congrArg List.length valid.layout
  have low := valid.beginLow
  have endEnd : q.end_.end_ = first + N := valid.endEnd
  have endLow : first ≤ q.end_.pos := valid.endLow
  have endHigh := valid.endHigh
  simp at lengths
  omega

/-- `Clear` runs the destructor on the free slots of an only block. -/
theorem clear_of_raw (valid : Valid N q first [] elements) (free : q.end_.pos ≠ q.end_.end_) :
    q.clear N false = none := by
  have low := valid.beginLow
  have ends := valid.beginEnd
  have endEnd : q.end_.end_ = first + N := valid.endEnd
  have endLow : first ≤ q.end_.pos := valid.endLow
  have endHigh := valid.endHigh
  have order := valid.begin_le_end
  have raw : q.memory (q.begin_.pos + (q.end_.pos - q.begin_.pos)) = none := by
    rw [Nat.add_sub_cancel' order]
    exact valid.raw_end (by omega)
  have undefined :
      destroyWhile false (fun it => it != q.begin_.end_) N q.begin_.pos q = none := by
    apply destroyWhile_of_raw _ _ raw
    · omega
    · intro j inside
      rw [bne_iff_ne]
      omega
  rw [Queue.clear, undefined]
  rfl

end Valid

end Clear

end Queue

end Mcast

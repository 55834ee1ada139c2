import Mathlib.Data.List.Basic
import Mathlib.Logic.Equiv.Basic
import Mathlib.Logic.Function.Basic
import Mcast.Net.Connection
import Mcast.Transition

/-!
# Status objects and their buffers

`src/util/Status.h`.  A status other than OK owns a buffer that holds the state in its first byte,
the length of the text in the second one, and the text; a copy allocates as many bytes as the
second byte says.  The model has the heap of the buffers and the pointers `state_` of the objects;
an access or a `delete[]` outside an allocated buffer is undefined.  `Status` itself is what an
object stands for, and the operations on these values say what the copies, moves and swaps are
meant to do.

The length goes through one byte, so that an object stands for its text exactly when the text has
at most 255 bytes.
-/

namespace Mcast

namespace Status

/-- The number of the state in `enum State`. -/
def State.code : State → UInt8
  | .invailArgument => 1
  | .notFound => 2
  | .failed => 3
  | .interrupt => 4
  | .eof => 5
  | .again => 6

def code : Status → UInt8
  | .ok => 0
  | .error state _ => state.code

/-- An operation on objects that the program names. -/
inductive Operation (Object : Type*)
  /-- `Status()`. -/
  | default (x : Object)
  /-- `Status(s, msg)`. -/
  | construct (x : Object) (state : State) (text : Bytes)
  | copyConstruct (x y : Object)
  | moveConstruct (x y : Object)
  | copyAssign (x y : Object)
  | moveAssign (x y : Object)
  | swap (x y : Object)
  /-- `~Status()`. -/
  | destroy (x : Object)
  deriving DecidableEq, Repr

/-! ## What the operations mean -/

section Values

variable {Object : Type*} [DecidableEq Object]

/-- The values of the objects after an operation; a move into another object leaves OK behind.  An
object is constructed where there is none and used where there is one. -/
def specify (values : Object → Option Status) : Operation Object → Option (Object → Option Status)
  | .default x =>
      if values x = none then some (Function.update values x (some .ok)) else none
  | .construct x state text =>
      if values x = none then some (Function.update values x (some (.error state text))) else none
  | .copyConstruct x y =>
      if values x = none ∧ values y ≠ none then some (Function.update values x (values y)) else none
  | .moveConstruct x y =>
      if values x = none ∧ values y ≠ none then
        some (Function.update (Function.update values x (values y)) y (some .ok))
      else none
  | .copyAssign x y =>
      if values x ≠ none ∧ values y ≠ none then some (Function.update values x (values y)) else none
  | .moveAssign x y =>
      if values x ≠ none ∧ values y ≠ none then
        if x = y then some values
        else some (Function.update (Function.update values x (values y)) y (some .ok))
      else none
  | .swap x y =>
      if values x ≠ none ∧ values y ≠ none then
        some (Function.update (Function.update values x (values y)) y (values x))
      else none
  | .destroy x =>
      if values x ≠ none then some (Function.update values x none) else none

end Values

/-! ## The objects in memory -/

/-- The allocated buffers, and the pointer `state_` of every object. -/
structure Memory (Object : Type*) where
  heap : Nat → Option Bytes
  nextBuffer : Nat
  objects : Object → Option (Option Nat)

namespace Memory

variable {Object : Type*}

def start : Memory Object where
  heap _ := none
  nextBuffer := 0
  objects _ := none

/-- `StateValue` of an object with this pointer. -/
def stateValue (m : Memory Object) : Option Nat → Option UInt8
  | none => some 0
  | some p => (m.heap p).bind fun buffer => buffer[0]?

/-- `ErrorTextSize`. -/
def errorTextSize (m : Memory Object) (p : Nat) : Option UInt8 :=
  (m.heap p).bind fun buffer => buffer[1]?

/-- The first bytes of a buffer. -/
def read (m : Memory Object) (p count : Nat) : Option Bytes :=
  (m.heap p).bind fun buffer => if count ≤ buffer.length then some (buffer.take count) else none

/-- `ErrorText` of an object with this pointer. -/
def errorText (m : Memory Object) : Option Nat → Option Bytes
  | none => some []
  | some p =>
      (m.errorTextSize p).bind fun size =>
        if size = 0 then some []
        else (m.read p (size.toNat + 2)).map fun buffer => buffer.drop 2

section Operations

variable [DecidableEq Object]

def setPointer (m : Memory Object) (x : Object) (pointer : Option (Option Nat)) : Memory Object :=
  { m with objects := Function.update m.objects x pointer }

/-- `state_ = new char[size]`, filled. -/
def allocate (m : Memory Object) (x : Object) (buffer : Bytes) : Memory Object :=
  { heap := Function.update m.heap m.nextBuffer (some buffer)
    nextBuffer := m.nextBuffer + 1
    objects := Function.update m.objects x (some (some m.nextBuffer)) }

/-- `delete[]`. -/
def delete (m : Memory Object) : Option Nat → Option (Memory Object)
  | none => some m
  | some p =>
      (m.heap p).map fun _ => { m with heap := Function.update m.heap p none }

/-- `asserts` says whether the assertions are compiled in. -/
def construct (asserts : Bool) (m : Memory Object) (x : Object) (state : State) (text : Bytes) :
    Option (Memory Object) :=
  if asserts ∧ ¬ text.length ≤ 255 then none
  else some (m.allocate x (state.code :: UInt8.ofNat text.length :: text))

def copyConstruct (m : Memory Object) (x y : Object) : Option (Memory Object) :=
  (m.objects y).bind fun
    | none => some (m.setPointer x (some none))
    | some p =>
        (m.errorTextSize p).bind fun size =>
          (m.read p (size.toNat + 2)).map fun buffer => m.allocate x buffer

def moveConstruct (m : Memory Object) (x y : Object) : Option (Memory Object) :=
  (m.objects y).map fun pointer => (m.setPointer x (some pointer)).setPointer y (some none)

def swap (m : Memory Object) (x y : Object) : Option (Memory Object) :=
  (m.objects x).bind fun pointer =>
    (m.objects y).map fun pointer' =>
      (m.setPointer x (some pointer')).setPointer y (some pointer)

def destroy (m : Memory Object) (x : Object) : Option (Memory Object) :=
  (m.objects x).bind fun pointer => (m.delete pointer).map fun m => m.setPointer x none

/-- `tmp` is the temporary object of the assignment. -/
def copyAssign (m : Memory Object) (tmp x y : Object) : Option (Memory Object) :=
  (m.copyConstruct tmp y).bind fun m => (m.swap x tmp).bind fun m => m.destroy tmp

def moveAssign (m : Memory Object) (x y : Object) : Option (Memory Object) :=
  if x = y then some m
  else
    (m.objects x).bind fun pointer =>
      (m.delete pointer).bind fun m =>
        (m.objects y).map fun pointer => (m.setPointer x (some pointer)).setPointer y (some none)

end Operations

/-- An object stands for a value with a text that fits. -/
def Owns (heap : Nat → Option Bytes) : Option (Option Nat) → Option Status → Prop
  | none, none => True
  | some none, some .ok => True
  | some (some p), some (.error state text) =>
      heap p = some (state.code :: UInt8.ofNat text.length :: text) ∧ text.length ≤ 255
  | _, _ => False

theorem Owns.congr {heap heap' : Nat → Option Bytes} {pointer : Option (Option Nat)}
    {value : Option Status} (owns : Owns heap pointer value)
    (same : ∀ p, pointer = some (some p) → heap' p = heap p) : Owns heap' pointer value := by
  match pointer, value with
  | none, none => trivial
  | some none, some .ok => trivial
  | some (some p), some (.error state text) => exact ⟨(same p rfl).trans owns.1, owns.2⟩

theorem Owns.none_iff {heap : Nat → Option Bytes} {pointer : Option (Option Nat)}
    {value : Option Status} (owns : Owns heap pointer value) : pointer = none ↔ value = none := by
  match pointer, value with
  | none, none => simp
  | some none, some .ok => simp
  | some (some p), some (.error state text) => simp

/-- Every object stands for its value, and no two objects have the same buffer. -/
structure Stores (m : Memory Object) (values : Object → Option Status) : Prop where
  owns : ∀ x, Owns m.heap (m.objects x) (values x)
  alone : ∀ x y p, m.objects x = some (some p) → m.objects y = some (some p) → x = y
  unallocated : ∀ p, m.nextBuffer ≤ p → m.heap p = none

theorem stores_start : Stores (start : Memory Object) fun _ => none where
  owns _ := trivial
  alone := by simp [start]
  unallocated _ _ := rfl

namespace Stores

variable {m : Memory Object} {values : Object → Option Status}

/-- A buffer of an object is allocated. -/
theorem allocated (stores : m.Stores values) {x : Object} {p : Nat}
    (pointer : m.objects x = some (some p)) : p < m.nextBuffer := by
  have owns := stores.owns x
  rw [pointer] at owns
  by_contra beyond
  have raw := stores.unallocated p (by omega)
  match value : values x with
  | none => simp [value, Owns] at owns
  | some .ok => simp [value, Owns] at owns
  | some (.error state text) =>
      rw [value] at owns
      rw [owns.1] at raw
      cases raw

/-- A status reports what it stands for. -/
theorem reports (stores : m.Stores values) {x : Object} {value : Status}
    (live : values x = some value) :
    ∃ pointer, m.objects x = some pointer ∧ (pointer = none ↔ value = .ok) ∧
      m.stateValue pointer = some value.code ∧ m.errorText pointer = some value.errorText := by
  have owns := stores.owns x
  rw [live] at owns
  match pointer : m.objects x, value with
  | none, _ =>
      rw [pointer] at owns
      cases owns.none_iff.mp rfl
  | some none, .ok => exact ⟨none, rfl, by simp, rfl, rfl⟩
  | some none, .error state text =>
      rw [pointer] at owns
      exact owns.elim
  | some (some p), .ok =>
      rw [pointer] at owns
      exact owns.elim
  | some (some p), .error state text =>
      rw [pointer] at owns
      refine ⟨some p, rfl, by simp, ?_, ?_⟩
      · rw [stateValue, owns.1]
        rfl
      · have size : (UInt8.ofNat text.length).toNat = text.length :=
          UInt8.toNat_ofNat_of_lt' (Nat.lt_succ_of_le owns.2)
        rw [errorText, errorTextSize, owns.1]
        simp only [Option.bind_some, List.getElem?_cons_succ, List.getElem?_cons_zero]
        split
        · rename_i zero
          rw [zero] at size
          have empty : text = [] := List.eq_nil_of_length_eq_zero size.symm
          rw [empty]
          rfl
        · rw [read, owns.1, size]
          simp [Status.errorText]

variable [DecidableEq Object]

/-- An object that gets no buffer keeps the others apart. -/
theorem alone_setPointer (stores : m.Stores values) (x : Object) {pointer : Option (Option Nat)}
    (null : ∀ p, pointer ≠ some (some p)) :
    ∀ y z p, (m.setPointer x pointer).objects y = some (some p) →
      (m.setPointer x pointer).objects z = some (some p) → y = z := by
  intro y z p first second
  simp only [setPointer, Function.update_apply] at first second
  split at first
  · exact absurd first (null p)
  · split at second
    · exact absurd second (null p)
    · exact stores.alone y z p first second

/-- An object without a buffer. -/
theorem setNull (stores : m.Stores values) (x : Object) :
    Stores (m.setPointer x (some none)) (Function.update values x (some .ok)) where
  owns y := by
    by_cases same : y = x
    · subst same
      simp [setPointer, Owns]
    · simpa [setPointer, same] using stores.owns y
  alone := stores.alone_setPointer x (by simp)
  unallocated := stores.unallocated

/-- A new buffer that holds a text. -/
theorem allocate (stores : m.Stores values) (x : Object) (state : State) {text : Bytes}
    (fits : text.length ≤ 255) :
    Stores (m.allocate x (state.code :: UInt8.ofNat text.length :: text))
      (Function.update values x (some (.error state text))) where
  owns y := by
    by_cases same : y = x
    · subst same
      simp [Memory.allocate, Owns, fits]
    · have owns : Owns (Function.update m.heap m.nextBuffer
          (some (state.code :: UInt8.ofNat text.length :: text))) (m.objects y) (values y) := by
        refine (stores.owns y).congr fun p pointer => ?_
        have old := stores.allocated pointer
        rw [Function.update_of_ne (by omega)]
      simpa [Memory.allocate, same] using owns
  alone y z p first second := by
    simp only [Memory.allocate, Function.update_apply] at first second
    split at first
    · rename_i here
      cases first
      split at second
      · rename_i there
        rw [here, there]
      · exact absurd (stores.allocated second) (by omega)
    · split at second
      · cases second
        exact absurd (stores.allocated first) (by omega)
      · exact stores.alone y z p first second
  unallocated p beyond := by
    simp only [Memory.allocate] at beyond ⊢
    rw [Function.update_of_ne (by omega)]
    exact stores.unallocated p (by omega)

/-- The pointers of two objects change places. -/
theorem exchange (stores : m.Stores values) (x y : Object) :
    Stores ((m.setPointer x (m.objects y)).setPointer y (m.objects x))
      (Function.update (Function.update values x (values y)) y (values x)) := by
  have swapped : ∀ {α : Type _} (f : Object → α) (z : Object),
      Function.update (Function.update f x (f y)) y (f x) z = f (Equiv.swap x y z) := by
    intro α f z
    rw [Equiv.swap_apply_def, Function.update_apply, Function.update_apply]
    split_ifs with first second <;> simp_all
  have pointers : ∀ z, ((m.setPointer x (m.objects y)).setPointer y (m.objects x)).objects z =
      m.objects (Equiv.swap x y z) := swapped m.objects
  refine ⟨?_, ?_, stores.unallocated⟩
  · intro z
    rw [pointers, swapped]
    exact stores.owns (Equiv.swap x y z)
  · intro z z' p first second
    rw [pointers] at first second
    exact (Equiv.swap x y).injective (stores.alone _ _ p first second)

/-- A moved pointer leaves null behind. -/
theorem transfer (stores : m.Stores values) (x y : Object) :
    Stores ((m.setPointer x (m.objects y)).setPointer y (some none))
      (Function.update (Function.update values x (values y)) y (some .ok)) := by
  have exchanged := (stores.exchange x y).setNull y
  have pointers : ((m.setPointer x (m.objects y)).setPointer y (m.objects x)).setPointer y
      (some none) = (m.setPointer x (m.objects y)).setPointer y (some none) := by
    simp [setPointer]
  rwa [pointers, Function.update_idem] at exchanged

/-- The buffer of an object goes back to the heap with the object. -/
theorem destroy (stores : m.Stores values) (x : Object) (live : values x ≠ none) :
    ∃ pointer m', m.objects x = some pointer ∧ m.delete pointer = some m' ∧
      m'.objects = m.objects ∧ Stores (m'.setPointer x none) (Function.update values x none) := by
  have owns := stores.owns x
  match pointer : m.objects x, value : values x with
  | none, _ =>
      rw [pointer] at owns
      exact absurd (owns.none_iff.mp rfl) live
  | some none, _ =>
      refine ⟨none, m, rfl, rfl, rfl, ?_, stores.alone_setPointer x (by simp),
        stores.unallocated⟩
      intro y
      by_cases same : y = x
      · subst same
        simp [setPointer, Owns]
      · simpa [setPointer, same] using stores.owns y
  | some (some p), some (.error state text) =>
      rw [pointer, value] at owns
      refine ⟨some p, { m with heap := Function.update m.heap p none }, rfl, ?_, rfl, ?_,
        stores.alone_setPointer x (by simp), ?_⟩
      · rw [delete, owns.1, Option.map_some]
      · intro y
        by_cases same : y = x
        · subst same
          simp [setPointer, Owns]
        · have kept : Owns (Function.update m.heap p none) (m.objects y) (values y) := by
            refine (stores.owns y).congr fun p' pointer' => ?_
            rw [Function.update_of_ne]
            rintro rfl
            exact same (stores.alone y x p' pointer' pointer)
          simpa [setPointer, same] using kept
      · intro p' beyond
        by_cases same : p' = p
        · subst same
          simp [setPointer]
        · simpa [setPointer, same] using stores.unallocated p' beyond
  | some (some p), some .ok =>
      rw [pointer, value] at owns
      exact owns.elim
  | some (some p), none => exact absurd value live

theorem copyConstruct (stores : m.Stores values) (x : Object) {y : Object} (live : values y ≠ none) :
    ∃ m', m.copyConstruct x y = some m' ∧ m'.Stores (Function.update values x (values y)) := by
  have owns := stores.owns y
  match pointer : m.objects y, value : values y with
  | _, none => exact absurd value live
  | none, some _ =>
      rw [pointer, value] at owns
      exact owns.elim
  | some none, some .ok =>
      refine ⟨m.setPointer x (some none), ?_, stores.setNull x⟩
      rw [Memory.copyConstruct, pointer]
      rfl
  | some none, some (.error state text) =>
      rw [pointer, value] at owns
      exact owns.elim
  | some (some p), some .ok =>
      rw [pointer, value] at owns
      exact owns.elim
  | some (some p), some (.error state text) =>
      rw [pointer, value] at owns
      have size : (UInt8.ofNat text.length).toNat = text.length :=
        UInt8.toNat_ofNat_of_lt' (Nat.lt_succ_of_le owns.2)
      refine ⟨_, ?_, stores.allocate x state owns.2⟩
      rw [Memory.copyConstruct, pointer]
      simp [errorTextSize, read, owns.1, size]

theorem moveConstruct (stores : m.Stores values) (x : Object) {y : Object} (live : values y ≠ none) :
    ∃ m', m.moveConstruct x y = some m' ∧
      m'.Stores (Function.update (Function.update values x (values y)) y (some .ok)) := by
  obtain ⟨pointer, found⟩ := Option.ne_none_iff_exists'.mp
    (mt (stores.owns y).none_iff.mp live)
  refine ⟨_, by rw [Memory.moveConstruct, found, Option.map_some], ?_⟩
  have moved := stores.transfer x y
  rwa [found] at moved

theorem swap (stores : m.Stores values) {x y : Object} (first : values x ≠ none)
    (second : values y ≠ none) :
    ∃ m', m.swap x y = some m' ∧
      m'.Stores (Function.update (Function.update values x (values y)) y (values x)) := by
  obtain ⟨pointer, found⟩ := Option.ne_none_iff_exists'.mp
    (mt (stores.owns x).none_iff.mp first)
  obtain ⟨pointer', found'⟩ := Option.ne_none_iff_exists'.mp
    (mt (stores.owns y).none_iff.mp second)
  refine ⟨_, by rw [Memory.swap, found, Option.bind_some, found', Option.map_some], ?_⟩
  have exchanged := stores.exchange x y
  rwa [found, found'] at exchanged

theorem destroyed (stores : m.Stores values) {x : Object} (live : values x ≠ none) :
    ∃ m', m.destroy x = some m' ∧ m'.Stores (Function.update values x none) := by
  obtain ⟨pointer, m', found, deleted, -, kept⟩ := stores.destroy x live
  exact ⟨_, by rw [Memory.destroy, found, Option.bind_some, deleted, Option.map_some], kept⟩

/-- The copy is complete before the old buffer is released, so that an object can be assigned to
itself. -/
theorem copyAssign (stores : m.Stores values) {tmp x y : Object} (free : values tmp = none)
    (target : values x ≠ none) (live : values y ≠ none) :
    ∃ m', m.copyAssign tmp x y = some m' ∧ m'.Stores (Function.update values x (values y)) := by
  have otherTarget : x ≠ tmp := by
    rintro rfl
    exact target free
  obtain ⟨m₁, copied, stores₁⟩ := stores.copyConstruct tmp live
  obtain ⟨m₂, swapped, stores₂⟩ := @Stores.swap _ m₁ _ _ stores₁ x tmp
    (by rwa [Function.update_of_ne otherTarget]) (by rwa [Function.update_self])
  obtain ⟨m₃, released, stores₃⟩ := @Stores.destroyed _ m₂ _ _ stores₂ tmp
    (by rw [Function.update_self, Function.update_of_ne otherTarget]; exact target)
  refine ⟨m₃, ?_, ?_⟩
  · rw [Memory.copyAssign, copied, Option.bind_some, swapped, Option.bind_some, released]
  · have values₃ : Function.update (Function.update (Function.update
        (Function.update values tmp (values y)) x (Function.update values tmp (values y) tmp)) tmp
        (Function.update values tmp (values y) x)) tmp none =
        Function.update values x (values y) := by
      funext z
      by_cases here : z = tmp
      · subst here
        rw [Function.update_self, Function.update_of_ne (Ne.symm otherTarget), free]
      · rw [Function.update_of_ne here, Function.update_of_ne here, Function.update_self]
        by_cases there : z = x
        · subst there
          rw [Function.update_self, Function.update_self]
        · rw [Function.update_of_ne there, Function.update_of_ne here, Function.update_of_ne there]
    rwa [values₃] at stores₃

theorem moveAssign (stores : m.Stores values) {x y : Object} (other : x ≠ y)
    (target : values x ≠ none) (live : values y ≠ none) :
    ∃ m', m.moveAssign x y = some m' ∧
      m'.Stores (Function.update (Function.update values x (values y)) y (some .ok)) := by
  obtain ⟨pointer, m₁, found, deleted, objects, stores₁⟩ := stores.destroy x target
  obtain ⟨pointer', found'⟩ := Option.ne_none_iff_exists'.mp
    (mt (stores.owns y).none_iff.mp live)
  refine ⟨(m₁.setPointer x (some pointer')).setPointer y (some none), ?_, ?_⟩
  · rw [Memory.moveAssign, if_neg other, found, Option.bind_some, deleted, Option.bind_some,
      objects, found', Option.map_some]
  · have moved := stores₁.transfer x y
    have pointers : (m₁.setPointer x none).objects y = some pointer' := by
      change Function.update m₁.objects x none y = some pointer'
      rw [Function.update_of_ne (Ne.symm other), objects, found']
    have twice : (m₁.setPointer x none).setPointer x (some pointer') =
        m₁.setPointer x (some pointer') := by
      simp [setPointer]
    rwa [pointers, twice, Function.update_of_ne (Ne.symm other), Function.update_idem] at moved

end Stores

/-- The objects of the program are `some x`; `none` is the temporary of an assignment. -/
def apply [DecidableEq Object] (asserts : Bool) (m : Memory (Option Object)) :
    Operation Object → Option (Memory (Option Object))
  | .default x => some (m.setPointer (some x) (some none))
  | .construct x state text => m.construct asserts (some x) state text
  | .copyConstruct x y => m.copyConstruct (some x) (some y)
  | .moveConstruct x y => m.moveConstruct (some x) (some y)
  | .copyAssign x y => m.copyAssign none (some x) (some y)
  | .moveAssign x y => m.moveAssign (some x) (some y)
  | .swap x y => m.swap (some x) (some y)
  | .destroy x => m.destroy (some x)

end Memory

/-- The memory of a program, the values that its objects stand for, and whether it has aborted or
done something undefined. -/
structure Program (Object : Type*) where
  memory : Memory (Option Object)
  values : Object → Option Status
  failed : Bool

namespace Program

variable {Object : Type*}

def start : Program Object where
  memory := .start
  values _ := none
  failed := false

/-- An operation that the language allows on the objects there are. -/
def step [DecidableEq Object] (asserts : Bool) (s : Program Object) (operation : Operation Object) :
    Option (Program Object) :=
  if s.failed then none
  else
    (specify s.values operation).map fun values =>
      match s.memory.apply asserts operation with
      | some memory => { memory, values, failed := false }
      | none => { s with values, failed := true }

/-- Every object reports the state and the text of its value. -/
structure Faithful (s : Program Object) : Prop where
  sane : s.failed = false
  reports : ∀ x value, s.values x = some value → ∃ pointer,
    s.memory.objects (some x) = some pointer ∧
      (pointer = none ↔ value = .ok) ∧
      s.memory.stateValue pointer = some value.code ∧
      s.memory.errorText pointer = some value.errorText

/-- The text of a new status fits the byte of its length. -/
def short (_ : Program Object) : Operation Object → Bool
  | .construct _ _ text => text.length ≤ 255
  | _ => true

/-- The values of the objects and of the temporary, which is gone between two operations. -/
def withTemporary (values : Object → Option Status) : Option Object → Option Status
  | none => none
  | some x => values x

/-- The program has done nothing wrong and its objects stand for their values. -/
structure Sound (s : Program Object) : Prop where
  sane : s.failed = false
  stores : s.memory.Stores (withTemporary s.values)

theorem sound_start : Sound (start : Program Object) where
  sane := rfl
  stores := by
    have none : withTemporary (fun _ : Object => none) = fun _ => none := by
      funext y
      cases y <;> rfl
    exact none ▸ Memory.stores_start

theorem Sound.faithful {s : Program Object} (sound : s.Sound) : s.Faithful where
  sane := sound.sane
  reports x value live := @Memory.Stores.reports _ _ _ sound.stores (some x) value live

variable [DecidableEq Object]

theorem withTemporary_update (values : Object → Option Status) (x : Object)
    (value : Option Status) :
    withTemporary (Function.update values x value) =
      Function.update (withTemporary values) (some x) value := by
  funext y
  cases y with
  | none => rfl
  | some y => simp [withTemporary, Function.update_apply]

/-- What the language allows works in memory, as long as the texts fit. -/
theorem Sound.apply {s : Program Object} (sound : s.Sound) (asserts : Bool)
    {operation : Operation Object} {values : Object → Option Status}
    (specified : specify s.values operation = some values) (fits : s.short operation = true) :
    ∃ memory, s.memory.apply asserts operation = some memory ∧
      memory.Stores (withTemporary values) := by
  have stores := sound.stores
  cases operation with
  | default x =>
      simp only [specify, Option.ite_none_right_eq_some, Option.some.injEq] at specified
      obtain ⟨-, rfl⟩ := specified
      rw [withTemporary_update]
      exact ⟨_, rfl, stores.setNull (some x)⟩
  | construct x state text =>
      simp only [specify, Option.ite_none_right_eq_some, Option.some.injEq] at specified
      obtain ⟨-, rfl⟩ := specified
      have short : text.length ≤ 255 := by simpa [Program.short] using fits
      rw [withTemporary_update]
      refine ⟨_, ?_, stores.allocate (some x) state short⟩
      rw [Memory.apply, Memory.construct, if_neg (by simp [short])]
  | copyConstruct x y =>
      simp only [specify, Option.ite_none_right_eq_some, Option.some.injEq] at specified
      obtain ⟨⟨-, live⟩, rfl⟩ := specified
      rw [withTemporary_update]
      exact stores.copyConstruct (some x) live
  | moveConstruct x y =>
      simp only [specify, Option.ite_none_right_eq_some, Option.some.injEq] at specified
      obtain ⟨⟨-, live⟩, rfl⟩ := specified
      rw [withTemporary_update, withTemporary_update]
      exact stores.moveConstruct (some x) live
  | copyAssign x y =>
      simp only [specify, Option.ite_none_right_eq_some, Option.some.injEq] at specified
      obtain ⟨⟨target, live⟩, rfl⟩ := specified
      rw [withTemporary_update]
      exact @Memory.Stores.copyAssign _ _ _ _ stores none (some x) (some y) rfl target live
  | moveAssign x y =>
      simp only [specify, Option.ite_none_right_eq_some] at specified
      obtain ⟨⟨target, live⟩, moved⟩ := specified
      split at moved
      · rename_i same
        subst same
        cases moved
        refine ⟨s.memory, ?_, stores⟩
        rw [Memory.apply, Memory.moveAssign, if_pos rfl]
      · rename_i other
        cases moved
        rw [withTemporary_update, withTemporary_update]
        exact stores.moveAssign (fun same => other (Option.some.inj same)) target live
  | swap x y =>
      simp only [specify, Option.ite_none_right_eq_some, Option.some.injEq] at specified
      obtain ⟨⟨first, second⟩, rfl⟩ := specified
      rw [withTemporary_update, withTemporary_update]
      exact @Memory.Stores.swap _ _ _ _ stores (some x) (some y) first second
  | destroy x =>
      simp only [specify, Option.ite_none_right_eq_some, Option.some.injEq] at specified
      obtain ⟨live, rfl⟩ := specified
      rw [withTemporary_update]
      exact @Memory.Stores.destroyed _ _ _ _ stores (some x) live

theorem Sound.step {s after : Program Object} (sound : s.Sound) {asserts : Bool}
    {operation : Operation Object} (stepped : s.step asserts operation = some after)
    (fits : s.short operation = true) : after.Sound := by
  rw [Program.step, sound.sane, if_neg (by simp)] at stepped
  obtain ⟨values, specified, rfl⟩ := Option.map_eq_some_iff.mp stepped
  obtain ⟨memory, applied, stores⟩ := sound.apply asserts specified fits
  rw [applied]
  exact ⟨rfl, stores⟩

/-- A text that does not fit aborts the program, or its length is read modulo 256. -/
theorem not_faithful_construct {s after : Program Object} {asserts : Bool} {x : Object}
    {state : State} {text : Bytes} (stepped : s.step asserts (.construct x state text) = some after)
    (long : 255 < text.length) : ¬ after.Faithful := by
  intro faithful
  rw [Program.step] at stepped
  split at stepped
  · cases stepped
  obtain ⟨values, specified, rfl⟩ := Option.map_eq_some_iff.mp stepped
  simp only [specify, Option.ite_none_right_eq_some, Option.some.injEq] at specified
  obtain ⟨-, rfl⟩ := specified
  cases asserts with
  | true =>
      have aborted : s.memory.apply true (.construct x state text) = none := by
        rw [Memory.apply, Memory.construct, if_pos (by simp; omega)]
      rw [aborted] at faithful
      cases faithful.sane
  | false =>
      have constructed : s.memory.apply false (.construct x state text) =
          some (s.memory.allocate (some x)
            (state.code :: UInt8.ofNat text.length :: text)) := by
        rw [Memory.apply, Memory.construct, if_neg (by simp)]
      rw [constructed] at faithful
      obtain ⟨pointer, found, -, -, reported⟩ :=
        faithful.reports x (.error state text) (Function.update_self ..)
      simp only [Memory.allocate, Function.update_self, Option.some.injEq] at found
      subst found
      have few : (UInt8.ofNat text.length).toNat < text.length :=
        Nat.lt_of_lt_of_le (UInt8.toNat_lt _) long
      simp only [Memory.errorText, Memory.errorTextSize, Memory.read, Memory.allocate,
        Function.update_self, Option.bind_some, List.getElem?_cons_succ, List.getElem?_cons_zero,
        Status.errorText] at reported
      split at reported
      · have lengths := congrArg List.length (Option.some.inj reported)
        rw [List.length_nil] at lengths
        omega
      · rw [if_pos (by simp only [List.length_cons]; omega), Option.map_some] at reported
        have lengths := congrArg List.length (Option.some.inj reported)
        simp only [List.take_succ_cons, List.drop_succ_cons, List.drop_zero,
          List.length_take] at lengths
        omega

/-- Through every chain of operations the objects report the states and texts that they stand for,
if and only if every text of a new status has at most 255 bytes. -/
theorem faithful_iff_short (asserts : Bool) {operations : List (Operation Object)}
    {s : Program Object}
    (execution : Transition.run (step asserts) start operations = some s) :
    Transition.Always (step asserts) Faithful start operations ↔
      Transition.run (Transition.restrict (step asserts) short) start operations = some s := by
  refine @Transition.always_iff_restrict _ _ _ _ _ Sound ?_ ?_ ?_ _ _ _ sound_start execution
  · intro before operation after sound stepped fits
    exact sound.step stepped fits
  · intro state sound
    exact sound.faithful
  · intro before operation after sound stepped faithful
    cases operation with
    | construct x state text =>
        by_contra long
        have long : 255 < text.length := by simpa [short] using long
        exact not_faithful_construct stepped long faithful
    | _ => rfl

/-- A text goes through a copy, two moves, an assignment, a swap and an assignment to itself. -/
def chainOperations : List (Operation Nat) :=
  [.construct 0 .failed (ascii "io error"), .copyConstruct 1 0, .moveConstruct 2 0, .default 3,
    .copyAssign 3 1, .moveAssign 0 2, .swap 2 3, .copyAssign 2 2]

theorem faithful_iff_short_chainOperations :
    ∃ s, Transition.run (step true) start chainOperations = some s ∧
      s.values 2 = some (.error .failed (ascii "io error")) ∧ s.values 3 = some .ok ∧
      Transition.Always (step true) Faithful start chainOperations :=
  ⟨_, rfl, rfl, rfl, (@faithful_iff_short Nat _ true chainOperations _ rfl).mpr rfl⟩

/-- `SetFailed` for a service that is not found, whose name has 238 characters. -/
def setFailedOperations : List (Operation Nat) :=
  [.default 0, .construct 1 .failed (ascii "can't find service" ++ List.replicate 238 120),
    .moveAssign 0 1, .destroy 1]

theorem long_text_lost :
    ∃ s, Transition.run (step false) start setFailedOperations = some s ∧
      (s.memory.objects (some 0)).bind s.memory.errorText = some [] ∧
      ¬ Transition.Always (step false) Faithful start setFailedOperations := by
  have lost : ((Transition.run (step false) start setFailedOperations).bind fun s =>
      (s.memory.objects (some 0)).bind s.memory.errorText) = some [] := by
    decide +kernel
  have value : ((Transition.run (step false) start setFailedOperations).bind fun s => s.values 0) =
      some (.error .failed (ascii "can't find service" ++ List.replicate 238 120)) := by
    decide +kernel
  obtain ⟨s, execution, reported⟩ := Option.bind_eq_some_iff.mp lost
  rw [execution, Option.bind_some] at value
  refine ⟨s, execution, reported, ?_⟩
  intro always
  have faithful := always setFailedOperations [] s (List.append_nil _) execution
  obtain ⟨pointer, found, -, -, text⟩ := faithful.reports 0 _ value
  rw [found, Option.bind_some, text] at reported
  simp [Status.errorText, ascii] at reported

end Program

end Status

end Mcast

import Mathlib.Data.List.Count
import Mathlib.Logic.Function.Basic

/-!
# Registers of numbered things

Things come to addresses and leave them.  They are numbered in the order in which they come, so
that two things that come to one address one after the other are told apart.  `left` lists what
every departure was applied to, with `none` for a departure from an address where nothing was.  A
thing may also be forgotten: its address is then taken away without a departure.

`Holds` says at which addresses something is; what a single arrival or departure keeps is kept by
those at all addresses of a list.

An intact register has each thing at one address or once among the departures.  A broken one, with
a departure from an empty address or with a lost thing, is never settled again.
-/

/-- The things at the addresses, the number of those that have come, and the departures. -/
structure Register (A : Type*) where
  present : A → Option Nat
  entered : Nat
  left : List (Option Nat)

namespace Register

variable {A : Type*}

def empty : Register A :=
  { present := fun _ => none, entered := 0, left := [] }

/-- The addresses that pass the test are taken away. -/
def forget (r : Register A) (gone : A → Bool) : Register A :=
  { r with present := fun a => if gone a then none else r.present a }

/-- Every thing has left exactly once, and nothing else has. -/
def Settled (r : Register A) : Prop :=
  none ∉ r.left ∧ ∀ i < r.entered, r.left.count (some i) = 1

structure Intact (r : Register A) : Prop where
  clean : none ∉ r.left
  bounded : ∀ a i, r.present a = some i → i < r.entered
  known : ∀ i, some i ∈ r.left → i < r.entered
  unique : ∀ a b i, r.present a = some i → r.present b = some i → a = b
  staying : ∀ a i, r.present a = some i → some i ∉ r.left
  once : ∀ i < r.entered, (∃ a, r.present a = some i) ∨ r.left.count (some i) = 1

/-- The thing is at no address and has not left. -/
structure Lost (r : Register A) (i : Nat) : Prop where
  bounded : i < r.entered
  absent : ∀ a, r.present a ≠ some i
  missing : some i ∉ r.left

def Broken (r : Register A) : Prop :=
  none ∈ r.left ∨ ∃ i, r.Lost i

variable {r : Register A} {a : A} {i : Nat}

namespace Intact

theorem empty : (empty : Register A).Intact := by
  constructor <;> simp [Register.empty]

theorem settled_iff (intact : r.Intact) : r.Settled ↔ ∀ a, r.present a = none := by
  constructor
  · rintro ⟨-, settled⟩ a
    cases here : r.present a with
    | none => rfl
    | some i =>
        have departed := settled i (intact.bounded a i here)
        rw [List.count_eq_zero.mpr (intact.staying a i here)] at departed
        cases departed
  · intro nothing
    refine ⟨intact.clean, ?_⟩
    intro i entered
    rcases intact.once i entered with ⟨a, here⟩ | departed
    · rw [nothing a] at here
      cases here
    · exact departed

/-- What is forgotten at an address is lost. -/
theorem forget_lost (intact : r.Intact) {gone : A → Bool} (here : r.present a = some i)
    (taken : gone a = true) : (r.forget gone).Lost i where
  bounded := intact.bounded a i here
  absent := by
    intro b there
    simp only [Register.forget] at there
    split at there
    · cases there
    · rename_i kept
      exact kept (intact.unique b a i there here ▸ taken)
  missing := intact.staying a i here

end Intact

/-- Taking away addresses where nothing is changes nothing. -/
theorem forget_eq_self {gone : A → Bool} (nothing : ∀ a, gone a = true → r.present a = none) :
    r.forget gone = r := by
  have same : (fun a => if gone a then none else r.present a) = r.present := by
    funext a
    split
    · rename_i taken
      exact (nothing a taken).symm
    · rfl
  rw [forget, same]

theorem Lost.forget (lost : r.Lost i) (gone : A → Bool) : (r.forget gone).Lost i where
  bounded := lost.bounded
  absent := by
    intro b here
    simp only [Register.forget] at here
    split at here
    · cases here
    · exact lost.absent b here
  missing := lost.missing

namespace Broken

theorem forget (broken : r.Broken) (gone : A → Bool) : (r.forget gone).Broken := by
  refine broken.imp_right ?_
  rintro ⟨i, lost⟩
  exact ⟨i, lost.forget gone⟩

theorem not_settled (broken : r.Broken) : ¬r.Settled := by
  rintro ⟨clean, settled⟩
  rcases broken with nothing | ⟨i, lost⟩
  · exact clean nothing
  · have departed := settled i lost.bounded
    rw [List.count_eq_zero.mpr lost.missing] at departed
    cases departed

end Broken

/-! ## The addresses in use -/

/-- Something is at the addresses of the list, and at no others. -/
def Holds (r : Register A) (as : List A) : Prop :=
  ∀ a, (r.present a).isSome = true ↔ a ∈ as

namespace Holds

variable {as bs : List A}

theorem empty : (Register.empty : Register A).Holds [] := by
  simp [Holds, Register.empty]

theorem free (holds : r.Holds as) (absent : a ∉ as) : r.present a = none := by
  rw [← Option.not_isSome_iff_eq_none, holds]
  exact absent

theorem taken (holds : r.Holds as) (member : a ∈ as) : ∃ i, r.present a = some i :=
  Option.isSome_iff_exists.mp ((holds a).mpr member)

theorem forget {gone : A → Bool} (holds : r.Holds (as ++ bs)) (left : ∀ a ∈ as, gone a = true)
    (kept : ∀ b ∈ bs, gone b = false) : (r.forget gone).Holds bs := by
  intro a
  have before := holds a
  rw [List.mem_append] at before
  simp only [Register.forget]
  split
  · rename_i taken
    refine iff_of_false (by simp) ?_
    intro member
    rw [kept a member] at taken
    cases taken
  · rename_i stays
    rw [before]
    exact or_iff_right fun member => stays (left a member)

end Holds

/-! ## Arrivals and departures -/

section Moves

variable [DecidableEq A]

def enter (r : Register A) (a : A) : Register A :=
  { r with present := Function.update r.present a (some r.entered), entered := r.entered + 1 }

def leave (r : Register A) (a : A) : Register A :=
  { r with present := Function.update r.present a none, left := r.left ++ [r.present a] }

namespace Intact

theorem enter (intact : r.Intact) (free : r.present a = none) : (r.enter a).Intact := by
  -- The number of the newcomer is above those of all others.
  have fresh : ∀ b, r.present b ≠ some r.entered := by
    intro b here
    exact Nat.lt_irrefl _ (intact.bounded b _ here)
  have before : ∀ b i, Function.update r.present a (some r.entered) b = some i →
      (b = a ∧ i = r.entered) ∨ (b ≠ a ∧ r.present b = some i) := by
    intro b i here
    by_cases same : b = a
    · subst same
      exact Or.inl ⟨rfl, by simpa [eq_comm] using here⟩
    · exact Or.inr ⟨same, by simpa [same] using here⟩
  refine {
    clean := intact.clean
    bounded := ?_
    known := fun i departed => Nat.lt_succ_of_lt (intact.known i departed)
    unique := ?_
    staying := ?_
    once := ?_ }
  · intro b i here
    rcases before b i here with ⟨-, rfl⟩ | ⟨-, old⟩
    · exact Nat.lt_succ_self _
    · exact Nat.lt_succ_of_lt (intact.bounded b i old)
  · intro b c i here there
    rcases before b i here with ⟨rfl, rfl⟩ | ⟨-, old⟩
    · rcases before c _ there with ⟨rfl, -⟩ | ⟨-, other⟩
      · rfl
      · exact absurd other (fresh c)
    · rcases before c i there with ⟨-, rfl⟩ | ⟨-, other⟩
      · exact absurd old (fresh b)
      · exact intact.unique b c i old other
  · intro b i here
    rcases before b i here with ⟨-, rfl⟩ | ⟨-, old⟩
    · intro departed
      exact Nat.lt_irrefl _ (intact.known _ departed)
    · exact intact.staying b i old
  · intro i entered
    rcases Nat.lt_succ_iff_lt_or_eq.mp entered with old | rfl
    · refine (intact.once i old).imp_left ?_
      rintro ⟨b, here⟩
      refine ⟨b, ?_⟩
      have other : b ≠ a := by
        rintro rfl
        rw [free] at here
        cases here
      simpa [Register.enter, other] using here
    · exact Or.inl ⟨a, by simp [Register.enter]⟩

theorem leave (intact : r.Intact) (here : r.present a = some i) : (r.leave a).Intact := by
  have before : ∀ b j, Function.update r.present a none b = some j →
      b ≠ a ∧ r.present b = some j := by
    intro b j there
    by_cases same : b = a
    · simp [same] at there
    · exact ⟨same, by simpa [same] using there⟩
  have departures : (r.leave a).left = r.left ++ [some i] := by
    rw [Register.leave, here]
  refine {
    clean := by simpa [departures] using intact.clean
    bounded := fun b j there => intact.bounded b j (before b j there).2
    known := ?_
    unique := fun b c j there elsewhere =>
      intact.unique b c j (before b j there).2 (before c j elsewhere).2
    staying := ?_
    once := ?_ }
  · intro j departed
    rw [departures, List.mem_append, List.mem_singleton, Option.some.injEq] at departed
    rcases departed with old | rfl
    · exact intact.known j old
    · exact intact.bounded a j here
  · intro b j there
    obtain ⟨other, old⟩ := before b j there
    rw [departures, List.mem_append, List.mem_singleton, Option.some.injEq]
    rintro (departed | rfl)
    · exact intact.staying b j old departed
    · exact other (intact.unique b a j old here)
  · intro j entered
    rw [departures, List.count_append]
    by_cases same : j = i
    · subst same
      have first : r.left.count (some j) = 0 := List.count_eq_zero.mpr (intact.staying a j here)
      simp [first]
    · rcases intact.once j entered with ⟨b, there⟩ | departed
      · have other : b ≠ a := by
          rintro rfl
          rw [here] at there
          exact same (Option.some.inj there).symm
        exact Or.inl ⟨b, by simpa [Register.leave, other] using there⟩
      · have different : (some i == some j) = false := by simpa using Ne.symm same
        exact Or.inr (by simp [List.count_singleton, departed, different])

end Intact

namespace Lost

theorem enter (lost : r.Lost i) (a : A) : (r.enter a).Lost i where
  bounded := Nat.lt_succ_of_lt lost.bounded
  absent := by
    intro b here
    by_cases same : b = a
    · have number : r.entered = i := by simpa [Register.enter, same] using here
      exact Nat.ne_of_gt lost.bounded number
    · exact lost.absent b (by simpa [Register.enter, same] using here)
  missing := lost.missing

theorem leave (lost : r.Lost i) (a : A) : (r.leave a).Lost i where
  bounded := lost.bounded
  absent := by
    intro b here
    by_cases same : b = a
    · simp [Register.leave, same] at here
    · exact lost.absent b (by simpa [Register.leave, same] using here)
  missing := by
    intro departed
    rcases List.mem_append.mp departed with old | new
    · exact lost.missing old
    · exact lost.absent a (List.mem_singleton.mp new).symm

end Lost

namespace Broken

theorem enter (broken : r.Broken) (a : A) : (r.enter a).Broken := by
  refine broken.imp_right ?_
  rintro ⟨i, lost⟩
  exact ⟨i, lost.enter a⟩

theorem leave (broken : r.Broken) (a : A) : (r.leave a).Broken := by
  rcases broken with nothing | ⟨i, lost⟩
  · exact Or.inl (List.mem_append_left _ nothing)
  · exact Or.inr ⟨i, lost.leave a⟩

/-- A departure from an address where nothing is. -/
theorem leave_of_none (free : r.present a = none) : (r.leave a).Broken :=
  Or.inl (List.mem_append_right _ (by rw [free]; exact List.mem_singleton_self _))

end Broken

def enterAll (r : Register A) (as : List A) : Register A := as.foldl enter r

def leaveAll (r : Register A) (as : List A) : Register A := as.foldl leave r

namespace Holds

variable {as bs : List A}

theorem enter (holds : r.Holds as) : (r.enter a).Holds (as ++ [a]) := by
  intro b
  by_cases here : b = a
  · simp [Register.enter, here]
  · simp [Register.enter, here, holds b]

theorem leave (holds : r.Holds (a :: as)) (other : a ∉ as) : (r.leave a).Holds as := by
  intro b
  by_cases here : b = a
  · simp [Register.leave, here, other]
  · simp [Register.leave, here, holds b]

theorem enterAll (holds : r.Holds as) : (r.enterAll bs).Holds (as ++ bs) := by
  induction bs generalizing r as with
  | nil => simpa [Register.enterAll] using holds
  | cons b bs ih =>
      have later := ih (holds.enter (a := b))
      rwa [List.append_assoc, List.singleton_append] at later

theorem leaveAll (holds : r.Holds as) (distinct : as.Nodup) : (r.leaveAll as).Holds [] := by
  induction as generalizing r with
  | nil => exact holds
  | cons a as ih =>
      obtain ⟨other, distinct⟩ := List.nodup_cons.mp distinct
      exact ih (holds.leave other) distinct

/-- A property that arrivals at free addresses keep. -/
theorem enterAll_preserves {property : Register A → Prop}
    (preserved : ∀ r a, r.present a = none → property r → property (r.enter a))
    (holds : r.Holds as) (distinct : (as ++ bs).Nodup) (initial : property r) :
    property (r.enterAll bs) := by
  induction bs generalizing r as with
  | nil => exact initial
  | cons b bs ih =>
      have absent : b ∉ as := by
        intro member
        exact (List.nodup_append.mp distinct).2.2 b member b List.mem_cons_self rfl
      refine ih holds.enter ?_ (preserved r b (holds.free absent) initial)
      rwa [List.append_assoc, List.singleton_append]

/-- A property that departures from addresses in use keep. -/
theorem leaveAll_preserves {property : Register A → Prop}
    (preserved : ∀ r a i, r.present a = some i → property r → property (r.leave a))
    (holds : r.Holds as) (distinct : as.Nodup) (initial : property r) :
    property (r.leaveAll as) := by
  induction as generalizing r with
  | nil => exact initial
  | cons a as ih =>
      obtain ⟨other, distinct⟩ := List.nodup_cons.mp distinct
      obtain ⟨i, here⟩ := holds.taken List.mem_cons_self
      exact ih (holds.leave other) distinct (preserved r a i here initial)

end Holds

theorem leave_clean (here : r.present a = some i) (clean : none ∉ r.left) :
    none ∉ (r.leave a).left := by
  simpa [leave, here] using clean

end Moves

end Register

import Mathlib.Data.List.Count

/-!
# Tokens at places

Every place holds a list of tokens.  A step adds a token to one place or moves one from a place to
another, which is said by the counts of all tokens at all places.  The rules follow a token that is
at one place, once, and nowhere else.
-/

namespace Tokens

variable {Place Token : Type*} [DecidableEq Place] [DecidableEq Token]

/-- The token is at this place, once, and nowhere else. -/
def At (holds : Place → List Token) (token : Token) (place : Place) : Prop :=
  ∀ other, (holds other).count token = if other = place then 1 else 0

/-- One more token at a place. -/
def Adds (before after : Place → List Token) (token : Token) (place : Place) : Prop :=
  ∀ other x, (after other).count x =
    (before other).count x + if x = token ∧ other = place then 1 else 0

/-- One token goes from a place to another. -/
def Moves (before after : Place → List Token) (token : Token) (source target : Place) : Prop :=
  ∀ other x, (after other).count x + (if x = token ∧ other = source then 1 else 0) =
    (before other).count x + if x = token ∧ other = target then 1 else 0

variable {before after : Place → List Token} {token x : Token} {place source target : Place}

theorem count_cons {tokens : List Token} :
    (token :: tokens).count x = tokens.count x + if x = token then 1 else 0 := by
  by_cases same : x = token
  · simp [same]
  · simp [same, List.count_cons_of_ne (Ne.symm same)]

theorem At.mem (there : At before token place) : token ∈ before place := by
  rw [← List.count_pos_iff, there place, if_pos rfl]
  exact Nat.one_pos

theorem At.eq_of_mem (there : At before token place) {other : Place}
    (member : token ∈ before other) : other = place := by
  by_contra elsewhere
  have count := there other
  rw [if_neg elsewhere, List.count_eq_zero] at count
  exact count member

theorem At.added (adds : Adds before after token place) (absent : ∀ other, token ∉ before other) :
    At after token place := by
  intro other
  rw [adds other token, List.count_eq_zero.mpr (absent other)]
  simp

theorem At.adds (there : At before x place) {other : Place} (adds : Adds before after token other)
    (different : x ≠ token) : At after x place := by
  intro somewhere
  rw [adds somewhere x, there somewhere]
  simp [different]

theorem Adds.mem (adds : Adds before after token place) {other : Place}
    (member : x ∈ after other) : x = token ∨ x ∈ before other := by
  by_contra! neither
  have count := adds other x
  rw [List.count_eq_zero.mpr neither.2] at count
  simp only [neither.1, false_and, if_false, Nat.add_zero, List.count_eq_zero] at count
  exact count member

theorem At.moved (there : At before token source)
    (moves : Moves before after token source target) : At after token target := by
  intro other
  have count := moves other token
  rw [there other] at count
  simp only [true_and] at count
  exact Nat.add_left_cancel ((Nat.add_comm _ _).trans count)

theorem At.moves (there : At before x place) (moves : Moves before after token source target)
    (different : x ≠ token) : At after x place := by
  intro other
  have count := moves other x
  rw [there other] at count
  simpa [different] using count

theorem Moves.mem (moves : Moves before after token source target) {other : Place}
    (member : x ∈ after other) : x = token ∨ x ∈ before other := by
  by_contra! neither
  have count := moves other x
  rw [List.count_eq_zero.mpr neither.2] at count
  simp only [neither.1, false_and, if_false, Nat.add_zero, List.count_eq_zero] at count
  exact count member

end Tokens

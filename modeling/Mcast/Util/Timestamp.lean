import Mathlib.Data.Int.ModEq
import Mathlib.Tactic.Linarith
import Mathlib.Tactic.LinearCombination
import Mathlib.Tactic.Ring

/-!
# Cycle counts as times

`Timestamp` of `src/util/Timer.h`.  `ToNonoseconds` splits the count into whole seconds and a rest,
but takes the whole seconds away from the count as nanoseconds and not as cycles.  The rest is
wrong by `sec * (freq - 10 ^ 9)` cycles, and its product with `10 ^ 9` wraps.  The result is right
where this error, modulo `2 ^ 64`, does not carry the remainder of the division over the frequency.
-/

namespace Mcast

namespace Timestamp

def kMillisecondsPerSecond : UInt64 := 1000
def kMicrosecondsPerSecond : UInt64 := kMillisecondsPerSecond * 1000
def kNonosecondsPerSecond : UInt64 := kMicrosecondsPerSecond * 1000

section

-- `freq` is `g_invariant_cpu_freq`, `time` the count.
variable (freq time : UInt64)

def toNonoseconds : UInt64 :=
  if freq ≠ 0 then
    let sec := time / freq
    let nsec := (time - sec * kNonosecondsPerSecond) * kNonosecondsPerSecond / freq
    sec * kNonosecondsPerSecond + nsec
  else time

def toMicroseconds : UInt64 := toNonoseconds freq time / 1000

def toMilliseconds : UInt64 := toNonoseconds freq time / 1000000

def toSecondsInt : UInt64 := toNonoseconds freq time / kNonosecondsPerSecond

/-- The time in nanoseconds fits 64 bits. -/
def Fits : Prop := time.toNat * 10 ^ 9 / freq.toNat < 2 ^ 64

/-- All conversions are exact up to the truncation. -/
structure Converts : Prop where
  nanoseconds : (toNonoseconds freq time).toNat = time.toNat * 10 ^ 9 / freq.toNat
  microseconds : (toMicroseconds freq time).toNat = time.toNat * 10 ^ 6 / freq.toNat
  milliseconds : (toMilliseconds freq time).toNat = time.toNat * 10 ^ 3 / freq.toNat
  seconds : (toSecondsInt freq time).toNat = time.toNat / freq.toNat

/-- The error of the rest, in units of a nanosecond times the frequency and modulo `2 ^ 64`, stays
below the frequency together with the remainder of the exact division. -/
def Covered : Prop :=
  ((time.toNat * 10 ^ 9 % freq.toNat : Int) +
    (time.toNat / freq.toNat : Int) * (freq.toNat - 10 ^ 9) * 10 ^ 9) % 2 ^ 64 < freq.toNat

end

/-- Adding to a multiple of the divisor before a wrap keeps the quotient exactly when what is added
wraps to less than the divisor. -/
theorem wrapped_div_eq_iff {modulus divisor quotient added : Int} (positive : 0 < divisor)
    (nonneg : 0 ≤ quotient) (room : quotient * divisor + divisor ≤ modulus) :
    (quotient * divisor + added) % modulus / divisor = quotient ↔ added % modulus < divisor := by
  have low : 0 ≤ quotient * divisor := Int.mul_nonneg nonneg positive.le
  have modulus_pos : 0 < modulus := by omega
  have wrapped_nonneg := Int.emod_nonneg added modulus_pos.ne'
  have wrapped_lt := Int.emod_lt_of_pos added modulus_pos
  have same : (quotient * divisor + added) % modulus =
      (quotient * divisor + added % modulus) % modulus := by
    simp
  rw [same]
  by_cases fits : quotient * divisor + added % modulus < modulus
  · rw [Int.emod_eq_of_lt (by omega) fits, Int.add_comm, Int.add_mul_ediv_right _ _ positive.ne',
      add_eq_right]
    constructor
    · intro zero
      by_contra beyond
      have one : 1 ≤ added % modulus / divisor :=
        (Int.le_ediv_iff_mul_le positive).mpr (by omega)
      omega
    · exact Int.ediv_eq_zero_of_lt wrapped_nonneg
  · have once : (quotient * divisor + added % modulus) % modulus =
        quotient * divisor + added % modulus - modulus := by
      rw [← Int.sub_emod_right]
      exact Int.emod_eq_of_lt (by omega) (by omega)
    have less : (quotient * divisor + added % modulus - modulus) / divisor < quotient :=
      Int.ediv_lt_of_lt_mul positive (by omega)
    rw [once]
    exact iff_of_false less.ne (by omega)

/-- The steps of `ToNonoseconds` in integers. -/
theorem toNat_toNonoseconds {freq time : UInt64} (positive : 0 < freq.toNat)
    (fits : Fits freq time) :
    ((toNonoseconds freq time).toNat : Int) =
      ((time.toNat / freq.toNat : Nat) * 10 ^ 9 +
        (time.toNat - (time.toNat / freq.toNat : Nat) * 10 ^ 9) * 10 ^ 9 % 2 ^ 64 / freq.toNat) %
          2 ^ 64 := by
  have nonzero : freq ≠ 0 := by
    rintro rfl
    exact absurd positive (by decide)
  have giga : kNonosecondsPerSecond.toNat = 10 ^ 9 := by decide
  have limit : time.toNat / freq.toNat * 10 ^ 9 < 2 ^ 64 := by
    refine Nat.lt_of_le_of_lt ?_ fits
    rw [Nat.le_div_iff_mul_le positive]
    have whole := Nat.div_mul_le_self time.toNat freq.toNat
    nlinarith
  rw [toNonoseconds, if_pos nonzero]
  simp only [UInt64.toNat_add, UInt64.toNat_div, UInt64.toNat_mul, UInt64.toNat_sub, giga,
    Nat.mod_eq_of_lt limit]
  generalize time.toNat / freq.toNat = sec at limit ⊢
  have rest : (((2 ^ 64 - sec * 10 ^ 9 + time.toNat) % 2 ^ 64 * 10 ^ 9 % 2 ^ 64 : Nat) : Int) =
      (time.toNat - sec * 10 ^ 9) * 10 ^ 9 % 2 ^ 64 := by
    omega
  rw [Int.natCast_emod, Int.natCast_add, Int.natCast_ediv, rest]
  push_cast
  rfl

/-- The result of the steps, where `quotient` and `left` are those of the rest of a second. -/
theorem steps_eq_iff {time freq sec rest quotient left : Nat} {result : Int}
    (positive : 0 < freq) (small : freq < 2 ^ 34) (whole : freq * sec + rest = time)
    (parts : freq * quotient + left = rest * 10 ^ 9) (room : quotient < 10 ^ 9)
    (fits : sec * 10 ^ 9 + quotient < 2 ^ 64)
    (steps : result = (sec * 10 ^ 9 + (time - sec * 10 ^ 9) * 10 ^ 9 % 2 ^ 64 / freq) % 2 ^ 64) :
    result = sec * 10 ^ 9 + quotient ↔
      ((left : Int) + sec * (freq - 10 ^ 9) * 10 ^ 9) % 2 ^ 64 < freq := by
  have freq_pos : (0 : Int) < freq := by
    omega
  have product : ((time : Int) - sec * 10 ^ 9) * 10 ^ 9 =
      quotient * freq + (left + sec * (freq - 10 ^ 9) * 10 ^ 9) := by
    zify at whole parts
    linear_combination (-10 ^ 9 : Int) * whole - parts
  have enough : (quotient : Int) * freq + freq ≤ 2 ^ 64 := by
    have fewer : (quotient : Int) + 1 ≤ 10 ^ 9 := by
      omega
    have bounded : (freq : Int) ≤ 2 ^ 34 := by
      omega
    nlinarith
  rw [product] at steps
  rw [← wrapped_div_eq_iff freq_pos (Int.natCast_nonneg quotient) enough]
  -- neither side of the equation wraps a second time
  have range := Int.emod_lt_of_pos ((quotient : Int) * freq +
    (left + sec * (freq - 10 ^ 9) * 10 ^ 9)) (show (0 : Int) < 2 ^ 64 by decide)
  have nonneg := Int.emod_nonneg ((quotient : Int) * freq +
    (left + sec * (freq - 10 ^ 9) * 10 ^ 9)) (show (2 ^ 64 : Int) ≠ 0 by decide)
  have less := Int.ediv_le_self freq nonneg
  have div_nonneg := Int.ediv_nonneg nonneg freq_pos.le
  omega

/-- `ToNonoseconds` is exact exactly where its error is covered. -/
theorem toNonoseconds_iff {freq time : UInt64} (positive : 0 < freq.toNat)
    (small : freq.toNat < 2 ^ 34) (fits : Fits freq time) :
    (toNonoseconds freq time).toNat = time.toNat * 10 ^ 9 / freq.toNat ↔ Covered freq time := by
  have whole := Nat.div_add_mod time.toNat freq.toNat
  -- the exact result, with the remainder of the seconds
  have split : time.toNat * 10 ^ 9 / freq.toNat =
      time.toNat / freq.toNat * 10 ^ 9 + time.toNat % freq.toNat * 10 ^ 9 / freq.toNat := by
    calc time.toNat * 10 ^ 9 / freq.toNat
        = (freq.toNat * (time.toNat / freq.toNat) + time.toNat % freq.toNat) * 10 ^ 9 /
            freq.toNat := by rw [whole]
      _ = (time.toNat % freq.toNat * 10 ^ 9 + freq.toNat * (time.toNat / freq.toNat * 10 ^ 9)) /
            freq.toNat := by ring_nf
      _ = time.toNat % freq.toNat * 10 ^ 9 / freq.toNat + time.toNat / freq.toNat * 10 ^ 9 :=
            Nat.add_mul_div_left _ _ positive
      _ = _ := Nat.add_comm _ _
  have room : time.toNat % freq.toNat * 10 ^ 9 / freq.toNat < 10 ^ 9 := by
    rw [Nat.div_lt_iff_lt_mul positive, Nat.mul_comm]
    exact Nat.mul_lt_mul_of_pos_left (Nat.mod_lt _ positive) (by decide)
  have remainder : time.toNat % freq.toNat * 10 ^ 9 % freq.toNat =
      time.toNat * 10 ^ 9 % freq.toNat := by
    rw [Nat.mod_mul_mod]
  have steps := toNat_toNonoseconds positive fits
  rw [Fits, split] at fits
  have exact_iff := steps_eq_iff positive small whole
    (Nat.div_add_mod (time.toNat % freq.toNat * 10 ^ 9) freq.toNat) room fits steps
  rw [remainder] at exact_iff
  rw [split, Covered, ← Int.natCast_inj]
  push_cast at exact_iff ⊢
  exact exact_iff

/-- The coarser times are truncations of the nanoseconds. -/
theorem converts_iff {freq time : UInt64} (positive : 0 < freq.toNat)
    (small : freq.toNat < 2 ^ 34) (fits : Fits freq time) :
    Converts freq time ↔ Covered freq time := by
  rw [← toNonoseconds_iff positive small fits]
  refine ⟨Converts.nanoseconds, fun nanoseconds => ⟨nanoseconds, ?_, ?_, ?_⟩⟩
  · have truncated : time.toNat * 10 ^ 9 / freq.toNat / 1000 = time.toNat * 10 ^ 6 / freq.toNat := by
      rw [Nat.div_div_eq_div_mul, show time.toNat * 10 ^ 9 = time.toNat * 10 ^ 6 * 1000 by ring,
        Nat.mul_div_mul_right _ _ (by decide)]
    rw [toMicroseconds, UInt64.toNat_div, nanoseconds]
    exact truncated
  · have truncated : time.toNat * 10 ^ 9 / freq.toNat / 1000000 =
        time.toNat * 10 ^ 3 / freq.toNat := by
      rw [Nat.div_div_eq_div_mul, show time.toNat * 10 ^ 9 = time.toNat * 10 ^ 3 * 1000000 by ring,
        Nat.mul_div_mul_right _ _ (by decide)]
    rw [toMilliseconds, UInt64.toNat_div, nanoseconds]
    exact truncated
  · have truncated : time.toNat * 10 ^ 9 / freq.toNat / 10 ^ 9 = time.toNat / freq.toNat := by
      rw [Nat.div_div_eq_div_mul, Nat.mul_div_mul_right _ _ (by decide)]
    rw [toSecondsInt, UInt64.toNat_div, nanoseconds]
    exact truncated

theorem covered_of_lt {freq time : UInt64} (less : time.toNat < freq.toNat) :
    Covered freq time := by
  have none : (time.toNat / freq.toNat : Int) = 0 :=
    Int.ediv_eq_zero_of_lt (Int.natCast_nonneg _) (by omega)
  have remainder := Int.emod_lt_of_pos (time.toNat * 10 ^ 9 : Int) (b := freq.toNat) (by omega)
  have nonneg := Int.emod_nonneg (time.toNat * 10 ^ 9 : Int) (b := freq.toNat) (by omega)
  have bound := freq.toNat_lt
  rw [Covered, none, Int.zero_mul, Int.zero_mul, Int.add_zero, Int.emod_eq_of_lt nonneg (by omega)]
  exact remainder

theorem covered_of_giga {freq : UInt64} (giga : freq.toNat = 10 ^ 9) (time : UInt64) :
    Covered freq time := by
  rw [Covered, giga]
  omega

/-- The count of one second. -/
theorem covered_self_iff {freq : UInt64} (positive : 0 < freq.toNat) :
    Covered freq freq ↔ ((freq.toNat : Int) - 10 ^ 9) * 10 ^ 9 % 2 ^ 64 < freq.toNat := by
  rw [Covered, Int.mul_emod_right, Int.ediv_self (by omega), Int.one_mul, Int.zero_add]

/-- At every other frequency the conversion fails after one or two seconds. -/
theorem exists_not_covered {freq : UInt64} (positive : 0 < freq.toNat)
    (small : freq.toNat < 2 ^ 34) (other : freq.toNat ≠ 10 ^ 9) :
    ∃ time, Fits freq time ∧ ¬ Covered freq time := by
  by_cases next : freq = 1000000001
  · subst next
    exact ⟨2000000002, by rw [Fits]; decide, by rw [Covered]; decide⟩
  · have apart : freq.toNat ≠ 10 ^ 9 + 1 := fun same => next (UInt64.toNat_inj.mp same)
    refine ⟨freq, ?_, ?_⟩
    · rw [Fits, Nat.mul_div_cancel_left _ positive]
      decide
    · rw [covered_self_iff positive]
      rcases lt_or_gt_of_ne other with below | above
      · have wraps : ((freq.toNat : Int) - 10 ^ 9) * 10 ^ 9 % 2 ^ 64 =
            ((freq.toNat : Int) - 10 ^ 9) * 10 ^ 9 + 2 ^ 64 := by
          rw [← Int.add_emod_right]
          exact Int.emod_eq_of_lt (by omega) (by omega)
        omega
      · have stays : ((freq.toNat : Int) - 10 ^ 9) * 10 ^ 9 % 2 ^ 64 =
            ((freq.toNat : Int) - 10 ^ 9) * 10 ^ 9 :=
          Int.emod_eq_of_lt (by omega) (by omega)
        omega

/-- For every frequency and every count the conversions are exact if and only if the error of the
rest is covered, as it is for counts of less than a second; and those of all counts are exact, and
keep their order, if and only if the frequency is `10 ^ 9`. -/
theorem converts_iff_covered {freq : UInt64} (positive : 0 < freq.toNat)
    (small : freq.toNat < 2 ^ 34) :
    (∀ time, Fits freq time → (Converts freq time ↔ Covered freq time)) ∧
    (∀ time, time < freq → Covered freq time) ∧
    ((∀ time, Fits freq time → Converts freq time) ∧
      (∀ time later, time ≤ later → Fits freq time → Fits freq later →
        toNonoseconds freq time ≤ toNonoseconds freq later) ↔ freq.toNat = 10 ^ 9) := by
  refine ⟨fun time fits => converts_iff positive small fits,
    fun time less => covered_of_lt (UInt64.lt_iff_toNat_lt.mp less), ?_, ?_⟩
  · rintro ⟨converts, -⟩
    by_contra other
    obtain ⟨time, fits, uncovered⟩ := exists_not_covered positive small other
    exact uncovered ((converts_iff positive small fits).mp (converts time fits))
  · intro giga
    have converts : ∀ time, Fits freq time → Converts freq time := fun time fits =>
      (converts_iff positive small fits).mpr (covered_of_giga giga time)
    refine ⟨converts, ?_⟩
    intro time later order fits fits'
    rw [UInt64.le_iff_toNat_le, (converts time fits).nanoseconds,
      (converts later fits').nanoseconds]
    exact Nat.div_le_div_right (Nat.mul_le_mul_right _ (UInt64.le_iff_toNat_le.mp order))

/-- At 2.5 GHz, half a second is exact. -/
theorem converts_iff_covered_half :
    Fits 2500000000 1250000000 ∧ Converts 2500000000 1250000000 := by
  have fits : Fits 2500000000 1250000000 := by
    rw [Fits]
    decide
  have result := @converts_iff_covered 2500000000 (by decide) (by decide)
  exact ⟨fits, (result.1 1250000000 fits).mpr (result.2.1 1250000000 (by decide))⟩

/-- One second at 2 GHz becomes one and a half. -/
theorem second_prolonged :
    Fits 2000000000 2000000000 ∧ toNonoseconds 2000000000 2000000000 = 1500000000 ∧
      ¬ Converts 2000000000 2000000000 := by
  have result : toNonoseconds 2000000000 2000000000 = 1500000000 := by
    decide
  refine ⟨by rw [Fits]; decide, result, ?_⟩
  intro converts
  have nanoseconds := converts.nanoseconds
  rw [result] at nanoseconds
  exact absurd nanoseconds (by decide)

end Timestamp

end Mcast

import Mathlib.Data.Nat.Size
import Mathlib.Data.Nat.Bitwise
import Mathlib.Data.Nat.ModEq

/-!
# Spreading bits and masking free-running counters

Or-ing a number with its own right shift doubles the distance over which each bit sets the bits
below it; when the distance covers the number, the result is the all-ones number of its length.
Left shifts of a 64-bit word set the bits above in the same way, up to the highest bit of the word.
Masking a 64-bit counter by a power of two less one is reduction modulo this power, which commutes
with the wrap of the counter.
-/

namespace Bits

/-- A bit of the result is set when one of the next `width` bits of the source, from its own on,
is set. -/
def Spread (source width result : Nat) : Prop :=
  ∀ i, result.testBit i = true ↔ ∃ j, i ≤ j ∧ j < i + width ∧ source.testBit j = true

theorem Spread.one (source : Nat) : Spread source 1 source := by
  intro i
  constructor
  · intro set
    exact ⟨i, le_rfl, Nat.lt_succ_self i, set⟩
  · rintro ⟨j, above, below, set⟩
    obtain rfl : i = j := by omega
    exact set

/-- One shift by the width doubles the width. -/
theorem Spread.double {source width result : Nat} (spread : Spread source width result) :
    Spread source (width + width) (result ||| result >>> width) := by
  intro i
  rw [Nat.testBit_or, Nat.testBit_shiftRight, Bool.or_eq_true, spread i, spread (width + i)]
  constructor
  · rintro (⟨j, above, below, set⟩ | ⟨j, above, below, set⟩)
    · exact ⟨j, above, by omega, set⟩
    · exact ⟨j, by omega, by omega, set⟩
  · rintro ⟨j, above, below, set⟩
    rcases Nat.lt_or_ge j (i + width) with near | far
    · exact Or.inl ⟨j, above, near, set⟩
    · exact Or.inr ⟨j, by omega, by omega, set⟩

/-- The same for a shift of a 64-bit word. -/
theorem Spread.shift {source width : Nat} {word : UInt64} (spread : Spread source width word.toNat)
    (short : width < 64) :
    Spread source (width + width) (word ||| word >>> UInt64.ofNat width).toNat := by
  have amount : (UInt64.ofNat width).toNat % 64 = width := by
    rw [UInt64.toNat_ofNat_of_lt' (short.trans (by decide)), Nat.mod_eq_of_lt short]
  rw [UInt64.toNat_or, UInt64.toNat_shiftRight, amount]
  exact spread.double

/-- A spread over the whole length of the source sets all bits up to its highest one. -/
theorem Spread.eq_two_pow {source width result : Nat} (spread : Spread source width result)
    (covered : source < 2 ^ width) : result = 2 ^ source.size - 1 := by
  apply Nat.eq_of_testBit_eq
  intro i
  rw [Nat.testBit_two_pow_sub_one, Bool.eq_iff_iff, spread i, decide_eq_true_iff, Nat.lt_size]
  constructor
  · rintro ⟨j, above, -, set⟩
    exact (Nat.pow_le_pow_right (by decide) above).trans (Nat.ge_two_pow_of_testBit set)
  · intro large
    obtain ⟨j, above, set⟩ := Nat.exists_ge_and_testBit_of_ge_two_pow large
    have short : j < width :=
      (Nat.pow_lt_pow_iff_right (by decide)).mp ((Nat.ge_two_pow_of_testBit set).trans_lt covered)
    exact ⟨j, above, by omega, set⟩

/-- A bit of the word is set when one of the last `width` bits of the source, down from its own, is
set. -/
def Rise (source width result : Nat) : Prop :=
  ∀ i < 64, result.testBit i = true ↔ ∃ j, j ≤ i ∧ i < j + width ∧ source.testBit j = true

theorem Rise.one (source : Nat) : Rise source 1 source := by
  intro i _
  constructor
  · intro set
    exact ⟨i, le_rfl, Nat.lt_succ_self i, set⟩
  · rintro ⟨j, below, above, set⟩
    obtain rfl : i = j := by omega
    exact set

/-- One shift by the width doubles the width. -/
theorem Rise.shift {source width : Nat} {word : UInt64} (rise : Rise source width word.toNat)
    (short : width < 64) :
    Rise source (width + width) (word ||| word <<< UInt64.ofNat width).toNat := by
  intro i inside
  have amount : (UInt64.ofNat width).toNat % 64 = width := by
    rw [UInt64.toNat_ofNat_of_lt' (short.trans (by decide)), Nat.mod_eq_of_lt short]
  rw [UInt64.toNat_or, UInt64.toNat_shiftLeft, amount, Nat.testBit_or, Nat.testBit_mod_two_pow,
    Nat.testBit_shiftLeft, Bool.or_eq_true, rise i inside]
  simp only [inside, decide_true, Bool.true_and, Bool.and_eq_true, decide_eq_true_eq,
    rise (i - width) (by omega)]
  constructor
  · rintro (⟨j, below, above, set⟩ | ⟨far, j, below, above, set⟩)
    · exact ⟨j, below, by omega, set⟩
    · exact ⟨j, by omega, by omega, set⟩
  · rintro ⟨j, below, above, set⟩
    rcases Nat.lt_or_ge i (j + width) with near | far
    · exact Or.inl ⟨j, below, near, set⟩
    · exact Or.inr ⟨by omega, j, by omega, by omega, set⟩

/-- A rise over the whole word sets the highest bit. -/
theorem Rise.highest {source result : Nat} (rise : Rise source 64 result) (nonzero : source ≠ 0)
    (small : source < 2 ^ 64) : result.testBit 63 = true := by
  obtain ⟨j, set⟩ := Nat.exists_testBit_of_ne_zero nonzero
  have short : j < 64 :=
    (Nat.pow_lt_pow_iff_right (by decide)).mp ((Nat.ge_two_pow_of_testBit set).trans_lt small)
  exact (rise 63 (by decide)).mpr ⟨j, by omega, by omega, set⟩

/-- The length of `x - 1` is the exponent of the least power of two that is at least `x`. -/
theorem size_pred_le_iff {x k : Nat} (positive : 0 < x) : (x - 1).size ≤ k ↔ x ≤ 2 ^ k := by
  rw [Nat.size_le]
  omega

section Masks

variable {capacity : UInt64} {k : Nat}

/-- The mask of a power of two reduces modulo this power. -/
theorem toNat_and_pred (power : capacity.toNat = 2 ^ k) (p : UInt64) :
    (p &&& (capacity - 1)).toNat = p.toNat % 2 ^ k := by
  have positive : 1 ≤ capacity := by
    rw [UInt64.le_iff_toNat_le, power]
    exact Nat.one_le_two_pow
  have mask : (capacity - 1).toNat = 2 ^ k - 1 := by
    rw [UInt64.toNat_sub_of_le _ _ positive, power]
    rfl
  rw [UInt64.toNat_and, mask, Nat.and_two_pow_sub_one_eq_mod]

/-- A counter that wraps at `2 ^ 64` keeps its residue modulo a smaller power of two. -/
theorem toNat_add_ofNat_mod (small : k ≤ 64) (p : UInt64) (i : Nat) :
    (p + UInt64.ofNat i).toNat % 2 ^ k = (p.toNat + i) % 2 ^ k := by
  have divides : 2 ^ k ∣ 2 ^ 64 := Nat.pow_dvd_pow 2 small
  rw [UInt64.toNat_add, UInt64.toNat_ofNat', Nat.add_mod_mod, Nat.mod_mod_of_dvd _ divides]

end Masks

/-- Offsets below the word size lead to different words. -/
theorem add_ofNat_inj {p : UInt64} {i j : Nat} (first : i < 2 ^ 64) (second : j < 2 ^ 64)
    (same : p + UInt64.ofNat i = p + UInt64.ofNat j) : i = j := by
  have offsets := congrArg UInt64.toNat ((UInt64.add_right_inj p).mp same)
  rwa [UInt64.toNat_ofNat_of_lt' first, UInt64.toNat_ofNat_of_lt' second] at offsets

/-- Two offsets below one turn from the same start have different residues. -/
theorem eq_of_add_mod_eq {start i j turn : Nat} (first : i < turn) (second : j < turn)
    (same : (start + i) % turn = (start + j) % turn) : i = j := by
  have congruent : Nat.ModEq turn i j := Nat.ModEq.add_left_cancel' start same
  exact congruent.eq_of_lt_of_lt first second

end Bits

import Mcast.Bits

/-!
# Powers of two

`PowOfTwo` and `IsPowOfTwo` of `src/util/util.h`.  `PowOfTwo` spreads the bits of `x - 1` downwards
and adds one.  `IsPowOfTwo` spreads the bits of `x` upwards, which always sets the highest bit; it
subtracts one and asks whether the result and itself have no bit in common.  The result is never
zero, for the argument zero it wraps, so that the answer is false for every argument.
-/

namespace Mcast

/-- `PowOfTwo` of `util.h`. -/
def powOfTwo (x : UInt64) : UInt64 :=
  let x := x - 1
  let x := x ||| x >>> 1
  let x := x ||| x >>> 2
  let x := x ||| x >>> 4
  let x := x ||| x >>> 8
  let x := x ||| x >>> 16
  let x := x ||| x >>> 32
  x + 1

theorem toNat_powOfTwo_mod (x : UInt64) :
    (powOfTwo x).toNat = 2 ^ (x - 1).toNat.size % 2 ^ 64 := by
  -- One spread for each assignment of the source: the distance doubles from 1 to 64 bits.
  have spread1 := Bits.Spread.one (x - 1).toNat
  have spread2 := spread1.shift (by decide)
  have spread4 := spread2.shift (by decide)
  have spread8 := spread4.shift (by decide)
  have spread16 := spread8.shift (by decide)
  have spread32 := spread16.shift (by decide)
  have spread64 := spread32.shift (by decide)
  have ones := spread64.eq_two_pow (UInt64.toNat_lt (x - 1))
  rw [powOfTwo, UInt64.toNat_add]
  change (_ + 1) % 2 ^ 64 = _
  refine (congrArg (fun n => (n + 1) % 2 ^ 64) ones).trans ?_
  rw [Nat.sub_add_cancel Nat.one_le_two_pow]

/-- The result of `PowOfTwo` is a power of two. -/
theorem toNat_powOfTwo {x : UInt64} (positive : 1 ≤ x.toNat) (small : x.toNat ≤ 2 ^ 63) :
    (powOfTwo x).toNat = 2 ^ (x.toNat - 1).size := by
  have pred : (x - 1).toNat = x.toNat - 1 :=
    UInt64.toNat_sub_of_le _ _ (UInt64.le_iff_toNat_le.mpr positive)
  have exponent : (x.toNat - 1).size ≤ 63 := (Bits.size_pred_le_iff positive).mpr small
  have bound : 2 ^ (x.toNat - 1).size ≤ 2 ^ 63 := Nat.pow_le_pow_right (by decide) exponent
  rw [toNat_powOfTwo_mod, pred, Nat.mod_eq_of_lt (by omega)]

/-- The result is zero where the power does not fit the word, and for zero. -/
theorem powOfTwo_pos_iff {x : UInt64} :
    0 < powOfTwo x ↔ 1 ≤ x.toNat ∧ x.toNat ≤ 2 ^ 63 := by
  constructor
  · intro positive
    rw [UInt64.lt_iff_toNat_lt, toNat_powOfTwo_mod] at positive
    have exponent : (x - 1).toNat.size ≤ 63 := by
      have width : (x - 1).toNat.size ≤ 64 := Nat.size_le.mpr (UInt64.toNat_lt (x - 1))
      rcases Nat.le_succ_iff.mp width with small | full
      · exact small
      · rw [full] at positive
        cases positive
    have pred := UInt64.toNat_sub x 1
    have low := Nat.size_le.mp exponent
    rw [UInt64.toNat_one] at pred
    have limit := UInt64.toNat_lt x
    omega
  · rintro ⟨positive, small⟩
    rw [UInt64.lt_iff_toNat_lt, toNat_powOfTwo positive small]
    exact Nat.two_pow_pos _

/-- It is the least power of two that is not below the argument. -/
theorem powOfTwo_le_iff {x : UInt64} (positive : 1 ≤ x.toNat) (small : x.toNat ≤ 2 ^ 63)
    (k : Nat) : (powOfTwo x).toNat ≤ 2 ^ k ↔ x.toNat ≤ 2 ^ k := by
  rw [toNat_powOfTwo positive small, Nat.pow_le_pow_iff_right (by decide),
    Bits.size_pred_le_iff positive]

/-- `IsPowOfTwo`, behind its assertion. -/
def isPowOfTwo (x : UInt64) : Bool :=
  let x := x ||| x <<< 1
  let x := x ||| x <<< 2
  let x := x ||| x <<< 4
  let x := x ||| x <<< 8
  let x := x ||| x <<< 16
  let x := x ||| x <<< 32
  let x := x - 1
  (x &&& x) == 0

/-- `IsPowOfTwo` is false: the spread word has its highest bit, so it is not one. -/
theorem isPowOfTwo_eq_false {x : UInt64} (positive : 1 ≤ x.toNat) : isPowOfTwo x = false := by
  have rise1 := Bits.Rise.one x.toNat
  have rise2 := rise1.shift (by decide)
  have rise4 := rise2.shift (by decide)
  have rise8 := rise4.shift (by decide)
  have rise16 := rise8.shift (by decide)
  have rise32 := rise16.shift (by decide)
  have rise64 := rise32.shift (by decide)
  have highest := rise64.highest (by omega) (UInt64.toNat_lt x)
  rw [isPowOfTwo, beq_eq_false_iff_ne]
  simp only [UInt64.and_self]
  intro zero
  rw [UInt64.sub_eq_iff_eq_add, UInt64.zero_add] at zero
  have one := congrArg (fun word => word.toNat.testBit 63) zero
  exact absurd (highest.symm.trans one) (by decide)

theorem powOfTwo_eq_self_iff {x : UInt64} (positive : 1 ≤ x.toNat) (small : x.toNat ≤ 2 ^ 63) :
    powOfTwo x = x ↔ ∃ k, x.toNat = 2 ^ k := by
  constructor
  · intro same
    refine ⟨(x.toNat - 1).size, ?_⟩
    rw [← toNat_powOfTwo positive small, same]
  · rintro ⟨k, power⟩
    have low : x.toNat ≤ (powOfTwo x).toNat := by
      rw [toNat_powOfTwo positive small, ← Bits.size_pred_le_iff positive]
    have high : (powOfTwo x).toNat ≤ x.toNat := by
      rw [power, powOfTwo_le_iff positive small, power]
    exact UInt64.toNat_inj.mp (Nat.le_antisymm high low)

/-- `PowOfTwo` gives the least power of two that is not below its argument. -/
structure RoundsUp (x : UInt64) : Prop where
  power : ∃ k, (powOfTwo x).toNat = 2 ^ k
  above : x ≤ powOfTwo x
  least : ∀ k, x.toNat ≤ 2 ^ k → (powOfTwo x).toNat ≤ 2 ^ k

/-- `IsPowOfTwo` tells the arguments that `PowOfTwo` leaves as they are. -/
structure Agrees (x : UInt64) : Prop extends RoundsUp x where
  test : isPowOfTwo x = true ↔ powOfTwo x = x

theorem roundsUp {x : UInt64} (positive : 1 ≤ x.toNat) (small : x.toNat ≤ 2 ^ 63) :
    RoundsUp x where
  power := ⟨_, toNat_powOfTwo positive small⟩
  above := by
    rw [UInt64.le_iff_toNat_le, toNat_powOfTwo positive small, ← Bits.size_pred_le_iff positive]
  least := fun k => (powOfTwo_le_iff positive small k).mpr

/-- `PowOfTwo` is right for every argument, and `IsPowOfTwo` for those that are no powers of two. -/
theorem agrees_iff_not_power {x : UInt64} (positive : 1 ≤ x.toNat) (small : x.toNat ≤ 2 ^ 63) :
    RoundsUp x ∧ (Agrees x ↔ ∀ k, x.toNat ≠ 2 ^ k) := by
  have fixed := powOfTwo_eq_self_iff positive small
  refine ⟨roundsUp positive small, ?_⟩
  constructor
  · intro agrees k power
    have told := agrees.test.mpr (fixed.mpr ⟨k, power⟩)
    rw [isPowOfTwo_eq_false positive] at told
    cases told
  · intro other
    refine { roundsUp positive small with test := ?_ }
    rw [isPowOfTwo_eq_false positive, fixed]
    constructor
    · intro told
      cases told
    · rintro ⟨k, power⟩
      exact absurd power (other k)

theorem agrees_iff_not_power_twelve : RoundsUp 12 ∧ Agrees 12 := by
  obtain ⟨rounds, agrees⟩ := @agrees_iff_not_power 12 (by decide) (by decide)
  refine ⟨rounds, agrees.mpr ?_⟩
  intro k power
  have above : 3 < k := (Nat.pow_lt_pow_iff_right (a := 2) (by decide)).mp
    (power ▸ (by decide : 2 ^ 3 < (12 : UInt64).toNat))
  have below : k < 4 := (Nat.pow_lt_pow_iff_right (a := 2) (by decide)).mp
    (power ▸ (by decide : (12 : UInt64).toNat < 2 ^ 4))
  omega

/-- The capacity 16 is a power of two. -/
theorem sixteen_not_recognised :
    powOfTwo 16 = 16 ∧ isPowOfTwo 16 = false ∧ ¬Agrees 16 := by
  refine ⟨by decide, by decide, ?_⟩
  intro agrees
  exact absurd (agrees.test.mpr (by decide)) (by decide)

end Mcast

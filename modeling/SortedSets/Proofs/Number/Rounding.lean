import Mathlib.Algebra.Order.Field.Power
import Mathlib.Tactic.FieldSimp
import Mathlib.Tactic.NormNum
import SortedSets.Number.Reading

/-!
# Rounding decimals

A decimal reads as the magnitude nearest to it. Which one that is depends on the value of the decimal
alone, not on its digits and exponent, and a magnitude is the nearest one to its own value. The
shortest decimal of a magnitude therefore reads back, and so does every decimal of the same value.

## Main definitions

* `Decimal.value`: the number that a decimal stands for

## Main results

* `Magnitude.nearest_congr`: equal fractions have the same nearest magnitude
* `Magnitude.nearest_units`: a magnitude is the nearest one to itself
* `Magnitude.magnitude?_shortest`: the shortest decimal of a magnitude reads back
* `Decimal.score_eq`: a score is rounded to the nearest magnitude, however large the exponent
-/

namespace SortedSets

/-! ## Nearest magnitudes -/

theorem roundDiv_mul_right {k : Nat} (hk : 0 < k) (num den : Nat) :
    roundDiv (num * k) (den * k) = roundDiv num den := by
  have hlt (a b : Nat) : 2 * (a * k) < b * k ↔ 2 * a < b := by
    rw [← Nat.mul_assoc, Nat.mul_lt_mul_right hk]
  have hgt (a b : Nat) : b * k < 2 * (a * k) ↔ b < 2 * a := by
    rw [← Nat.mul_assoc, Nat.mul_lt_mul_right hk]
  simp only [roundDiv, Nat.mul_div_mul_right _ _ hk, Nat.mul_mod_mul_right, hlt, hgt]

/-- A quotient without a remainder is not rounded. -/
theorem roundDiv_mul_self {den : Nat} (hd : 0 < den) (n : Nat) : roundDiv (n * den) den = n := by
  simp [roundDiv, Nat.mul_div_cancel _ hd, hd]

/-- Less than half of a unit is rounded to nothing. -/
theorem roundDiv_eq_zero {num den : Nat} (h : 2 * num < den) : roundDiv num den = 0 := by
  have hlt : num < den := by omega
  simp [roundDiv, Nat.div_eq_of_lt hlt, Nat.mod_eq_of_lt hlt, h]

namespace Magnitude

theorem unitsOfOne_pos : 0 < unitsOfOne := by decide

theorem nearest_mul_right {k : Nat} (hk : 0 < k) (num den : Nat) :
    nearest (num * k) (den * k) = nearest num den := by
  have hnum : num * k * unitsOfOne = num * unitsOfOne * k := by
    rw [Nat.mul_assoc, Nat.mul_comm k, ← Nat.mul_assoc]
  have hden (s : Nat) : (den * k) <<< s = den <<< s * k := by
    rw [Nat.shiftLeft_eq, Nat.shiftLeft_eq, Nat.mul_assoc, Nat.mul_comm k, ← Nat.mul_assoc]
  simp only [nearest, hnum, hden, Nat.mul_div_mul_right _ _ hk, roundDiv_mul_right hk]

/-- Equal fractions have the same nearest magnitude. -/
theorem nearest_congr {num den num' den' : Nat} (hd : 0 < den) (hd' : 0 < den')
    (h : num * den' = num' * den) : nearest num den = nearest num' den' :=
  calc nearest num den = nearest (num * den') (den * den') := (nearest_mul_right hd' num den).symm
    _ = nearest (num' * den) (den' * den) := by rw [h, Nat.mul_comm den]
    _ = nearest num' den' := nearest_mul_right hd num' den'

/-- A magnitude is put together from its parts again. -/
theorem ofRounded?_parts (m : Magnitude) : ofRounded? m.significand m.scale = some m := by
  rw [ofRounded?, dif_pos ⟨m.significand_lt, m.scale_le, m.normal⟩]

/-- The scale of a magnitude is read off its size. -/
theorem scale_of_units (m : Magnitude) : m.units.log2 + 1 - 53 = m.scale := by
  obtain ⟨significand, scale, hlt, -, hnormal⟩ := m
  simp only [units]
  rw [Nat.shiftLeft_eq] at *
  rcases hnormal with rfl | hge
  · -- at the smallest scale the significand may be short
    rcases Nat.eq_zero_or_pos significand with rfl | hpos
    · simp
    · have hlog : significand.log2 < 53 := (Nat.log2_lt (by omega)).2 (by simpa using hlt)
      rw [Nat.pow_zero, Nat.mul_one]
      omega
  · -- at the others it has all of its bits
    have hpos : 0 < 2 ^ scale := Nat.two_pow_pos scale
    have hlog : (significand * 2 ^ scale).log2 = 52 + scale := by
      refine (Nat.log2_eq_iff (by positivity)).2 ⟨?_, ?_⟩
      · rw [Nat.pow_add]
        exact Nat.mul_le_mul_right _ hge
      · rw [Nat.add_right_comm, Nat.pow_add]
        exact Nat.mul_lt_mul_of_pos_right hlt hpos
    omega

/-- A magnitude is the nearest one to itself. -/
theorem nearest_units (m : Magnitude) : nearest m.units unitsOfOne = some m := by
  have hquot : m.units * unitsOfOne = m.significand * unitsOfOne <<< m.scale := by
    rw [units, Nat.shiftLeft_eq, Nat.shiftLeft_eq, Nat.mul_assoc, Nat.mul_comm unitsOfOne]
  have hpos : 0 < unitsOfOne <<< m.scale := by
    rw [Nat.shiftLeft_eq]
    exact Nat.mul_pos unitsOfOne_pos (Nat.two_pow_pos _)
  rw [nearest, Nat.mul_div_cancel _ unitsOfOne_pos, scale_of_units, hquot, roundDiv_mul_self hpos,
    ofRounded?_parts]

/-- A fraction below half of the smallest magnitude is nearest to zero. -/
theorem nearest_of_lt {num den : Nat} (h : 2 * (num * unitsOfOne) < den) :
    nearest num den = some zero := by
  have hquot : num * unitsOfOne / den = 0 := Nat.div_eq_of_lt (by omega)
  rw [nearest, hquot, Nat.log2_zero, Nat.shiftLeft_zero, roundDiv_eq_zero h]
  rfl

/-- A fraction far past the largest magnitude is nearest to none. -/
theorem nearest_of_le {num den : Nat} (hd : 0 < den) (h : den * unitsOfOne ≤ num) :
    nearest num den = none := by
  have hquot : unitsOfOne * unitsOfOne ≤ num * unitsOfOne / den := by
    rw [Nat.le_div_iff_mul_le hd, Nat.mul_comm _ den, ← Nat.mul_assoc]
    exact Nat.mul_le_mul_right _ h
  have hpos : unitsOfOne * unitsOfOne ≠ 0 :=
    Nat.ne_of_gt (Nat.mul_pos unitsOfOne_pos unitsOfOne_pos)
  -- the scale alone is past the last one
  have hlog : 2099 ≤ (num * unitsOfOne / den).log2 :=
    calc 2099 ≤ (unitsOfOne * unitsOfOne).log2 := by decide +kernel
      _ ≤ (num * unitsOfOne / den).log2 :=
        (Nat.le_log2 (by omega)).2 ((Nat.log2_self_le hpos).trans hquot)
  rw [nearest, ofRounded?, dif_neg (by omega), dif_neg (by omega)]

end Magnitude

/-! ## Decimals -/

theorem tenTo_pos (k : Nat) : 0 < tenTo k := Nat.pow_pos (by decide)

namespace Decimal

/-- The number that a decimal stands for. -/
def value (d : Decimal) : ℚ :=
  d.digits * 10 ^ d.exponent

theorem cast_tenTo (k : Nat) : (tenTo k : ℚ) = 10 ^ (k : Int) := by simp [tenTo]

/-- The magnitude of a decimal is the one nearest to a fraction of its value. -/
theorem exists_magnitude?_eq (d : Decimal) :
    ∃ num den : Nat, 0 < den ∧ (num : ℚ) = d.value * den ∧
      d.magnitude? = Magnitude.nearest num den := by
  rw [magnitude?, value]
  by_cases h : 0 ≤ d.exponent
  · obtain ⟨k, hk⟩ := Int.eq_ofNat_of_zero_le h
    refine ⟨d.digits * tenTo d.exponent.natAbs, 1, one_pos, ?_, if_pos h⟩
    rw [hk]
    simp [cast_tenTo]
  · obtain ⟨k, hk⟩ := Int.eq_negSucc_of_lt_zero (by omega : d.exponent < 0)
    refine ⟨d.digits, tenTo d.exponent.natAbs, tenTo_pos _, ?_, if_neg h⟩
    rw [hk, Int.natAbs_negSucc, cast_tenTo, zpow_natCast, zpow_negSucc]
    field_simp

/-- Decimals of the same value read as the same magnitude. -/
theorem magnitude?_congr {d d' : Decimal} (h : d.value = d'.value) :
    d.magnitude? = d'.magnitude? := by
  obtain ⟨num, den, hd, hv, hm⟩ := d.exists_magnitude?_eq
  obtain ⟨num', den', hd', hv', hm'⟩ := d'.exists_magnitude?_eq
  rw [hm, hm']
  refine Magnitude.nearest_congr hd hd' ?_
  have hcast : (num * den' : ℚ) = num' * den := by rw [hv, hv', h, mul_right_comm]
  exact_mod_cast hcast

end Decimal

/-! ## Shortest decimals -/

namespace Magnitude

/-- The exact decimal of a magnitude reads back. -/
theorem magnitude?_exact (m : Magnitude) : m.exact.magnitude? = some m := by
  have hten : Nat.pow 5 1074 * unitsOfOne = tenTo 1074 := by decide +kernel
  have hneg : ¬ (0 : Int) ≤ -1074 := by decide
  have habs : (-1074 : Int).natAbs = 1074 := rfl
  unfold exact
  generalize Nat.pow 5 1074 = p at *
  simp only [Decimal.magnitude?, if_neg hneg, habs]
  refine (nearest_congr (tenTo_pos 1074) unitsOfOne_pos ?_).trans m.nearest_units
  rw [Nat.mul_assoc, hten]

theorem magnitude?_of_readingBack? {m : Magnitude} {ds : List Decimal} {d : Decimal}
    (h : m.readingBack? ds = some d) : d.magnitude? = some m := by
  rw [readingBack?] at h
  simpa using List.find?_some h

/-- The shortest decimal of a magnitude reads back. -/
theorem magnitude?_shortest (m : Magnitude) : m.shortest.magnitude? = some m := by
  rw [shortest]
  cases hs : (List.range 17).findSome? fun (k : Nat) => m.readingBack?
      (Decimal.around m.units unitsOfOne (Decimal.leading m.units unitsOfOne - k)) with
  | none => exact m.magnitude?_exact
  | some d =>
    obtain ⟨k, -, hk⟩ := List.exists_of_findSome?_eq_some hs
    exact magnitude?_of_readingBack? hk

end Magnitude

/-! ## Large exponents -/

namespace Decimal

variable {d : Decimal}

/-- The first digit of a decimal stands below its top. -/
theorem value_lt (d : Decimal) : d.value < 10 ^ d.top := by
  have hdigits : d.digits < 10 ^ (decimalNat d.digits).length :=
    (Nat.length_toDigits_le_iff (by decide) Nat.length_toDigits_pos).1 (Nat.le_refl _)
  have hten : (0 : ℚ) < 10 ^ d.exponent := by positivity
  rw [value, top, zpow_add₀ (by decide), zpow_natCast]
  exact mul_lt_mul_of_pos_right (by exact_mod_cast hdigits) hten

/-- And it is not zero, unless all digits are. -/
theorem le_value (h : d.digits ≠ 0) : 10 ^ (d.top - 1) ≤ d.value := by
  obtain ⟨k, hk⟩ := Nat.exists_eq_add_of_lt (Nat.length_toDigits_pos (b := 10) (n := d.digits))
  have hdigits : 10 ^ k ≤ d.digits := by
    by_contra hlt
    have hpos : 0 < k := Nat.pos_of_ne_zero fun h0 => by
      rw [h0, Nat.pow_zero] at hlt
      omega
    have hle := (Nat.length_toDigits_le_iff (by decide) hpos).2 (Nat.lt_of_not_le hlt)
    omega
  have htop : d.top - 1 = k + d.exponent := by
    rw [top, decimalNat, hk]
    omega
  have hten : (0 : ℚ) < 10 ^ d.exponent := by positivity
  rw [value, htop, zpow_add₀ (by decide), zpow_natCast]
  exact mul_le_mul_of_nonneg_right (by exact_mod_cast hdigits) hten.le

theorem magnitude?_of_digits (h : d.digits = 0) : d.magnitude? = some .zero := by
  obtain ⟨num, den, hd, hv, hm⟩ := d.exists_magnitude?_eq
  have hnum : num = 0 := by
    have hcast : (num : ℚ) = 0 := by rw [hv, value, h]; simp
    exact_mod_cast hcast
  rw [hm, hnum]
  exact Magnitude.nearest_of_lt (by simpa using hd)

/-- Two to the 1075 is less than ten to the 400. -/
theorem two_mul_unitsOfOne_le : 2 * Magnitude.unitsOfOne ≤ tenTo 400 := by decide +kernel

theorem magnitude?_of_large (h : d.digits ≠ 0) (htop : 400 < d.top) : d.magnitude? = none := by
  obtain ⟨num, den, hd, hv, hm⟩ := d.exists_magnitude?_eq
  have hvalue : (tenTo 400 : ℚ) ≤ d.value :=
    calc (tenTo 400 : ℚ) = 10 ^ (400 : Int) := cast_tenTo 400
      _ ≤ 10 ^ (d.top - 1) := zpow_le_zpow_right₀ (by norm_num) (by omega)
      _ ≤ d.value := le_value h
  have hnum : tenTo 400 * den ≤ num := by
    have hcast : (tenTo 400 : ℚ) * den ≤ num := hv ▸ mul_le_mul_of_nonneg_right hvalue (by positivity)
    exact_mod_cast hcast
  have hunits := two_mul_unitsOfOne_le
  rw [hm]
  refine Magnitude.nearest_of_le hd ?_
  calc den * Magnitude.unitsOfOne ≤ den * tenTo 400 := Nat.mul_le_mul_left _ (by omega)
    _ = tenTo 400 * den := Nat.mul_comm ..
    _ ≤ num := hnum

theorem magnitude?_of_small (htop : d.top < -400) : d.magnitude? = some .zero := by
  obtain ⟨num, den, hd, hv, hm⟩ := d.exists_magnitude?_eq
  -- so small a decimal is far below half of the smallest unit
  have hvalue : d.value * tenTo 400 < 1 :=
    calc d.value * tenTo 400 < 10 ^ d.top * 10 ^ (400 : Int) := by
          rw [cast_tenTo]
          exact mul_lt_mul_of_pos_right d.value_lt (by positivity)
      _ = 10 ^ (d.top + 400) := (zpow_add₀ (by norm_num) ..).symm
      _ ≤ 10 ^ (0 : Int) := zpow_le_zpow_right₀ (by norm_num) (by omega)
      _ = 1 := zpow_zero _
  have hnum : num * tenTo 400 < den := by
    have hcast : (num : ℚ) * tenTo 400 < den := by
      rw [hv, mul_right_comm]
      exact mul_lt_of_lt_one_left (by exact_mod_cast hd) hvalue
    exact_mod_cast hcast
  rw [hm]
  refine Magnitude.nearest_of_lt ?_
  calc 2 * (num * Magnitude.unitsOfOne) = num * (2 * Magnitude.unitsOfOne) := Nat.mul_left_comm ..
    _ ≤ num * tenTo 400 := Nat.mul_le_mul_left _ two_mul_unitsOfOne_le
    _ < den := hnum

/-- A score is rounded to the nearest magnitude, however large the exponent. -/
theorem score_eq (negative : Bool) (d : Decimal) :
    d.score negative = .ofRounded negative d.magnitude? := by
  rw [score]
  split
  · next h => rw [magnitude?_of_digits h]; rfl
  · next h =>
    split
    · rfl
    · split
      · rw [magnitude?_of_large h (by omega)]; rfl
      · rw [magnitude?_of_small (by omega)]; rfl

end Decimal

end SortedSets

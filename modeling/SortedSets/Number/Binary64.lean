/-!
# Scores as binary fractions

A score is a 64-bit binary fraction: not a number, an infinity, or a signed magnitude. A
magnitude is a significand of at most 53 bits times a power of two, counted from the smallest
one, so that all arithmetic is exact arithmetic on natural numbers followed by one rounding.

## Main definitions

* `Magnitude`: the absolute value of a finite score
* `Magnitude.nearest`: the magnitude nearest to a fraction, a half going to the even neighbour
* `Binary64`: scores
* `Binary64.ofInt?`, `Binary64.mul`, `Binary64.half`, `Binary64.reciprocal?`: exact results
  rounded once

## Main results

* `Magnitude.eq_of_units_eq`: a magnitude is determined by its value
-/

namespace SortedSets

/-- A quotient rounded to the nearest integer, a half to the even one. -/
def roundDiv (num den : Nat) : Nat :=
  let q := num / den
  let r := num % den
  if 2 * r < den then q
  else if den < 2 * r then q + 1
  else q + q % 2

/-- The absolute value of a finite score: `significand` times two to the `scale - 1074`. Either
the scale is the smallest one or the significand has all of its 53 bits. -/
structure Magnitude where
  significand : Nat
  scale : Nat
  significand_lt : significand < 1 <<< 53
  scale_le : scale ≤ 2045
  normal : scale = 0 ∨ 1 <<< 52 ≤ significand
deriving DecidableEq, Repr

namespace Magnitude

/-- The magnitude zero. -/
def zero : Magnitude where
  significand := 0
  scale := 0
  significand_lt := by decide
  scale_le := by decide
  normal := .inl rfl

instance : Inhabited Magnitude := ⟨zero⟩

/-- A magnitude counted in the smallest one, which is two to the `-1074`. -/
def units (m : Magnitude) : Nat :=
  m.significand <<< m.scale

/-- The number of smallest magnitudes in the number one. -/
def unitsOfOne : Nat := 1 <<< 1074

/-- The magnitude of a significand and a scale; a significand of 54 bits is the carry of a
rounding. None is large enough for a scale beyond the last. -/
def ofRounded? (significand scale : Nat) : Option Magnitude :=
  if h : significand < 1 <<< 53 ∧ scale ≤ 2045 ∧ (scale = 0 ∨ 1 <<< 52 ≤ significand) then
    some ⟨significand, scale, h.1, h.2.1, h.2.2⟩
  else if h : significand = 1 <<< 53 ∧ scale + 1 ≤ 2045 then
    some ⟨1 <<< 52, scale + 1, by decide, h.2, .inr (Nat.le_refl _)⟩
  else none

/-- The magnitude nearest to `num / den`, or none if that is past the largest one. -/
def nearest (num den : Nat) : Option Magnitude :=
  let scaled := num * unitsOfOne
  let scale := (scaled / den).log2 + 1 - 53
  ofRounded? (roundDiv scaled (den <<< scale)) scale

/-- A magnitude is determined by its value. -/
theorem eq_of_units_eq {a b : Magnitude} (h : a.units = b.units) : a = b := by
  have key : ∀ {a b : Magnitude}, a.units = b.units → a.scale ≤ b.scale → a = b := by
    intro a b h hle
    obtain ⟨m, s, hm, hs, hn⟩ := a
    obtain ⟨m', s', hm', hs', hn'⟩ := b
    simp only [units, Nat.shiftLeft_eq] at h hle hn'
    obtain ⟨k, rfl⟩ := Nat.exists_eq_add_of_le hle
    have hm_eq : m = m' * 2 ^ k := by
      refine Nat.eq_of_mul_eq_mul_right (Nat.two_pow_pos s) ?_
      rw [h, Nat.pow_add, Nat.mul_assoc, Nat.mul_comm (2 ^ k)]
    cases k with
    | zero => simp_all
    | succ k =>
      exfalso
      have h52 : 2 ^ 52 ≤ m' := by
        rcases hn' with h0 | h0
        · omega
        · exact h0
      have : 2 ^ 53 ≤ m := by
        rw [hm_eq, Nat.pow_succ]
        have : 1 ≤ 2 ^ k := Nat.one_le_two_pow
        calc 2 ^ 53 = 2 ^ 52 * (1 * 2) := by decide
          _ ≤ m' * (2 ^ k * 2) := Nat.mul_le_mul h52 (Nat.mul_le_mul_right 2 this)
      omega
  rcases Nat.le_total a.scale b.scale with hle | hle
  · exact key h hle
  · exact (key h.symm hle).symm

/-- The whole part of a magnitude. -/
def floor (m : Magnitude) : Nat :=
  m.units / unitsOfOne

end Magnitude

/-- A score: a 64-bit binary fraction. There is one value that is not a number. -/
inductive Binary64 where
  | nan
  | infinity (negative : Bool)
  | finite (negative : Bool) (magnitude : Magnitude)
deriving DecidableEq, Repr

namespace Binary64

/-- The score zero. -/
def zero : Binary64 := finite false Magnitude.zero

instance : Inhabited Binary64 := ⟨zero⟩

/-- The score of a sign and a magnitude that may be past the largest one. -/
def ofRounded (negative : Bool) : Option Magnitude → Binary64
  | some m => finite negative m
  | none => infinity negative

/-- The score nearest to an integer, unless it is past the largest one. -/
def ofInt? (n : Int) : Option Binary64 :=
  (Magnitude.nearest n.natAbs 1).map (finite (n < 0))

/-- The score one. -/
def one : Binary64 := (ofInt? 1).getD zero

/-- The score with the other sign. -/
def neg : Binary64 → Binary64
  | nan => nan
  | infinity s => infinity !s
  | finite s m => finite (!s) m

/-- A finite score counted in the smallest magnitude. -/
def units? : Binary64 → Option Int
  | finite s m => some (if s then -(m.units : Int) else m.units)
  | _ => none

/-- The rounded product of two scores. -/
def mul : Binary64 → Binary64 → Binary64
  | nan, _ => nan
  | _, nan => nan
  | infinity s, infinity t => infinity (s ^^ t)
  | infinity s, finite t m => if m.significand = 0 then nan else infinity (s ^^ t)
  | finite s m, infinity t => if m.significand = 0 then nan else infinity (s ^^ t)
  | finite s m, finite t n =>
    ofRounded (s ^^ t)
      (Magnitude.nearest (m.units * n.units) (Magnitude.unitsOfOne * Magnitude.unitsOfOne))

/-- The rounded half of a score. -/
def half : Binary64 → Binary64
  | finite s m => ofRounded s (Magnitude.nearest m.units (2 * Magnitude.unitsOfOne))
  | x => x

/-- The rounded reciprocal of a score; zero has none. -/
def reciprocal? : Binary64 → Option Binary64
  | nan => some nan
  | infinity s => some (finite s Magnitude.zero)
  | finite s m =>
    if m.significand = 0 then none
    else some (ofRounded s (Magnitude.nearest Magnitude.unitsOfOne m.units))

/-- A finite score without its fraction. -/
def truncate? : Binary64 → Option Int
  | finite s m => some (if s then -(m.floor : Int) else m.floor)
  | _ => none

/-- A score that is zero, of either sign. -/
def isZero : Binary64 → Bool
  | finite _ m => m.significand = 0
  | _ => false

/-- A score greater than zero. -/
def isPositive : Binary64 → Bool
  | nan => false
  | infinity s => !s
  | finite s m => !s && m.significand ≠ 0

/-- A score less than zero. -/
def isNegative : Binary64 → Bool
  | nan => false
  | infinity s => s
  | finite s m => s && m.significand ≠ 0

/-- Equality of scores as numbers: both zeros are equal, and nothing equals what is not a
number. -/
def same : Binary64 → Binary64 → Bool
  | infinity s, infinity t => s == t
  | finite s m, finite t n => (finite s m).units? == (finite t n).units?
  | _, _ => false

/-- A score equals an integer. -/
def sameInt (x : Binary64) (n : Int) : Bool :=
  x.units? == some (n * Magnitude.unitsOfOne)

end Binary64

end SortedSets

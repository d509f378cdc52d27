import SortedSets.Number.Binary64
import SortedSets.Number.Decimal

/-!
# The shortest decimal of a score

A score is written with the fewest significant digits that read back as the same score, and of
those decimals the nearest one. The search tests, for one digit, two digits and so on, the two
decimals next to the score; seventeen digits are enough, and the exact value stands behind them.

## Main definitions

* `Decimal`: a natural number times a power of ten
* `Decimal.magnitude?`: the magnitude a decimal reads back as
* `Magnitude.shortest`: the shortest decimal of a magnitude
* `Binary64.text`: the text of a score
-/

namespace SortedSets

/-- The decimal `digits` times ten to the `exponent`. -/
structure Decimal where
  digits : Nat
  exponent : Int
deriving DecidableEq, Repr

namespace Decimal

/-- The magnitude nearest to a decimal. -/
def magnitude? (d : Decimal) : Option Magnitude :=
  -- rounded once, from the exact quotient
  if 0 ≤ d.exponent then Magnitude.nearest (d.digits * tenTo d.exponent.natAbs) 1
  else Magnitude.nearest d.digits (tenTo d.exponent.natAbs)

/-- The decimals with the given exponent next to `num / den`, the nearer one first and the even
one first if they are equally near. -/
def around (num den : Nat) (exponent : Int) : List Decimal :=
  let n := if exponent < 0 then num * tenTo exponent.natAbs else num
  let d := if exponent < 0 then den else den * tenTo exponent.natAbs
  let below : Decimal := ⟨n / d, exponent⟩
  let above : Decimal := ⟨n / d + 1, exponent⟩
  let r := n % d
  if r = 0 then [below]
  else if 2 * r < d ∨ (2 * r = d ∧ n / d % 2 = 0) then [below, above]
  else [above, below]

/-- The power of ten of the first digit of `num / den`. -/
def leading (num den : Nat) : Int :=
  let e : Int := (decimalNat num).length - (decimalNat den).length
  let fits := if 0 ≤ e then den * tenTo e.natAbs ≤ num else den ≤ num * tenTo e.natAbs
  if fits then e else e - 1

end Decimal

namespace Magnitude

/-- The exact value of a magnitude as a decimal. -/
def exact (m : Magnitude) : Decimal :=
  ⟨m.units * Nat.pow 5 1074, -1074⟩

/-- The first of the decimals that reads back as the magnitude. -/
def readingBack? (m : Magnitude) (ds : List Decimal) : Option Decimal :=
  ds.find? fun d => d.magnitude? = some m

/-- The decimal with the fewest digits that reads back as the magnitude. -/
def shortest (m : Magnitude) : Decimal :=
  let e := Decimal.leading m.units unitsOfOne
  ((List.range 17).findSome? fun (k : Nat) =>
    m.readingBack? (Decimal.around m.units unitsOfOne (e - k))).getD m.exact

end Magnitude

/-- The zeros at the end of a numeral removed. -/
def dropTrailingZeros (cs : List Char) : List Char :=
  (cs.reverse.dropWhile (· = '0')).reverse

/-- The exponent of a score: its sign and at least two digits. -/
def exponentText (e : Int) : List Char :=
  let ds := decimalNat e.natAbs
  'e' :: (if e < 0 then '-' else '+') :: (if ds.length < 2 then '0' :: ds else ds)

/-- The digits of a score with a point after the first `point` of them; scores below one
ten-thousandth or from ten to the sixteenth on have one digit before the point and an exponent. -/
def layout (ds : List Char) (point : Int) : List Char :=
  if point ≤ -4 ∨ 16 < point then
    (match ds with
      | [] => []
      | [d] => [d]
      | d :: rest => d :: '.' :: rest) ++ exponentText (point - 1)
  else if point ≤ 0 then '0' :: '.' :: (List.replicate point.natAbs '0' ++ ds)
  else if ds.length ≤ point.natAbs then
    ds ++ List.replicate (point.natAbs - ds.length) '0' ++ ['.', '0']
  else ds.take point.natAbs ++ '.' :: ds.drop point.natAbs

/-- The text of a magnitude. -/
def Magnitude.text (m : Magnitude) : List Char :=
  if m.significand = 0 then ['0', '.', '0']
  else
    let d := m.shortest
    let ds := decimalNat d.digits
    layout (dropTrailingZeros ds) (ds.length + d.exponent)

/-- The text of a score. -/
def Binary64.text : Binary64 → List Char
  | nan => ['n', 'a', 'n']
  | infinity s => (if s then ['-'] else []) ++ ['i', 'n', 'f']
  | finite s m => (if s then ['-'] else []) ++ m.text

end SortedSets

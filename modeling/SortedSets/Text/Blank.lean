import SortedSets.Text.CodePoint

/-!
# Blanks

A number may stand between blanks. In bytes, and among the ASCII characters of a text, these
are the space and the five controls from the tab to the carriage return; a text may have the
wider spaces of other scripts as well.

## Main definitions

* `isBlankChar`: the ASCII blanks
* `CodePoint.isWideBlank`: the blanks beyond ASCII
-/

namespace SortedSets

/-- The space and the controls from tab to carriage return. -/
def isBlankChar (c : Char) : Bool :=
  c = ' ' ∨ ('\t' ≤ c ∧ c ≤ '\r')

/-- The blanks beyond ASCII, as ranges. -/
def wideBlanks : List (Nat × Nat) :=
  [(0x85, 0x85), (0xA0, 0xA0), (0x1680, 0x1680), (0x2000, 0x200A), (0x2028, 0x2029),
   (0x202F, 0x202F), (0x205F, 0x205F), (0x3000, 0x3000)]

/-- A blank beyond ASCII. -/
def CodePoint.isWideBlank (p : CodePoint) : Bool :=
  wideBlanks.any fun r => r.1 ≤ p.toNat ∧ p.toNat ≤ r.2

example : isBlankChar '\x0b' = true ∧ isBlankChar '\x1c' = false ∧
    (CodePoint.scalar '\u00A0').isWideBlank = true := by decide

end SortedSets

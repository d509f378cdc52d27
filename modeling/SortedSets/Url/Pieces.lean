import SortedSets.Text.CodePoint

/-!
# Pieces of texts

The parts of a URL stand between single characters: a text is cut at the first one, behind the
last one, or at each of them.

## Main definitions

* `Text.cut`: a text at the first code point of a kind
* `Text.afterLast`: a text behind the last code point of a kind
* `Text.pieces`: a text between the code points of a kind
-/

namespace SortedSets

namespace CodePoint

/-- The code point is this character. -/
def is (c : Char) (p : CodePoint) : Bool :=
  p = .scalar c

/-- The value of an ASCII digit. -/
def asciiDigit? (p : CodePoint) : Option Nat :=
  if 48 ≤ p.toNat ∧ p.toNat ≤ 57 then some (p.toNat - 48) else none

/-- The value of a hexadecimal digit. -/
def hexDigit? (p : CodePoint) : Option Nat :=
  let n := p.toNat
  if 48 ≤ n ∧ n ≤ 57 then some (n - 48)
  else if 65 ≤ n ∧ n ≤ 70 then some (n - 55)
  else if 97 ≤ n ∧ n ≤ 102 then some (n - 87)
  else none

/-- An ASCII letter. -/
def isAsciiLetter (p : CodePoint) : Bool :=
  (65 ≤ p.toNat && p.toNat ≤ 90) || (97 ≤ p.toNat && p.toNat ≤ 122)

end CodePoint

namespace Text

/-- The text in front of the first code point of a kind, and the text behind it if there is
one. -/
def cut (f : CodePoint → Bool) : Text → Text × Option Text
  | [] => ([], none)
  | p :: t => if f p then ([], some t) else ((p :: (cut f t).1), (cut f t).2)

/-- The text behind the last code point of a kind, or the whole text. -/
def afterLast (f : CodePoint → Bool) (t : Text) : Text :=
  (t.reverse.takeWhile fun p => !f p).reverse

/-- The pieces of a text between the code points of a kind: one more than there are of those. -/
def pieces (f : CodePoint → Bool) (t : Text) : List Text :=
  t.foldr (fun p acc =>
    if f p then [] :: acc
    else
      match acc with
      | [] => [[p]]
      | s :: rest => (p :: s) :: rest) [[]]

/-- A number in ASCII digits. -/
def asciiNumber? (t : Text) : Option Nat :=
  if t = [] then none
  else t.foldlM (fun n p => p.asciiDigit?.map (10 * n + ·)) 0

example : pieces (·.is '&') (ofString "a&&b") = [ofString "a", [], ofString "b"] := by decide

end Text

end SortedSets

import SortedSets.Bytes

/-!
# Code points

A text is a list of code points. Besides the characters a text may hold lone surrogates, which
have no encoding: a text received from elsewhere is not known to be well formed until it is
encoded.

## Main definitions

* `CodePoint`: a character or a lone surrogate
* `Text`: lists of code points
* `Text.ofString`: the text of a string
-/

namespace SortedSets

/-- A character or a lone surrogate; `surrogate i` is the code point `0xD800 + i`. -/
inductive CodePoint where
  | scalar (c : Char)
  | surrogate (i : Fin 0x800)
deriving DecidableEq, Repr, Inhabited

/-- A text: code points, surrogates among them. -/
abbrev Text := List CodePoint

namespace CodePoint

/-- The number of a code point. -/
def toNat : CodePoint → Nat
  | scalar c => c.toNat
  | surrogate i => 0xD800 + i.val

/-- The code point of a number; numbers beyond the code space have none. -/
def ofNat? (n : Nat) : Option CodePoint :=
  if h : 0xD800 ≤ n ∧ n < 0xE000 then some (surrogate ⟨n - 0xD800, by omega⟩)
  else if n < 0x110000 then some (scalar (Char.ofNat n))
  else none

/-- The character of a code point, if it is one. -/
def char? : CodePoint → Option Char
  | scalar c => some c
  | surrogate _ => none

/-- A code point of the ASCII range. -/
def isAscii (p : CodePoint) : Bool :=
  p.toNat < 0x80

end CodePoint

namespace Text

/-- The text of a list of characters. -/
def ofChars (cs : List Char) : Text :=
  cs.map .scalar

/-- The text of a string. -/
def ofString (s : String) : Text :=
  ofChars s.toList

/-- The characters of a text that holds no surrogate. -/
def chars? (t : Text) : Option (List Char) :=
  t.mapM CodePoint.char?

/-- The characters of a text, each surrogate replaced. -/
def toStringLossy (t : Text) : String :=
  String.ofList (t.map fun p => p.char?.getD '\uFFFD')

@[simp] theorem ofChars_nil : ofChars [] = [] := rfl

@[simp] theorem ofChars_append (cs ds : List Char) :
    ofChars (cs ++ ds) = ofChars cs ++ ofChars ds := List.map_append

end Text

end SortedSets

import SortedSets.Text.CodePoint

/-!
# UTF-8

The encoding of texts, which fails on lone surrogates, and the decoding of bytes. A decoder
that meets an ill-formed sequence reports it once for each maximal part that could have begun a
character, and goes on at the next byte.

## Main definitions

* `Text.utf8?`: the encoding of a text without surrogates
* `Utf8.decode`: the characters of a byte string, `none` for each ill-formed part
* `Utf8.isValid`, `Utf8.decodeLossy`: strict and replacing readings of `Utf8.decode`

## Main results

* `Text.utf8?_ofChars`: a text of characters can be encoded
-/

namespace SortedSets

/-- The bytes of a code point; a surrogate has none. -/
def CodePoint.utf8? : CodePoint → Option Bytes
  | .scalar c => some (String.utf8EncodeChar c)
  | .surrogate _ => none

namespace Text

/-- The UTF-8 encoding of a text, if no surrogate is in it. -/
def utf8? : Text → Option Bytes
  | [] => some []
  | p :: t => do
    let b ← p.utf8?
    let bs ← utf8? t
    return b ++ bs

@[simp] theorem utf8?_nil : utf8? [] = some [] := rfl

theorem utf8?_scalar_cons (c : Char) (t : Text) :
    utf8? (.scalar c :: t) = (utf8? t).map (String.utf8EncodeChar c ++ ·) := by
  simp only [utf8?, CodePoint.utf8?]
  cases utf8? t <;> rfl

theorem utf8?_surrogate_cons (i : Fin 0x800) (t : Text) :
    utf8? (.surrogate i :: t) = none := rfl

/-- A text of characters can be encoded. -/
theorem utf8?_ofChars (cs : List Char) :
    utf8? (ofChars cs) = some (cs.flatMap String.utf8EncodeChar) := by
  induction cs with
  | nil => rfl
  | cons c cs ih =>
    rw [show ofChars (c :: cs) = .scalar c :: ofChars cs from rfl, utf8?_scalar_cons, ih]
    rfl

end Text

namespace Utf8

/-- A character begun: the bits so far, the range of the next byte, and how many bytes follow
that one. -/
structure Begun where
  bits : Nat
  low : UInt8
  high : UInt8
  following : Nat
deriving DecidableEq, Repr

/-- What a byte means at the start of a character: a character of its own, the first byte of a
longer one, or `none` when no character begins with it. -/
def start (b : UInt8) : Option (Char ⊕ Begun) :=
  let n := b.toNat
  if n < 0x80 then some (.inl (Char.ofNat n))
  else if n < 0xC2 then none
  else if n < 0xE0 then some (.inr ⟨n - 0xC0, 0x80, 0xBF, 0⟩)
  else if n = 0xE0 then some (.inr ⟨0, 0xA0, 0xBF, 1⟩)
  else if n = 0xED then some (.inr ⟨13, 0x80, 0x9F, 1⟩)
  else if n < 0xF0 then some (.inr ⟨n - 0xE0, 0x80, 0xBF, 1⟩)
  else if n = 0xF0 then some (.inr ⟨0, 0x90, 0xBF, 2⟩)
  else if n < 0xF4 then some (.inr ⟨n - 0xF0, 0x80, 0xBF, 2⟩)
  else if n = 0xF4 then some (.inr ⟨4, 0x80, 0x8F, 2⟩)
  else none

/-- Decoding in the middle of a character, or between characters. -/
def decodeFrom : Option Begun → Bytes → List (Option Char)
  | none, [] => []
  | some _, [] => [none]
  | none, b :: bs =>
    match start b with
    | none => none :: decodeFrom none bs
    | some (.inl c) => some c :: decodeFrom none bs
    | some (.inr p) => decodeFrom (some p) bs
  | some p, b :: bs =>
    if p.low ≤ b ∧ b ≤ p.high then
      let bits := p.bits * 64 + (b.toNat - 0x80)
      match p.following with
      | 0 => some (Char.ofNat bits) :: decodeFrom none bs
      | k + 1 => decodeFrom (some ⟨bits, 0x80, 0xBF, k⟩) bs
    else
      match start b with
      | none => none :: none :: decodeFrom none bs
      | some (.inl c) => none :: some c :: decodeFrom none bs
      | some (.inr q) => none :: decodeFrom (some q) bs

/-- The characters of a byte string, `none` in place of each ill-formed part. -/
def decode (bs : Bytes) : List (Option Char) :=
  decodeFrom none bs

/-- The byte string is the encoding of some text. -/
def isValid (bs : Bytes) : Bool :=
  (decode bs).all Option.isSome

/-- The characters of a byte string, each ill-formed part replaced by U+FFFD. -/
def decodeLossy (bs : Bytes) : List Char :=
  (decode bs).map fun c => c.getD '\uFFFD'

example : decodeLossy [0x61, 0xE2, 0x82, 0xAC, 0xFF, 0xE2, 0x82] =
    ['a', '€', '\uFFFD', '\uFFFD'] := by decide

end Utf8

end SortedSets

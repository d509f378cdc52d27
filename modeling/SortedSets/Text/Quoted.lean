import SortedSets.Text.Printable

/-!
# Quoted texts and bytes

Messages show a text or a byte string between quotes, in printable characters only. The quote
is `'`, or `"` for a content that holds `'` and no `"`.

## Main definitions

* `Text.quoted`: a text between quotes
* `Bytes.quoted`: a byte string between quotes, marked by `b`
* `Bytes.quotedBuffer`: a mutable byte string
-/

namespace SortedSets

/-- The lowest `width` hexadecimal digits of a number. -/
def hexDigits : (width : Nat) → Nat → List Char
  | 0, _ => []
  | w + 1, n => hexDigits w (n / 16) ++ [Nat.digitChar (n % 16)]

@[simp] theorem length_hexDigits (w n : Nat) : (hexDigits w n).length = w := by
  induction w generalizing n with
  | zero => rfl
  | succ w ih => simp [hexDigits, ih]

/-- The quote for a content: `'` unless only `"` is free. -/
def quoteFor (single double : Bool) : Char :=
  if single && !double then '"' else '\''

/-- The escape of a quote, a backslash or one of the three controls with a short form. -/
def shortEscape? (quote c : Char) : Option (List Char) :=
  if c = quote ∨ c = '\\' then some ['\\', c]
  else if c = '\t' then some ['\\', 't']
  else if c = '\n' then some ['\\', 'n']
  else if c = '\r' then some ['\\', 'r']
  else none

namespace Text

/-- A code point inside quotes. -/
def quotedPoint (quote : Char) (p : CodePoint) : List Char :=
  match p.char?.bind (shortEscape? quote), p.char? with
  | some e, _ => e
  | none, some c =>
    if p.isPrintable then [c] else numeric p
  | none, none => numeric p
where
  /-- The number of a code point in two, four or eight digits. -/
  numeric (p : CodePoint) : List Char :=
    if p.toNat < 0x100 then '\\' :: 'x' :: hexDigits 2 p.toNat
    else if p.toNat < 0x10000 then '\\' :: 'u' :: hexDigits 4 p.toNat
    else '\\' :: 'U' :: hexDigits 8 p.toNat

/-- A text between quotes. -/
def quoted (t : Text) : String :=
  let q := quoteFor (t.contains (.scalar '\'')) (t.contains (.scalar '"'))
  String.ofList (q :: t.flatMap (quotedPoint q) ++ [q])

end Text

namespace Bytes

/-- A byte inside quotes. -/
def quotedByte (quote : Char) (b : UInt8) : List Char :=
  let c := charOf b
  match shortEscape? quote c with
  | some e => e
  | none => if 0x20 ≤ b ∧ b < 0x7F then [c] else '\\' :: 'x' :: hexDigits 2 b.toNat

/-- A byte string between quotes. -/
def quoted (bs : Bytes) : String :=
  let q := quoteFor (bs.contains 39) (bs.contains 34)
  String.ofList ('b' :: q :: bs.flatMap (quotedByte q) ++ [q])

/-- A mutable byte string; in it the single quote is escaped between quotes of either kind. -/
def quotedBuffer (bs : Bytes) : String :=
  let q := quoteFor (bs.contains 39) (bs.contains 34)
  let body := bs.flatMap fun b => if b = 39 then ['\\', '\''] else quotedByte q b
  "bytearray(" ++ String.ofList ('b' :: q :: body ++ [q]) ++ ")"

end Bytes

end SortedSets

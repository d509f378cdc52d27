import SortedSets.Text.Quoted

/-!
# Faults of the reply stream

The ways in which a stream of replies can be malformed. A stream with a fault cannot be read any
further.

## Main definitions

* `Wire.Fault`: what is wrong with a stream
* `Wire.Fault.message`
-/

namespace SortedSets.Wire

/-- What is wrong with a stream of replies. -/
inductive Fault where
  /-- No reply begins with this byte. -/
  | unknownType (b : UInt8)
  | badInteger
  | badBulkLength
  | bulkLengthRange
  | badArrayLength
  | arrayLengthRange
  | badLine
deriving DecidableEq, Repr

/-- A byte in the message about an unknown type. -/
def typeByteText (b : UInt8) : List Char :=
  if b = 0x5C ∨ b = 0x22 then ['\\', Bytes.charOf b]
  else if b = 0x0A then ['\\', 'n']
  else if b = 0x0D then ['\\', 'r']
  else if b = 0x09 then ['\\', 't']
  else if b = 0x07 then ['\\', 'a']
  else if b = 0x08 then ['\\', 'b']
  else if 0x20 ≤ b ∧ b < 0x7F then [Bytes.charOf b]
  else '\\' :: 'x' :: hexDigits 2 b.toNat

/-- The message about a fault. -/
def Fault.message : Fault → String
  | unknownType b =>
    "Protocol error, got \"" ++ String.ofList (typeByteText b) ++ "\" as reply type byte"
  | badInteger => "Bad integer value"
  | badBulkLength => "Bad bulk string length"
  | bulkLengthRange => "Bulk string length out of range"
  | badArrayLength => "Bad multi-bulk length"
  | arrayLengthRange => "Multi-bulk length out of range"
  | badLine => "Bad simple string value"

end SortedSets.Wire

import SortedSets.Bytes

/-!
# Decimal numerals

The decimal text of an integer, in characters for messages and in bytes for the wire.

Integers have no bound here, and neither have their numerals. A runtime may refuse to convert between
integers and decimal text beyond a number of digits (commonly 4300, which can be raised or lifted): it
is assumed that no such limit is set, in either direction.

## Main definitions

* `decimalNat`, `decimalInt`: the decimal digits of a number
* `tenTo`: powers of ten
* `Bytes.ofNat`, `Bytes.ofInt`: the same in bytes
* `showInt`: the same in a message
-/

namespace SortedSets

/-- The decimal digits of a natural number. -/
def decimalNat (n : Nat) : List Char :=
  Nat.toDigits 10 n

theorem decimalNat_ne_nil (n : Nat) : decimalNat n ≠ [] :=
  Nat.toDigits_ne_nil

theorem isDigit_of_mem_decimalNat {n : Nat} {c : Char} (h : c ∈ decimalNat n) : c.isDigit = true :=
  Nat.isDigit_of_mem_toDigits (by decide) (by decide) h

/-- The decimal digits of an integer, after a minus sign if it is negative. -/
def decimalInt (n : Int) : List Char :=
  if n < 0 then '-' :: decimalNat n.natAbs else decimalNat n.natAbs

/-- A power of ten. -/
def tenTo (k : Nat) : Nat :=
  Nat.pow 10 k

/-- The decimal text of a natural number of any size, in bytes. -/
def Bytes.ofNat (n : Nat) : Bytes :=
  ofChars (decimalNat n)

/-- The decimal text of an integer of any size, in bytes: no limit on its digits is assumed to be
set. -/
def Bytes.ofInt (n : Int) : Bytes :=
  ofChars (decimalInt n)

/-- The decimal text of an integer, in a message. -/
def showInt (n : Int) : String :=
  String.ofList (decimalInt n)

example : decimalInt (-120) = ['-', '1', '2', '0'] := by decide

end SortedSets

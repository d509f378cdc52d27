/-!
# Bytes

The wire and every binary value of the library is a list of bytes; the fixed words of the
protocol are ASCII.

## Main definitions

* `Bytes`: byte strings
* `Bytes.ascii`: the bytes of a text of ASCII characters
* `Bytes.upper`: ASCII letters raised to upper case
-/

namespace SortedSets

/-- A byte string. -/
abbrev Bytes := List UInt8

namespace Bytes

/-- One byte for each character; meant for ASCII characters. -/
def ofChars (cs : List Char) : Bytes :=
  cs.map fun c => c.toNat.toUInt8

/-- The bytes of a text of ASCII characters. -/
def ascii (s : String) : Bytes :=
  ofChars s.toList

@[simp] theorem ofChars_nil : ofChars [] = [] := rfl

@[simp] theorem ofChars_append (cs ds : List Char) :
    ofChars (cs ++ ds) = ofChars cs ++ ofChars ds := List.map_append

@[simp] theorem length_ofChars (cs : List Char) : (ofChars cs).length = cs.length :=
  List.length_map _

/-- The character of the same code as a byte. -/
def charOf (b : UInt8) : Char :=
  Char.ofNat b.toNat

/-- ASCII letters raised to upper case, all other bytes kept. -/
def upper (bs : Bytes) : Bytes :=
  bs.map fun b => if 97 ≤ b ∧ b ≤ 122 then b - 32 else b

@[simp] theorem length_upper (bs : Bytes) : bs.upper.length = bs.length :=
  List.length_map _

end Bytes

end SortedSets

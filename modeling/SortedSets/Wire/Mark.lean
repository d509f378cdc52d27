import SortedSets.Bytes

/-!
# Marks of the wire format

The first byte of a request, and of every reply and every argument within, is its mark. It says
how the rest of the line is read.

## Main definitions

* `Wire.Mark`, `Wire.Mark.byte`: the marks and their bytes
* `Wire.Mark.ofByte?`: the mark of a byte, if it is one
* `Wire.cr`, `Wire.lf`: the two bytes of a line end
-/

namespace SortedSets.Wire

/-- The first byte of a line end. -/
def cr : UInt8 := 13

/-- The second byte of a line end. -/
def lf : UInt8 := 10

/-- The line end, behind every line and every byte string. -/
def lineEnd : Bytes := [cr, lf]

/-- What follows on the wire: a line of text, a line with an error, an integer, a byte string, or
an array. -/
inductive Mark where
  | line
  | error
  | int
  | bulk
  | array
deriving DecidableEq, Repr

namespace Mark

/-- The byte of a mark. -/
def byte : Mark → UInt8
  | line => 43
  | error => 45
  | int => 58
  | bulk => 36
  | array => 42

/-- All marks. -/
def all : List Mark := [line, error, int, bulk, array]

/-- The mark of a byte, if it is one. -/
def ofByte? (b : UInt8) : Option Mark :=
  all.find? fun m => m.byte = b

@[simp] theorem ofByte?_byte (m : Mark) : ofByte? m.byte = some m := by
  cases m <;> rfl

end Mark

end SortedSets.Wire

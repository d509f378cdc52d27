import SortedSets.Boundary

/-!
# Ranges and limits

A range is a pair of boundaries of one kind, a missing end being unbounded. A limit cuts a page
out of the members of a range.

## Main definitions

* `Range.ofEnds`: the checked constructor, and `Range.closed`, `Range.greaterThan` and so on
* `Range.encodeScore`, `Range.encodeLex`: the two ends on the wire
* `Limit.ofValues`: the checked constructor of limits
-/

namespace SortedSets

namespace Range

/-- The end of a range that a caller gave, the absent value for no end. -/
def endOf : Value → Except Error Boundary
  | .none => .ok Boundary.unbounded
  | .boundary b => .ok b
  | _ => .error (.invalid .rangeEnds)

/-- The range of two ends, which must be of one kind. -/
def ofBoundaries (min max : Boundary) : Except Error Range :=
  match min.kind?, max.kind? with
  | some a, some b =>
    if a = b then .ok ⟨min, max⟩ else .error (.invalid (.mixedRange a.word b.word))
  | _, _ => .ok ⟨min, max⟩

/-- The range of two ends as a caller gives them. -/
def ofEnds (min max : Value) : Except Error Range := do
  ofBoundaries (← endOf min) (← endOf max)

/-- The range of everything. -/
def unbounded : Range where
  min := Boundary.unbounded
  max := Boundary.unbounded

/-- The range from one value to another, both included. -/
def closed (min max : Value) : Except Error Range := do
  ofBoundaries (← Boundary.inclusive min) (← Boundary.inclusive max)

/-- The range from one value to another, both excluded. -/
def betweenExclusive (min max : Value) : Except Error Range := do
  ofBoundaries (← Boundary.exclusive min) (← Boundary.exclusive max)

/-- The range above a value. -/
def greaterThan (v : Value) : Except Error Range := do
  ofBoundaries (← Boundary.exclusive v) Boundary.unbounded

/-- The range from a value on. -/
def atLeast (v : Value) : Except Error Range := do
  ofBoundaries (← Boundary.inclusive v) Boundary.unbounded

/-- The range below a value. -/
def lessThan (v : Value) : Except Error Range := do
  ofBoundaries Boundary.unbounded (← Boundary.exclusive v)

/-- The range up to a value. -/
def atMost (v : Value) : Except Error Range := do
  ofBoundaries Boundary.unbounded (← Boundary.inclusive v)

/-- The kind of a range, unless it is unbounded at both ends. -/
def kind? (r : Range) : Option BoundaryKind :=
  r.min.kind? <|> r.max.kind?

/-- The two ends of a score range on the wire. -/
def encodeScore (r : Range) : Except Error (Value × Value) := do
  let min ← r.min.encodeScore (.bytes (Bytes.ascii "-inf"))
  let max ← r.max.encodeScore (.bytes (Bytes.ascii "+inf"))
  return (min, max)

/-- The two ends of a lexicographical range on the wire. -/
def encodeLex (r : Range) : Except Error (Value × Value) := do
  let min ← r.min.encodeLex (.bytes (Bytes.ascii "-"))
  let max ← r.max.encodeLex (.bytes (Bytes.ascii "+"))
  return (min, max)

end Range

/-- An integer argument of a call. -/
def checkInt (name : String) : Value → Except Error Int
  | .int n => .ok n
  | _ => .error (.invalid (.notInt name))

/-- An integer argument of a call that the server reads into 32 bits. -/
def checkInt32 (name : String) (v : Value) : Except Error Int := do
  let n ← checkInt name v
  if -0x80000000 ≤ n ∧ n ≤ 0x7FFFFFFF then return n
  else throw (.notInt32 name n)

namespace Limit

/-- The limit of an offset and a count as a caller gives them. -/
def ofValues (offset count : Value) : Except Error Limit := do
  return .window (← checkInt "offset" offset) (← checkInt "count" count)

/-- The limit is none. -/
def isUnlimited : Limit → Bool
  | unlimited => true
  | window _ _ => false

end Limit

end SortedSets

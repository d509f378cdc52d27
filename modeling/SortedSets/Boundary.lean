import SortedSets.Value.Access

/-!
# Boundaries

An end of a range is unbounded, inclusive or exclusive. Score ends are numbers and are sent as
such, with `(` in front of an exclusive one; lexicographical ends are byte strings and are always
marked, with `[` or `(`.

## Main definitions

* `formatScore`: the text of a score on the wire
* `Boundary.unbounded`, `Boundary.inclusive`, `Boundary.exclusive`: the checked constructors
* `Boundary.kind?`: whether an end is a score or a byte string
* `Boundary.encodeScore`, `Boundary.encodeLex`: an end on the wire
* `Boundary.decodeScore`, `Boundary.roundTrip`: a score end read back
-/

namespace SortedSets

/-- The text of a score that is a number: full precision, infinities with their sign. -/
def scoreText : Binary64 → Except Error (List Char)
  | .nan => .error (.invalid .scoreNaN)
  | .infinity s => .ok [if s then '-' else '+', 'i', 'n', 'f']
  | .finite s m => .ok (Binary64.finite s m).text

/-- The text of a number on the wire. -/
def formatScore : Value → Except Error Bytes
  | .bool b => .ok (Bytes.ofInt (if b then 1 else 0))
  | .int n => .ok (Bytes.ofInt n)
  | .float x => (scoreText x).map Bytes.ofChars
  | _ => .error .badType

/-- What an end of a range is measured in. -/
inductive BoundaryKind where
  | score
  | lex
deriving DecidableEq, Repr

/-- The word of a kind of ends. -/
def BoundaryKind.word : BoundaryKind → String
  | score => "score"
  | lex => "lex"

namespace Boundary

/-- The end of a range without an end. -/
def unbounded : Boundary where
  value := .none
  included := .bool true

/-- The value of an end, checked: a number that is not NaN, or a byte string. -/
def checkValue (v : Value) : Except Error Value :=
  match v with
  | .none => .error (.invalid .boundaryNone)
  | .bool _ => .error (.invalid .boundaryBool)
  | .float .nan => .error (.invalid .boundaryNaN)
  | .int _ | .float _ => .ok v
  | .bytes bs | .buffer bs => .ok (.bytes bs)
  | v =>
    match v.text? with
    | some t => (Value.encodeText t).map .bytes
    | none => .error (.invalid (.boundaryType v))

/-- An end that belongs to its range. -/
def inclusive (v : Value) : Except Error Boundary :=
  (checkValue v).map fun v => ⟨v, .bool true⟩

/-- An end that does not belong to its range. -/
def exclusive (v : Value) : Except Error Boundary :=
  (checkValue v).map fun v => ⟨v, .bool false⟩

/-- The range has no end here. -/
def isUnbounded (b : Boundary) : Bool :=
  b.value.isNone

/-- The kind of an end, unless it is unbounded: byte strings are lexicographical. -/
def kind? (b : Boundary) : Option BoundaryKind :=
  match b.value with
  | .none => none
  | .bytes _ => some .lex
  | _ => some .score

/-- A score end on the wire; `unbounded` stands for the missing end. -/
def encodeScore (b : Boundary) (unbounded : Value) : Except Error Value :=
  match b.kind? with
  | none => .ok unbounded
  | some .lex => .error (.invalid (.notScoreBoundary b))
  | some .score => do
    let token ← formatScore b.value
    return .bytes (if b.included.isTruthy then token else Bytes.ascii "(" ++ token)

/-- A lexicographical end on the wire; `unbounded` stands for the missing end. -/
def encodeLex (b : Boundary) (unbounded : Value) : Except Error Value :=
  match b.value with
  | .none => .ok unbounded
  | .bytes bs =>
    .ok (.bytes ((if b.included.isTruthy then Bytes.ascii "[" else Bytes.ascii "(") ++ bs))
  | _ => .error (.invalid (.notLexBoundary b))

/-- A marked number read as an end. -/
def ofToken (token : Bytes) : Except Error Boundary :=
  match token with
  | 40 :: rest => (readNumber (Bytes.numeral? rest)).map fun v => ⟨v, .bool false⟩
  | _ => (readNumber (Bytes.numeral? token)).map fun v => ⟨v, .bool true⟩

/-- A score end read back from the wire. The token of the missing end reads as unbounded. -/
def decodeScore (token unbounded : Value) : Except Error Boundary := do
  let token ← match token.text? with
    | some t => (Value.encodeText t).map Value.bytes
    | none => .ok token
  if token.same unbounded then return Boundary.unbounded
  match token.bytes? with
  | some bs => ofToken bs
  | none => .error .noAttribute

/-- A score end on the wire, and the end that is read back from it. A missing end is written as
the token that stands for it, which is then compared with itself; a text is encoded before, and
so is compared with its bytes. -/
def roundTrip (b : Boundary) (unbounded : Value) : Except Error (Value × Boundary) := do
  let token ← b.encodeScore unbounded
  if b.isUnbounded && token.text?.isNone && token.sameAsItself then
    return (token, Boundary.unbounded)
  else return (token, ← decodeScore token unbounded)

end Boundary

end SortedSets

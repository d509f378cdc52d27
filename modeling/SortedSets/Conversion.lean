import SortedSets.Scan.Options

/-!
# Conversion of replies

The server answers scores as texts and pairs of members and scores as flat lists. Each command
names the conversion of its reply.

## Main definitions

* `readScoreValue`: the number a score text denotes
* `scoredPairs`: the members and scores of a flat list
* `Page`: a page of a scan
* `Conversion`, `Conversion.apply`: the conversions of replies, and `Conversion.await`, which lets
  the acknowledgement of a queued command through
-/

namespace SortedSets

/-- The number that the text of a score denotes. -/
def readScoreValue (v : Value) : Except Error Value :=
  match v with
  | .bytes bs => readNumber (Bytes.numeral? bs)
  | v =>
    match v.text? with
    | some t => readNumber (Text.numeral? t)
    | none => .error (.assertion .scoreNotText)

/-- The number that the text of a score denotes, or the absent value for itself. -/
def readOptionalScore (v : Value) : Except Error Value :=
  if v.isNone then .ok v else readScoreValue v

/-- A member with the score that a text denotes. -/
def scoredPair (member score : Value) : Except Error Value :=
  (readScoreValue score).map (Value.scored member)

/-- The members and scores of a flat list; a last member without a score is left out. -/
def scoredPairs : List Value → Except Error (List Value)
  | m :: s :: rest => do
    let p ← scoredPair m s
    let ps ← scoredPairs rest
    return p :: ps
  | _ => .ok []

/-- The members and scores of a value that has items. -/
def decodePairs (v : Value) : Except Error (List Value) := do
  scoredPairs (← v.items)

/-- A page of a scan: the next cursor and the items. -/
structure Page where
  cursor : Int
  items : List Value

/-- How the reply to a command is converted. -/
inductive Conversion where
  | score
  | optionalScore
  | scores
  | pairs
  /-- The first of a flat list of members and scores, if there is one. -/
  | firstPair
  /-- The member and the score behind a key. -/
  | keyedPair
  /-- A cursor and a flat list of members and scores. -/
  | page
  | integer
  | float
deriving DecidableEq, Repr

/-- A converted reply. -/
inductive Converted where
  | value (v : Value)
  | page (p : Page)

namespace Conversion

/-- The converted reply. -/
def apply (c : Conversion) (v : Value) : Except Error Converted :=
  match c with
  | score => (readScoreValue v).map .value
  | optionalScore => (readOptionalScore v).map .value
  | scores => do
    let vs ← (← v.items).mapM readOptionalScore
    return .value (.list vs)
  | pairs => do
    let ps ← decodePairs v
    return .value (.list ps)
  | firstPair =>
    if v.isTruthy then do
      let m ← v.element 0
      return .value (← scoredPair m (← v.element 1))
    else .ok (.value .none)
  | keyedPair =>
    if v.isTruthy then do
      let m ← v.element 1
      return .value (← scoredPair m (← v.element 2))
    else .ok (.value .none)
  | page => do
    let next ← (← v.element 0).toInt
    return .page ⟨next, ← decodePairs (← v.element 1)⟩
  | integer => (v.toInt).map fun n => .value (.int n)
  | float => (v.toFloat).map fun x => .value (.float x)

/-- The reply acknowledges a command that the server queued. -/
def isQueued (v : Value) : Bool :=
  match v.text?, v.bytes? with
  | some t, _ => t == Text.ofString "QUEUED"
  | _, some bs => bs == Bytes.ascii "QUEUED"
  | none, none => false

/-- The converted reply to a command sent at once; an acknowledgement stays as it is. -/
def await (c : Conversion) (v : Value) : Except Error Converted :=
  if isQueued v then .ok (.value v) else c.apply v

end Conversion

end SortedSets

import SortedSets.Text.Quoted
import SortedSets.Number.Shortest
import SortedSets.Value.Basic

/-!
# Values in messages

A message that quotes a value shows texts between quotes and records with the names of their
fields. A message that only mentions a value shows a text as it is.

## Main definitions

* `Value.quoted`: a value as messages quote it
* `Value.plain`: a value as messages mention it
-/

namespace SortedSets

/-- Items between brackets. -/
def bracketed (opening closing : String) (items : List String) : String :=
  opening ++ ", ".intercalate items ++ closing

/-- The items of a tuple; a single one is followed by a comma. -/
def tupleText : List String → String
  | [s] => "(" ++ s ++ ",)"
  | ss => bracketed "(" ")" ss

/-- A score in a message. -/
def Binary64.shown (x : Binary64) : String :=
  String.ofList x.text

/-- Weights in a message. -/
def Weights.quoted (ws : Weights) : String :=
  "Weights" ++ tupleText (ws.toList.map Binary64.shown)

/-- A limit in a message. -/
def Limit.quoted : Limit → String
  | unlimited => "Limit.unlimited()"
  | window offset count => "Limit(offset=" ++ showInt offset ++ ", count=" ++ showInt count ++ ")"

/-- An aggregate in a message that quotes it. -/
def Aggregate.quoted (a : Aggregate) : String :=
  "<Aggregate." ++ a.word ++ ": b'" ++ a.word ++ "'>"

/-- The word for the absent value. -/
def noneText : String := "None"

/-- A truth value in a message. -/
def boolText (b : Bool) : String :=
  if b then "True" else "False"

/-- A pattern in a message. -/
def Pattern.quoted : Pattern → String
  | bytes bs => bs.quoted
  | text t => t.quoted

/-- Scan options in a message. -/
def ScanOptions.quoted (o : ScanOptions) : String :=
  "ScanOptions(match=" ++ (o.pattern.map Pattern.quoted).getD noneText ++
    ", count=" ++ (o.count.map fun n => showInt n).getD noneText ++ ")"

/-- A boundary in a message, given its value as a message quotes it. -/
def boundaryText (unbounded included : Bool) (value : String) : String :=
  if unbounded then "Boundary.unbounded()"
  else if included then "Boundary.inclusive(" ++ value ++ ")"
  else "Boundary.exclusive(" ++ value ++ ")"

/-- The truth value of a value: absent, zero and empty values are false. -/
def Value.isTruthy : Value → Bool
  | none => false
  | bool b => b
  | int n => n ≠ 0
  | float x => !x.isZero
  | text t => !t.isEmpty
  | bytes bs | buffer bs => !bs.isEmpty
  | list vs | tuple vs => !vs.isEmpty
  | dict es => !es.isEmpty
  | weights ws => !ws.toList.isEmpty
  | _ => true

mutual

/-- A value as messages quote it. -/
def Value.quoted : Value → String
  | .none => noneText
  | .bool b => boolText b
  | .int n => showInt n
  | .float x => x.shown
  | .text t => t.quoted
  | .bytes bs => bs.quoted
  | .buffer bs => bs.quotedBuffer
  | .list vs => bracketed "[" "]" (quotedAll vs)
  | .tuple vs => tupleText (quotedAll vs)
  | .dict es => bracketed "\x7b" "\x7d" (quotedEntries es)
  | .condition c => c.text.quoted
  | .scored m s => "Tuple(member=" ++ m.quoted ++ ", score=" ++ s.quoted ++ ")"
  | .aggregate a => a.quoted
  | .boundary b => b.quoted
  | .range r => r.quoted
  | .limit l => l.quoted
  | .weights ws => ws.quoted
  | .weighted a ws =>
    "AggregationParams(aggregate=" ++ a.quoted ++ ", weights=" ++ ws.quoted ++ ")"
  | .options o => o.quoted
  | .command name args =>
    "<Command " ++ name.quoted ++ " args=" ++ tupleText (quotedAll args) ++ ">"
  | .failure message => "ReplyError(" ++ message.quoted ++ ")"
termination_by structural v => v

/-- A boundary as messages quote it. -/
def Boundary.quoted : Boundary → String
  | ⟨value, included⟩ => boundaryText value.isNone included.isTruthy value.quoted
termination_by structural b => b

/-- A range as messages quote it. -/
def Range.quoted : Range → String
  | ⟨min, max⟩ => "Range(min=" ++ min.quoted ++ ", max=" ++ max.quoted ++ ")"
termination_by structural r => r

/-- Values as messages quote them. -/
def quotedAll : List Value → List String
  | [] => []
  | v :: vs => v.quoted :: quotedAll vs
termination_by structural vs => vs

/-- The entries of a dictionary as messages quote them. -/
def quotedEntries : List (Value × Value) → List String
  | [] => []
  | e :: es => quotedEntry e :: quotedEntries es
termination_by structural es => es

/-- An entry of a dictionary as messages quote it. -/
def quotedEntry : Value × Value → String
  | (k, v) => k.quoted ++ ": " ++ v.quoted
termination_by structural e => e

end

/-- A value as messages mention it. -/
def Value.plain (v : Value) : Text :=
  match v with
  | .aggregate a => .ofString ("Aggregate." ++ a.word)
  | .failure message => message
  | v => v.text?.getD (.ofString v.quoted)

end SortedSets

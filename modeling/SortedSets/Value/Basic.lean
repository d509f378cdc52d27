import SortedSets.Text.Utf8
import SortedSets.Number.Binary64

/-!
# Values

The arguments that callers hand to commands, and the converted replies they get back, are values
of one dynamic type: a command checks what it was given and refuses the rest. Beside plain data
there are the vocabulary types of the sorted set commands: boundaries, ranges, limits, weights,
aggregates and scan options.

## Main definitions

* `Aggregate`, `Condition`, `Mode`, `Limit`, `Weights`, `ScanOptions`: the closed vocabulary
* `Value`, `Boundary`, `Range`: values, and the records that hold values
* `Value.text?`, `Value.bytes?`, `Value.fields?`: the views of a value as a text, as a byte string
  and as a record
-/

namespace SortedSets

/-- How the scores of a member of several sets are combined. -/
inductive Aggregate where
  | sum
  | min
  | max
deriving DecidableEq, Repr

/-- The word of an aggregate on the wire. -/
def Aggregate.word : Aggregate → String
  | sum => "SUM"
  | min => "MIN"
  | max => "MAX"

/-- The constants that restrict an update of a sorted set. -/
inductive Condition where
  | ifExist
  | ifNotExist
  | ifGreater
  | ifLess
deriving DecidableEq, Repr

/-- The text of a condition, which any other text may equal without being the constant. -/
def Condition.text : Condition → Text
  | ifExist => .ofString "ZSET_IF_EXIST"
  | ifNotExist => .ofString "ZSET_IF_NOT_EXIST"
  | ifGreater => .ofString "ZSET_IF_GREATER"
  | ifLess => .ofString "ZSET_IF_LESS"

/-- How an executor treats a command: sent at once, queued until a batch is sent, or queued by
the server until its transaction ends. -/
inductive Mode where
  | direct
  | pipelined
  | transactional
deriving DecidableEq, Repr

namespace Mode

/-- The word of a mode in messages. -/
def word : Mode → String
  | direct => "direct"
  | pipelined => "pipelined"
  | transactional => "transactional"

/-- Commands are queued in this mode. -/
def isQueueing (m : Mode) : Bool :=
  m ≠ direct

end Mode

/-- A page of a range query: an offset and a count, or no limit at all. -/
inductive Limit where
  | unlimited
  | window (offset count : Int)
deriving DecidableEq, Repr

/-- The multipliers of the sets that a union or an intersection combines. -/
structure Weights where
  toList : List Binary64
deriving DecidableEq, Repr

/-- A pattern of a scan. -/
inductive Pattern where
  | bytes (bs : Bytes)
  | text (t : Text)
deriving DecidableEq, Repr

/-- The options of a scan: a pattern that members match, and a positive hint of the page size. -/
structure ScanOptions where
  pattern : Option Pattern
  count : Option Nat
  count_pos : ∀ n, count = some n → 0 < n
deriving DecidableEq, Repr

/-- A scan without options. -/
def ScanOptions.unrestricted : ScanOptions where
  pattern := .none
  count := .none
  count_pos := nofun

instance : Inhabited ScanOptions := ⟨.unrestricted⟩

mutual

/-- A value that a caller may pass or receive. -/
inductive Value where
  | none
  | bool (b : Bool)
  | int (n : Int)
  | float (x : Binary64)
  | text (t : Text)
  | bytes (bs : Bytes)
  /-- A mutable byte string. -/
  | buffer (bs : Bytes)
  | list (vs : List Value)
  | tuple (vs : List Value)
  | dict (entries : List (Value × Value))
  | condition (c : Condition)
  /-- A member of a sorted set with its score. -/
  | scored (member score : Value)
  | aggregate (a : Aggregate)
  | boundary (b : Boundary)
  | range (r : Range)
  | limit (l : Limit)
  | weights (ws : Weights)
  /-- An aggregate with the weights it goes with. -/
  | weighted (a : Aggregate) (weights : Value)
  | options (o : ScanOptions)
  | command (name : Value) (args : List Value)
  /-- An error reply inside a reply. -/
  | failure (message : Text)

/-- An end of a range. It is unbounded if its value is `Value.none`. The checked constructors of
`Boundary` give numbers and byte strings only; a record built without them may hold any values. -/
structure Boundary where
  value : Value
  included : Value

/-- A pair of boundaries. -/
structure Range where
  min : Boundary
  max : Boundary

end

instance : Inhabited Value := ⟨.none⟩

namespace Pattern

/-- A pattern as a value. -/
def toValue : Pattern → Value
  | bytes bs => .bytes bs
  | text t => .text t

end Pattern

namespace ScanOptions

/-- The pattern as a value. -/
def patternValue (o : ScanOptions) : Value :=
  (o.pattern.map Pattern.toValue).getD .none

/-- The count as a value. -/
def countValue (o : ScanOptions) : Value :=
  (o.count.map fun n => Value.int n).getD .none

end ScanOptions

namespace Limit

/-- The offset and the count as values. -/
def fields : Limit → List Value
  | unlimited => [.none, .none]
  | window offset count => [.int offset, .int count]

end Limit

namespace Value

/-- The text of a value that is one: a condition counts as its text. -/
def text? : Value → Option Text
  | text t => some t
  | condition c => some c.text
  | _ => .none

/-- The bytes of a value that is a byte string. -/
def bytes? : Value → Option Bytes
  | bytes bs | buffer bs => some bs
  | _ => .none

/-- The fields of a value that is a record. A tuple is a record, and a record equals the tuple
of its fields. -/
def fields? : Value → Option (List Value)
  | tuple vs => some vs
  | scored m s => some [m, s]
  | boundary b => some [b.value, b.included]
  | range r => some [.boundary r.min, .boundary r.max]
  | limit l => some l.fields
  | weighted a ws => some [.aggregate a, ws]
  | options o => some [o.patternValue, o.countValue]
  | _ => .none

/-- The value is absent. -/
def isNone : Value → Bool
  | none => true
  | _ => false

end Value

end SortedSets

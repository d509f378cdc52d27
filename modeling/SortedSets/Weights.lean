import SortedSets.Value.Access

/-!
# Weights and aggregates

A union or an intersection multiplies the scores of each set by the weight of the set, and then
combines the scores of a member by an aggregate.

## Main definitions

* `Weights.ofItems`, `Weights.ofValue`, `Weights.ones`: weights from numbers
* `Weights.apply`, `Weights.multiply`: weights changed one by one
* `Weights.check`: there is one weight for each set
* `Aggregation.build`, `Aggregation.arguments`: an aggregate with its weights, as a command says it
-/

namespace SortedSets

namespace Weights

/-- A weight is an integer or a score; truth values are refused. -/
def checkWeight : Value → Except Error Value
  | .int n => .ok (.int n)
  | .float x => .ok (.float x)
  | v => .error (.invalid (.weightType v))

/-- A checked weight as a score. -/
def weightScore : Value → Except Error Binary64
  | .float x => .ok x
  | .int n =>
    match Binary64.ofInt? n with
    | some x => .ok x
    | none => .error .overflow
  | _ => .error .badType

/-- The weights of a list of numbers; all are checked before one is rounded. -/
def ofItems (vs : List Value) : Except Error Weights := do
  let vs ← vs.mapM checkWeight
  return ⟨← vs.mapM weightScore⟩

/-- The weights of a value that has numbers as items. -/
def ofValue (v : Value) : Except Error Weights := do
  ofItems (← v.items)

/-- The weight one for each of a number of sets. -/
def ones (n : Nat) : Weights where
  toList := List.replicate n Binary64.one

/-- The weight one for each of a number of sets, as a caller gives it; a negative number counts
as none, and one past the size of memory is refused. -/
def onesOfValue : Value → Except Error Weights
  | .bool b => .ok (ones (if b then 1 else 0))
  | .int n =>
    if 0x7FFFFFFFFFFFFFFF < n ∨ n < -0x8000000000000000 then .error .overflow
    else if 0x10000000000 ≤ n then .error .outOfMemory
    else .ok (ones n.toNat)
  | _ => .error .badType

/-- The number of weights. -/
def size (ws : Weights) : Nat :=
  ws.toList.length

/-- The weights changed one by one. -/
def apply (f : Binary64 → Except Error Value) (ws : Weights) : Except Error Weights := do
  ofItems (← ws.toList.mapM f)

/-- The product of a weight and a factor. -/
def times (x : Binary64) (factor : Value) : Except Error Value :=
  match factor.numeric? with
  | some (.float y) => .ok (.float (x.mul y))
  | some (.int n) =>
    match Binary64.ofInt? n with
    | some y => .ok (.float (x.mul y))
    | none => .error .overflow
  | none => .error .badType

/-- The weights times a factor. -/
def multiply (factor : Value) (ws : Weights) : Except Error Weights :=
  ws.apply fun x => times x factor

/-- The position of an index, which counts from the end if it is negative. -/
def position? (ws : Weights) (i : Int) : Option Nat :=
  if 0 ≤ i then some i.toNat
  else if -(ws.size : Int) ≤ i then some (ws.size + i).toNat
  else none

/-- The weight at an index. -/
def get (ws : Weights) (i : Value) : Except Error Binary64 :=
  match i.numeric? with
  | some (.int i) =>
    match (ws.position? i).bind fun k => ws.toList[k]? with
    | some x => .ok x
    | none => .error .noIndex
  | _ => .error .badType

/-- There is one weight for each of `sets` sets. -/
def check (ws : Weights) (sets : Value) : Except Error Unit :=
  if (Value.int ws.size).same sets then .ok () else .error (.weightCount ws.size sets)

end Weights

namespace Aggregation

/-- An aggregate and weights put together; only the aggregate is checked. -/
def build (aggregate weights : Value) : Except Error (Aggregate × Value) :=
  match aggregate with
  | .aggregate a => .ok (a, weights)
  | v => .error (.invalid (.aggregateType v))

/-- The arguments that say weights and aggregate. -/
def arguments (p : Aggregate × Value) : Except Error (List Value) := do
  let ws ← p.2.items
  return .bytes (Bytes.ascii "WEIGHTS") :: ws ++
    [.bytes (Bytes.ascii "AGGREGATE"), .bytes (Bytes.ascii p.1.word)]

end Aggregation

end SortedSets

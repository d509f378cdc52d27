import SortedSets.Command.Query
import SortedSets.Weights

/-!
# Commands that combine sets

Differences, intersections and unions of sets, returned or stored under another key. The number
of source sets precedes them, so that no key can be taken for an option.

## Main definitions

* `Command.aggregationArguments`: the clauses for weights and aggregate
* `Command.zdiff`, `Command.zinter`, `Command.zunion` and their storing forms
-/

namespace SortedSets.Command

/-- The weights that a caller gives for a number of sets: none means one for each. -/
def checkWeights (sets : Nat) : Value → Except Error Weights
  | .none => .ok (Weights.ones sets)
  | .weights ws => .ok ws
  | v => Weights.ofValue v

/-- The clauses for weights and aggregate, present if one of them is given. An aggregate that
counts as false stands for the sum. -/
def aggregationArguments (sets : Nat) (aggregate weights : Value) :
    Except Error (List Value) := do
  if aggregate.isNone && weights.isNone then return []
  let ws ← checkWeights sets weights
  ws.check (.int sets)
  let aggregate := if aggregate.isTruthy then aggregate else .aggregate .sum
  Aggregation.arguments (← Aggregation.build aggregate (.weights ws))

/-- Source sets with their number in front. -/
def sources (keys : List Value) : List Value :=
  .int keys.length :: keys

/-- The members of the first set that are in no other. -/
def zdiff (keys : List Value) (withScores : Value) : Except Error Command := do
  checkKeys keys
  return members "ZDIFF" (sources keys) withScores.isTruthy []

/-- A difference stored under a key. -/
def zdiffstore (dest : Value) (keys : List Value) : Except Error Command := do
  checkKey "destkey" dest
  checkKeys keys
  return plain "ZDIFFSTORE" (dest :: sources keys)

/-- A combination of sets. -/
def combine (name : String) (keys : List Value) (aggregate weights withScores : Value) :
    Except Error Command := do
  checkKeys keys
  let clauses ← aggregationArguments keys.length aggregate weights
  return members name (sources keys ++ clauses) withScores.isTruthy []

/-- A combination of sets stored under a key. -/
def combineStore (name : String) (dest : Value) (keys : List Value)
    (aggregate weights : Value) : Except Error Command := do
  checkKey "destkey" dest
  checkKeys keys
  let clauses ← aggregationArguments keys.length aggregate weights
  return plain name (dest :: sources keys ++ clauses)

/-- The members that are in all sets. -/
def zinter (keys : List Value) (aggregate weights withScores : Value) : Except Error Command :=
  combine "ZINTER" keys aggregate weights withScores

/-- The members that are in one of the sets. -/
def zunion (keys : List Value) (aggregate weights withScores : Value) : Except Error Command :=
  combine "ZUNION" keys aggregate weights withScores

/-- An intersection stored under a key. -/
def zinterstore (dest : Value) (keys : List Value) (aggregate weights : Value) :
    Except Error Command :=
  combineStore "ZINTERSTORE" dest keys aggregate weights

/-- A union stored under a key. -/
def zunionstore (dest : Value) (keys : List Value) (aggregate weights : Value) :
    Except Error Command :=
  combineStore "ZUNIONSTORE" dest keys aggregate weights

end SortedSets.Command

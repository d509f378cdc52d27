import SortedSets.Command.Basic

/-!
# Commands that change a set

Members are added with their scores, one by one or as a list of pairs; scores are raised; members
are removed by name, by position or by range.

## Main definitions

* `Command.addFlags`: the options of an addition
* `Command.zadd`, `Command.zaddTuples`: additions
* `Command.zincrby`, `Command.zrem`, `Command.zremrange` and its kin: other changes
-/

namespace SortedSets.Command

/-- The options of an addition: whether members must exist or must not, which way scores may
change, and whether changed members are counted. Only the constants themselves count as
conditions. -/
def addFlags (exist compare changed : Value) : Except Error (List Value) := do
  let existing :=
    match exist with
    | .condition .ifExist => [word "XX"]
    | .condition .ifNotExist => [word "NX"]
    | _ => []
  let comparing ←
    match exist, compare with
    | _, .none => pure []
    -- refused for any comparison, one that is no constant included
    | .condition .ifNotExist, _ => throw (.invalid .compareWithNotExist)
    | _, .condition .ifGreater => pure [word "GT"]
    | _, .condition .ifLess => pure [word "LT"]
    | _, _ => throw (.invalid .compareType)
  let counting := if changed.isTruthy then [word "CH"] else []
  return existing ++ comparing ++ counting

/-- Scores and members in turn. -/
def checkPairs : List Value → Except Error Unit
  | s :: m :: rest => do
    checkScore "score" s
    checkMember m
    checkPairs rest
  | _ => .ok ()

/-- Members added, given as scores and members in turn. -/
def zadd (key score member : Value) (pairs : List Value) (exist compare changed : Value) :
    Except Error Command := do
  checkKey "key" key
  checkScore "score" score
  checkMember member
  if pairs.length % 2 ≠ 0 then throw (.invalid .oddPairs)
  checkPairs pairs
  let flags ← addFlags exist compare changed
  return plain "ZADD" (key :: flags ++ score :: member :: pairs)

/-- The members and scores of a list of pairs, scores first. -/
def pairArguments : List Value → Except Error (List Value)
  | [] => .ok []
  | v :: vs => do
    let (member, score) ← v.both
    checkMember member
    checkScore "score" score
    return score :: member :: (← pairArguments vs)

/-- Members added, given as pairs of a member and a score. -/
def zaddTuples (key tuples exist compare changed : Value) : Except Error Command := do
  checkKey "key" key
  if !tuples.isTruthy then throw (.invalid .noTuples)
  let flags ← addFlags exist compare changed
  let pairs ← pairArguments (← tuples.items)
  return plain "ZADD" (key :: flags ++ pairs)

/-- The score of a member raised. -/
def zincrby (key increment member : Value) : Except Error Command := do
  checkKey "key" key
  checkScore "increment" increment
  checkMember member
  return converted "ZINCRBY" [key, increment, member] .score

/-- Members removed. -/
def zrem (key : Value) (members : List Value) : Except Error Command := do
  checkKey "key" key
  members.forM checkMember
  return plain "ZREM" (key :: members)

/-- The members at some positions removed. -/
def zremrangebyrank (key start stop : Value) : Except Error Command := do
  checkKey "key" key
  let _ ← checkInt "start" start
  let _ ← checkInt "stop" stop
  return plain "ZREMRANGEBYRANK" [key, start, stop]

/-- A command about the members in a range of scores. -/
def overScores (name : String) (key range : Value) : Except Error Command := do
  checkKey "key" key
  let (min, max) ← (← checkRange range).encodeScore
  return plain name [key, min, max]

/-- A command about the members in a lexicographical range. -/
def overMembers (name : String) (key range : Value) : Except Error Command := do
  checkKey "key" key
  let (min, max) ← (← checkRange range).encodeLex
  return plain name [key, min, max]

/-- The members in a range of scores removed. -/
def zremrangebyscore (key range : Value) : Except Error Command :=
  overScores "ZREMRANGEBYSCORE" key range

/-- The members in a lexicographical range removed. -/
def zremrangebylex (key range : Value) : Except Error Command :=
  overMembers "ZREMRANGEBYLEX" key range

/-- A number of members, or one, removed from an end and returned. -/
def pop (name : String) (key count : Value) : Except Error Command := do
  checkKey "key" key
  if count.isNone then return converted name [key] .firstPair
  let _ ← checkInt32 "count" count
  return converted name [key, count] .pairs

/-- The members with the lowest scores removed and returned. -/
def zpopmin (key count : Value) : Except Error Command :=
  pop "ZPOPMIN" key count

/-- The members with the highest scores removed and returned. -/
def zpopmax (key count : Value) : Except Error Command :=
  pop "ZPOPMAX" key count

/-- A number is below zero. -/
def isNegativeNumber : Value → Bool
  | .int n => n < 0
  | .float x => x.isNegative
  | _ => false

/-- A member removed from an end of the first set that has one, at the latest after a timeout. -/
def blockingPop (name : String) (keys : List Value) (timeout : Value) :
    Except Error Command := do
  checkKeys keys
  checkScore "timeout" timeout
  if isNegativeNumber timeout then throw (.invalid .timeoutNegative)
  return converted name (keys ++ [timeout]) .keyedPair

/-- The member with the lowest score of the first set that has one. -/
def bzpopmin (keys : List Value) (timeout : Value) : Except Error Command :=
  blockingPop "BZPOPMIN" keys timeout

/-- The member with the highest score of the first set that has one. -/
def bzpopmax (keys : List Value) (timeout : Value) : Except Error Command :=
  blockingPop "BZPOPMAX" keys timeout

end SortedSets.Command

import SortedSets.Command.Update

/-!
# Commands that query a set

The size of a set and of a range of it, members by position, by score and in lexicographical
order, the position and the score of a member, and random members.

## Main definitions

* `Command.zcard`, `Command.zcount`, `Command.zlexcount`: counts
* `Command.byPosition`, `Command.byScore`, `Command.byMember`: members of a range, forwards and
  backwards
* `Command.zrank`, `Command.zscore`, `Command.zmscore`, `Command.zrandmember`
-/

namespace SortedSets.Command

/-- The size of a set. -/
def zcard (key : Value) : Except Error Command := do
  checkKey "key" key
  return plain "ZCARD" [key]

/-- The number of members in a range of scores. -/
def zcount (key range : Value) : Except Error Command :=
  overScores "ZCOUNT" key range

/-- The number of members in a lexicographical range. -/
def zlexcount (key range : Value) : Except Error Command :=
  overMembers "ZLEXCOUNT" key range

/-- A query for members, with their scores if they are asked for. -/
def members (name : String) (args : List Value) (withScores : Bool) (rest : List Value) :
    Command :=
  if withScores then converted name (args ++ word "WITHSCORES" :: rest) .pairs
  else plain name (args ++ rest)

/-- Members between two positions. -/
def byPosition (name : String) (key start stop withScores : Value) : Except Error Command := do
  checkKey "key" key
  let _ ← checkInt "start" start
  let _ ← checkInt "stop" stop
  return members name [key, start, stop] withScores.isTruthy []

/-- Members between two positions, lowest scores first. -/
def zrange (key start stop withScores : Value) : Except Error Command :=
  byPosition "ZRANGE" key start stop withScores

/-- Members between two positions, highest scores first. -/
def zrevrange (key start stop withScores : Value) : Except Error Command :=
  byPosition "ZREVRANGE" key start stop withScores

/-- The two ends of a range, the upper one first if the order is reversed. -/
def ends (reversed : Bool) (e : Value × Value) : List Value :=
  if reversed then [e.2, e.1] else [e.1, e.2]

/-- Members in a range of scores. -/
def byScore (name : String) (reversed : Bool) (key range limit withScores : Value) :
    Except Error Command := do
  checkKey "key" key
  let e ← (← checkRange range).encodeScore
  let limits ← limitArguments limit
  return members name (key :: ends reversed e) withScores.isTruthy limits

/-- Members in a range of scores, lowest first. -/
def zrangebyscore (key range limit withScores : Value) : Except Error Command :=
  byScore "ZRANGEBYSCORE" false key range limit withScores

/-- Members in a range of scores, highest first. -/
def zrevrangebyscore (key range limit withScores : Value) : Except Error Command :=
  byScore "ZREVRANGEBYSCORE" true key range limit withScores

/-- Members in a lexicographical range. -/
def byMember (name : String) (reversed : Bool) (key range limit : Value) :
    Except Error Command := do
  checkKey "key" key
  let e ← (← checkRange range).encodeLex
  let limits ← limitArguments limit
  return members name (key :: ends reversed e) false limits

/-- Members in a lexicographical range, in order. -/
def zrangebylex (key range limit : Value) : Except Error Command :=
  byMember "ZRANGEBYLEX" false key range limit

/-- Members in a lexicographical range, in reverse order. -/
def zrevrangebylex (key range limit : Value) : Except Error Command :=
  byMember "ZREVRANGEBYLEX" true key range limit

/-- A command about one member. -/
def overMember (name : String) (key member : Value) (c : Option Conversion) :
    Except Error Command := do
  checkKey "key" key
  checkMember member
  return ⟨Bytes.ascii name, [key, member], c⟩

/-- The position of a member, counted from the lowest score. -/
def zrank (key member : Value) : Except Error Command :=
  overMember "ZRANK" key member none

/-- The position of a member, counted from the highest score. -/
def zrevrank (key member : Value) : Except Error Command :=
  overMember "ZREVRANK" key member none

/-- The score of a member. -/
def zscore (key member : Value) : Except Error Command :=
  overMember "ZSCORE" key member (some .optionalScore)

/-- The scores of members. -/
def zmscore (key : Value) (ms : List Value) : Except Error Command := do
  checkKey "key" key
  ms.forM checkMember
  return converted "ZMSCORE" (key :: ms) .scores

/-- One random member, or a number of them. -/
def zrandmember (key count withScores : Value) : Except Error Command := do
  checkKey "key" key
  if count.isNone then
    if withScores.isTruthy then
      return converted "ZRANDMEMBER" [key, .int 1, word "WITHSCORES"] .firstPair
    else return plain "ZRANDMEMBER" [key]
  let _ ← checkInt32 "count" count
  return members "ZRANDMEMBER" [key, count] withScores.isTruthy []

end SortedSets.Command

import SortedSets.Command.Combine
import SortedSets.Command.Scan

/-!
# Calling commands by name

A caller names a method and gives its arguments by position or by name. A call whose arguments
do not fit the parameters of the method is refused before any of them is looked at.

## Main definitions

* `Signature`, `Signature.bind`: the parameters of a method, and arguments put into them
* `Method`: the methods, with `Method.name` and `Method.signature`
* `Call`: what a call makes, a command or a cursor
* `Method.call`
-/

namespace SortedSets

/-- The parameters of a method: positional ones, the first of them without default; whether any
number of further positional arguments may follow; and those given by name only. -/
structure Signature where
  required : List String
  optional : List (String × Value)
  variadic : Bool
  named : List (String × Value)

/-- The arguments of a call, each under the name of its parameter, and the further ones. -/
structure Arguments where
  values : List (String × Value)
  further : List Value

namespace Arguments

/-- The argument for a parameter. -/
def get (a : Arguments) (name : String) : Value :=
  ((a.values.find? fun p => p.1 = name).map Prod.snd).getD .none

end Arguments

namespace Signature

/-- The names of the positional parameters. -/
def positional (s : Signature) : List String :=
  s.required ++ s.optional.map Prod.fst

/-- The arguments given by name are for different parameters, none of which was given by
position. -/
def acceptsNamed (s : Signature) (taken : List String) (named : List (String × Value)) : Bool :=
  named.all fun p =>
    (s.positional.contains p.1 || (s.named.map Prod.fst).contains p.1) && !taken.contains p.1

/-- Arguments put into the parameters of a method. -/
def bind (s : Signature) (args : List Value) (named : List (String × Value)) :
    Except Error Arguments :=
  let byPosition := s.positional.zip args
  let further := args.drop s.positional.length
  let given := byPosition ++ named
  if !s.variadic && !further.isEmpty then .error .badType
  else if !s.acceptsNamed (byPosition.map Prod.fst) named then .error .badType
  else if !s.required.all fun r => given.any fun p => p.1 = r then .error .badType
  else .ok ⟨given ++ s.optional ++ s.named, further⟩

end Signature

/-- The methods of a client. -/
inductive Method where
  | zadd
  | zaddTuples
  | zcard
  | zcount
  | zincrby
  | zlexcount
  | zrandmember
  | zrange
  | zrevrange
  | zrangebyscore
  | zrevrangebyscore
  | zrangebylex
  | zrevrangebylex
  | zrank
  | zrevrank
  | zrem
  | zremrangebylex
  | zremrangebyrank
  | zremrangebyscore
  | zscore
  | zmscore
  | zpopmin
  | zpopmax
  | bzpopmin
  | bzpopmax
  | zdiff
  | zdiffstore
  | zinter
  | zinterstore
  | zunion
  | zunionstore
  | zscan
  | zscanIter
  | izscan
deriving DecidableEq, Repr

/-- What a call makes: a command to send, or a cursor over a set. -/
inductive Call where
  | send (c : Command)
  | scan (key : Value) (c : Cursor ScanOptions)

namespace Method

/-- All methods. -/
def all : List Method :=
  [zadd, zaddTuples, zcard, zcount, zincrby, zlexcount, zrandmember, zrange, zrevrange,
   zrangebyscore, zrevrangebyscore, zrangebylex, zrevrangebylex, zrank, zrevrank, zrem,
   zremrangebylex, zremrangebyrank, zremrangebyscore, zscore, zmscore, zpopmin, zpopmax,
   bzpopmin, bzpopmax, zdiff, zdiffstore, zinter, zinterstore, zunion, zunionstore, zscan,
   zscanIter, izscan]

/-- The name of a method. -/
def name : Method → String
  | zadd => "zadd"
  | zaddTuples => "zadd_tuples"
  | zcard => "zcard"
  | zcount => "zcount"
  | zincrby => "zincrby"
  | zlexcount => "zlexcount"
  | zrandmember => "zrandmember"
  | zrange => "zrange"
  | zrevrange => "zrevrange"
  | zrangebyscore => "zrangebyscore"
  | zrevrangebyscore => "zrevrangebyscore"
  | zrangebylex => "zrangebylex"
  | zrevrangebylex => "zrevrangebylex"
  | zrank => "zrank"
  | zrevrank => "zrevrank"
  | zrem => "zrem"
  | zremrangebylex => "zremrangebylex"
  | zremrangebyrank => "zremrangebyrank"
  | zremrangebyscore => "zremrangebyscore"
  | zscore => "zscore"
  | zmscore => "zmscore"
  | zpopmin => "zpopmin"
  | zpopmax => "zpopmax"
  | bzpopmin => "bzpopmin"
  | bzpopmax => "bzpopmax"
  | zdiff => "zdiff"
  | zdiffstore => "zdiffstore"
  | zinter => "zinter"
  | zinterstore => "zinterstore"
  | zunion => "zunion"
  | zunionstore => "zunionstore"
  | zscan => "zscan"
  | zscanIter => "zscan_iter"
  | izscan => "izscan"

/-- The method of a name. -/
def named? (s : String) : Option Method :=
  all.find? fun m => m.name = s

/-- The parameters of a method. -/
def signature : Method → Signature
  | zadd =>
    ⟨["key", "score", "member"], [], true,
      [("exist", .none), ("compare", .none), ("changed", .bool false)]⟩
  | zaddTuples =>
    ⟨["key", "tuples"], [], false,
      [("exist", .none), ("compare", .none), ("changed", .bool false)]⟩
  | zcard => ⟨["key"], [], false, []⟩
  | zcount | zlexcount | zremrangebyscore | zremrangebylex =>
    ⟨["key"], [("range", .none)], false, []⟩
  | zincrby => ⟨["key", "increment", "member"], [], false, []⟩
  | zrandmember => ⟨["key"], [("count", .none)], false, [("withscores", .bool false)]⟩
  | zrange | zrevrange =>
    ⟨["key"], [("start", .int 0), ("stop", .int (-1)), ("withscores", .bool false)], false, []⟩
  | zrangebyscore | zrevrangebyscore =>
    ⟨["key"], [("range", .none), ("limit", .none), ("withscores", .bool false)], false, []⟩
  | zrangebylex | zrevrangebylex => ⟨["key"], [("range", .none), ("limit", .none)], false, []⟩
  | zrank | zrevrank | zscore => ⟨["key", "member"], [], false, []⟩
  | zrem | zmscore => ⟨["key", "member"], [], true, []⟩
  | zremrangebyrank => ⟨["key", "start", "stop"], [], false, []⟩
  | zpopmin | zpopmax => ⟨["key"], [("count", .none)], false, []⟩
  | bzpopmin | bzpopmax => ⟨["key"], [], true, [("timeout", .int 0)]⟩
  | zdiff => ⟨["key"], [], true, [("withscores", .bool false)]⟩
  | zdiffstore => ⟨["destkey", "key"], [], true, []⟩
  | zinter | zunion =>
    ⟨["key"], [], true,
      [("aggregate", .none), ("weights", .none), ("withscores", .bool false)]⟩
  | zinterstore | zunionstore =>
    ⟨["destkey", "key"], [], true, [("aggregate", .none), ("weights", .none)]⟩
  | zscan => ⟨["key"], [("cursor", .int 0), ("options", .none)], false, []⟩
  | zscanIter => ⟨["key"], [("options", .none)], false, [("cursor", .int 0)]⟩
  | izscan => ⟨["key"], [], false, [("match", .none), ("count", .none)]⟩

/-- What a method makes of its arguments. -/
def apply (m : Method) (mode : Mode) (a : Arguments) : Except Error Call :=
  let key := a.get "key"
  let keys := key :: a.further
  let members := a.get "member" :: a.further
  let send (c : Except Error Command) : Except Error Call := c.map Call.send
  match m with
  | zadd =>
    send (Command.zadd key (a.get "score") (a.get "member") a.further (a.get "exist")
      (a.get "compare") (a.get "changed"))
  | zaddTuples =>
    send (Command.zaddTuples key (a.get "tuples") (a.get "exist") (a.get "compare")
      (a.get "changed"))
  | zcard => send (Command.zcard key)
  | zcount => send (Command.zcount key (a.get "range"))
  | zincrby => send (Command.zincrby key (a.get "increment") (a.get "member"))
  | zlexcount => send (Command.zlexcount key (a.get "range"))
  | zrandmember => send (Command.zrandmember key (a.get "count") (a.get "withscores"))
  | zrange => send (Command.zrange key (a.get "start") (a.get "stop") (a.get "withscores"))
  | zrevrange =>
    send (Command.zrevrange key (a.get "start") (a.get "stop") (a.get "withscores"))
  | zrangebyscore =>
    send (Command.zrangebyscore key (a.get "range") (a.get "limit") (a.get "withscores"))
  | zrevrangebyscore =>
    send (Command.zrevrangebyscore key (a.get "range") (a.get "limit") (a.get "withscores"))
  | zrangebylex => send (Command.zrangebylex key (a.get "range") (a.get "limit"))
  | zrevrangebylex => send (Command.zrevrangebylex key (a.get "range") (a.get "limit"))
  | zrank => send (Command.zrank key (a.get "member"))
  | zrevrank => send (Command.zrevrank key (a.get "member"))
  | zrem => send (Command.zrem key members)
  | zremrangebylex => send (Command.zremrangebylex key (a.get "range"))
  | zremrangebyrank => send (Command.zremrangebyrank key (a.get "start") (a.get "stop"))
  | zremrangebyscore => send (Command.zremrangebyscore key (a.get "range"))
  | zscore => send (Command.zscore key (a.get "member"))
  | zmscore => send (Command.zmscore key members)
  | zpopmin => send (Command.zpopmin key (a.get "count"))
  | zpopmax => send (Command.zpopmax key (a.get "count"))
  | bzpopmin => send (Command.bzpopmin keys (a.get "timeout"))
  | bzpopmax => send (Command.bzpopmax keys (a.get "timeout"))
  | zdiff => send (Command.zdiff keys (a.get "withscores"))
  | zdiffstore => send (Command.zdiffstore (a.get "destkey") keys)
  | zinter =>
    send (Command.zinter keys (a.get "aggregate") (a.get "weights") (a.get "withscores"))
  | zinterstore =>
    send (Command.zinterstore (a.get "destkey") keys (a.get "aggregate") (a.get "weights"))
  | zunion =>
    send (Command.zunion keys (a.get "aggregate") (a.get "weights") (a.get "withscores"))
  | zunionstore =>
    send (Command.zunionstore (a.get "destkey") keys (a.get "aggregate") (a.get "weights"))
  | zscan => send (Command.zscan mode key (a.get "cursor") (a.get "options"))
  | zscanIter =>
    (Command.zscanIter mode key (a.get "options") (a.get "cursor")).map (Call.scan key)
  | izscan => (Command.izscan mode key (a.get "match") (a.get "count")).map (Call.scan key)

/-- A call of a method in a mode. -/
def call (m : Method) (mode : Mode) (args : List Value) (named : List (String × Value)) :
    Except Error Call := do
  m.apply mode (← m.signature.bind args named)

example : named? "zadd_tuples" = some zaddTuples := by decide

end Method

end SortedSets

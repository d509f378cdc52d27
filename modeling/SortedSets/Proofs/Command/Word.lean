import SortedSets.Command.Method
import SortedSets.Connection.Exchange

/-!
# The words of commands

Each method makes commands of one word, which opens or ends no transaction; and but for the scans
it makes the same command in every mode.

## Main definitions

* `Method.word`: the word of the commands of a method
* `Method.scans`: the methods that scan a set

## Main results

* `Method.name_of_call`, `Method.verb_word`: the word of a command that a method makes
* `Method.call_mode`: a method makes the same command in every mode
-/

namespace SortedSets

/-- If there is a command, this is its word. -/
def Command.Named (w : String) (r : Except Error Command) : Prop :=
  ∀ c, r = .ok c → c.name = Bytes.ascii w

namespace Command.Named

variable {w : String}

@[simp] theorem of_ok (c : Command) : Named w (.ok c) ↔ c.name = Bytes.ascii w :=
  ⟨fun h => h c rfl, fun h _ hd => Except.ok.inj hd ▸ h⟩

@[simp] theorem of_pure (c : Command) : Named w (pure c) ↔ c.name = Bytes.ascii w := of_ok c

@[simp] theorem of_error (e : Error) : Named w (.error e) :=
  fun _ hc => by cases hc

@[simp] theorem of_throw (e : Error) : Named w (throw e) := of_error e

@[simp] theorem ite_iff {p : Prop} [Decidable p] {r s : Except Error Command} :
    Named w (if p then r else s) ↔ (p → Named w r) ∧ (¬ p → Named w s) := by
  by_cases hp : p <;> simp [hp]

/-- Whatever is checked before, the word is that of what is made in the end. -/
@[simp] theorem bind_iff {α : Type} {r : Except Error α} {f : α → Except Error Command} :
    Named w (r >>= f) ↔ ∀ a, r = .ok a → Named w (f a) := by
  cases r with
  | error e => exact iff_of_true (of_error e) nofun
  | ok a => exact ⟨fun h b hb => Except.ok.inj hb ▸ h, fun h => h a rfl⟩

@[simp] theorem map_iff {α : Type} {r : Except Error α} {f : α → Command} :
    Named w (f <$> r) ↔ ∀ a, r = .ok a → (f a).name = Bytes.ascii w := by
  cases r with
  | error e => exact iff_of_true (of_error e) nofun
  | ok a => exact ⟨fun h b hb => Except.ok.inj hb ▸ (of_ok _).1 h, fun h => (of_ok _).2 (h a rfl)⟩

end Command.Named

namespace Method

/-- The word of the commands of a method. -/
def word : Method → String
  | zadd | zaddTuples => "ZADD"
  | zcard => "ZCARD"
  | zcount => "ZCOUNT"
  | zincrby => "ZINCRBY"
  | zlexcount => "ZLEXCOUNT"
  | zrandmember => "ZRANDMEMBER"
  | zrange => "ZRANGE"
  | zrevrange => "ZREVRANGE"
  | zrangebyscore => "ZRANGEBYSCORE"
  | zrevrangebyscore => "ZREVRANGEBYSCORE"
  | zrangebylex => "ZRANGEBYLEX"
  | zrevrangebylex => "ZREVRANGEBYLEX"
  | zrank => "ZRANK"
  | zrevrank => "ZREVRANK"
  | zrem => "ZREM"
  | zremrangebylex => "ZREMRANGEBYLEX"
  | zremrangebyrank => "ZREMRANGEBYRANK"
  | zremrangebyscore => "ZREMRANGEBYSCORE"
  | zscore => "ZSCORE"
  | zmscore => "ZMSCORE"
  | zpopmin => "ZPOPMIN"
  | zpopmax => "ZPOPMAX"
  | bzpopmin => "BZPOPMIN"
  | bzpopmax => "BZPOPMAX"
  | zdiff => "ZDIFF"
  | zdiffstore => "ZDIFFSTORE"
  | zinter => "ZINTER"
  | zinterstore => "ZINTERSTORE"
  | zunion => "ZUNION"
  | zunionstore => "ZUNIONSTORE"
  | zscan | zscanIter | izscan => "ZSCAN"

/-- The methods that scan a set. -/
def scans : Method → Bool
  | zscan | zscanIter | izscan => true
  | _ => false

end Method

namespace Command

@[simp] theorem name_members (w : String) (args : List Value) (withScores : Bool)
    (rest : List Value) : (members w args withScores rest).name = Bytes.ascii w := by
  unfold members
  split <;> rfl

@[simp] theorem name_plain (w : String) (args : List Value) :
    (plain w args).name = Bytes.ascii w := rfl

@[simp] theorem name_converted (w : String) (args : List Value) (c : Conversion) :
    (converted w args c).name = Bytes.ascii w := rfl

/-- Each method names its commands by its own word. -/
theorem named_send (m : Method) (mode : Mode) (a : Arguments) {c : Command}
    (h : m.apply mode a = .ok (.send c)) : c.name = Bytes.ascii m.word := by
  have hsend {w : String} {r : Except Error Command} (hw : Named w r)
      (hr : r.map Call.send = .ok (.send c)) : c.name = Bytes.ascii w := by
    cases r with
    | error e => cases hr
    | ok d => exact hw c (congrArg Except.ok (Call.send.inj (Except.ok.inj hr)))
  have hscan {key : Value} {r : Except Error (Cursor ScanOptions)}
      (hr : r.map (Call.scan key) = .ok (.send c)) : False := by
    cases r <;> cases hr
  -- two methods make cursors; each of the others names its command in its own definition
  cases m with
  | zscanIter | izscan => exact (hscan h).elim
  | _ =>
    refine hsend ?_ h
    simp [Method.word, zadd, zaddTuples, zincrby, zrem, zremrangebyrank, zremrangebyscore,
      zremrangebylex, overScores, overMembers, pop, zpopmin, zpopmax, blockingPop, bzpopmin,
      bzpopmax, zcard, zcount, zlexcount, byPosition, zrange, zrevrange, byScore, zrangebyscore,
      zrevrangebyscore, byMember, zrangebylex, zrevrangebylex, overMember, zrank, zrevrank, zscore,
      zmscore, zrandmember, zdiff, zdiffstore, combine, zinter, zunion, combineStore, zinterstore,
      zunionstore, zscan, scanPage]

end Command

namespace Method

variable {m : Method} {mode : Mode} {args : List Value} {named : List (String × Value)}

/-- A command that a method makes has the word of the method. -/
theorem name_of_call {c : Command} (h : m.call mode args named = .ok (.send c)) :
    c.name = Bytes.ascii m.word := by
  unfold call at h
  cases ha : m.signature.bind args named with
  | error e =>
    rw [ha] at h
    cases h
  | ok a =>
    rw [ha] at h
    exact Command.named_send m mode a h

/-- A method makes no commands that open or end transactions. -/
theorem verb_word (m : Method) : Verb.ofWord (.bytes (Bytes.ascii m.word)) = .ok .other := by
  cases m <;> rfl

/-- But for the scans a method makes the same command in every mode. -/
theorem call_mode (hm : m.scans = false) (mode mode' : Mode) (args : List Value)
    (named : List (String × Value)) : m.call mode args named = m.call mode' args named := by
  have happly (a : Arguments) : m.apply mode a = m.apply mode' a := by
    cases m <;> first | rfl | cases hm
  simp only [call, happly]

end Method

end SortedSets

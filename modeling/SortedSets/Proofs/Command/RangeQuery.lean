import SortedSets.Proofs.Command.Grammar
import SortedSets.Proofs.Range.Ends
import SortedSets.Proofs.Session.Sent

/-!
# Queries for the members in a range

Four methods query the members in a range, by score or in lexicographical order, forwards or backwards.
The server takes the words of such a command by their places: the key, the two ends, and then the
clauses. So it reads what was asked, whatever the key and the ends spell.

## Main definitions

* `Method.rangeQuery`: the four methods
* `RangeQuery`, `RangeQuery.read?`: what such a command asks, read off its words
* `Limit.Given`, `Limit.Fits`: limits as a caller gives them, and those that can be sent

## Main results

* `Command.inRange_cases`: what becomes of the arguments
* `RangeQuery.read?_words`: the words of a command are read as what was asked
* `Session.range_query_reads_back`: the calls
-/

namespace SortedSets

/-! ## The methods -/

/-- The methods that query the members in a range. -/
def Method.rangeQuery (kind : BoundaryKind) (reversed : Bool) : Method :=
  match kind, reversed with
  | .score, false => .zrangebyscore
  | .score, true => .zrevrangebyscore
  | .lex, false => .zrangebylex
  | .lex, true => .zrevrangebylex

/-- The scores are asked for as well; they cannot be in a lexicographical query. -/
def Arguments.asksScores (kind : BoundaryKind) (a : Arguments) : Bool :=
  kind = .score && (a.get "withscores").isTruthy

/-- A query of the members in a range. -/
def Command.inRange (kind : BoundaryKind) (reversed : Bool) (key range limit : Value)
    (withScores : Bool) : Except Error Command := do
  checkKey "key" key
  let e ← (← checkRange range).encodeAs kind
  let limits ← limitArguments limit
  return members (Method.rangeQuery kind reversed).word (key :: ends reversed e) withScores limits

theorem Method.apply_rangeQuery (kind : BoundaryKind) (reversed : Bool) (mode : Mode)
    (a : Arguments) :
    (rangeQuery kind reversed).apply mode a =
      (Command.inRange kind reversed (a.get "key") (a.get "range") (a.get "limit")
        (a.asksScores kind)).map Call.send := by
  cases kind <;> cases reversed <;> rfl

theorem Method.named?_rangeQuery (kind : BoundaryKind) (reversed : Bool) :
    named? (rangeQuery kind reversed).name = some (rangeQuery kind reversed) := by
  cases kind <;> cases reversed <;> decide

theorem Method.scans_rangeQuery (kind : BoundaryKind) (reversed : Bool) :
    (rangeQuery kind reversed).scans = false := by
  cases kind <;> cases reversed <;> rfl

/-! ## Limits -/

namespace Limit

/-- The offset and the count of a limit, unless it is none. -/
def window? : Limit → Option (Int × Int)
  | unlimited => none
  | window offset count => some (offset, count)

/-- A limit as a caller gives it: none, or a limit. -/
inductive Given : Value → Option (Int × Int) → Prop where
  | none : Given .none Option.none
  | limit (l : Limit) : Given (.limit l) l.window?

/-- The number fits into 32 bits with a sign. -/
def FitsInt32 (n : Int) : Prop :=
  -0x80000000 ≤ n ∧ n ≤ 0x7FFFFFFF

instance (n : Int) : Decidable (FitsInt32 n) :=
  inferInstanceAs (Decidable (_ ∧ _))

/-- The limit can be sent: there is none, or its offset and its count fit. -/
def Fits (limit : Option (Int × Int)) : Prop :=
  ∀ p, limit = some p → FitsInt32 p.1 ∧ FitsInt32 p.2

end Limit

/-- The clause of a limit. -/
def limitClause : Option (Int × Int) → List Value
  | none => []
  | some (offset, count) => [word "LIMIT", .int offset, .int count]

theorem checkInt32_int (name : String) (n : Int) :
    (Limit.FitsInt32 n ∧ checkInt32 name (.int n) = .ok n) ∨
      (¬ Limit.FitsInt32 n ∧ checkInt32 name (.int n) = .error (.notInt32 name n)) := by
  by_cases hn : Limit.FitsInt32 n
  · exact .inl ⟨hn, if_pos hn⟩
  · exact .inr ⟨hn, if_neg hn⟩

/-- A limit that can be sent is sent as its clause, and another one is refused. -/
theorem limitArguments_cases {v : Value} {limit : Option (Int × Int)} (hl : Limit.Given v limit) :
    (Limit.Fits limit ∧ limitArguments v = .ok (limitClause limit)) ∨
      (¬ Limit.Fits limit ∧ ∃ name n, limitArguments v = .error (.notInt32 name n)) := by
  have hnone : Limit.Fits none := by
    intro p hp
    cases hp
  cases hl with
  | none => exact .inl ⟨hnone, rfl⟩
  | limit l =>
    cases l with
    | unlimited => exact .inl ⟨hnone, rfl⟩
    | window offset count =>
      -- the offset is checked first, so that it is named if both are out of range
      rcases checkInt32_int "offset" offset with ⟨ho, heo⟩ | ⟨ho, heo⟩
      · rcases checkInt32_int "count" count with ⟨hc, hec⟩ | ⟨hc, hec⟩
        · refine .inl ⟨fun p hp => ?_, by simp only [limitArguments, heo, hec]; rfl⟩
          cases hp
          exact ⟨ho, hc⟩
        · refine .inr ⟨fun h => hc (h _ rfl).2, "count", count, ?_⟩
          simp only [limitArguments, heo, hec]
          rfl
      · refine .inr ⟨fun h => ho (h _ rfl).1, "offset", offset, ?_⟩
        simp only [limitArguments, heo]
        rfl

/-! ## Ranges -/

/-- A range as a caller gives it: none, or one that was built with the checks. -/
inductive Range.Given : Value → Range → Prop where
  | none : Given .none unbounded
  | range {r : Range} (h : r.Built) : Given (.range r) r

theorem Range.Given.built {v : Value} {r : Range} (h : Given v r) : r.Built := by
  cases h with
  | none => exact .unbounded
  | range h => exact h

theorem Range.Given.checkRange_eq {v : Value} {r : Range} (h : Given v r) : checkRange v = .ok r := by
  cases h <;> rfl

/-! ## Commands -/

namespace Command

variable {kind : BoundaryKind} {key range limit : Value} {r : Range} {l : Option (Int × Int)}

theorem inRange_of_checkKey {e : Error} (hkey : checkKey "key" key = .error e) (reversed : Bool)
    (withScores : Bool) : inRange kind reversed key range limit withScores = .error e := by
  rw [inRange, hkey]
  rfl

/-- A range of the other kind is refused. -/
theorem inRange_of_misfit (hr : Range.Given range r) (hk : ¬ r.Fits kind) (reversed : Bool)
    (withScores : Bool) :
    ∃ e, inRange kind reversed key range limit withScores = .error e ∧
      e.class? = some .invalidArgument := by
  cases hkey : checkKey "key" key with
  | error e => exact ⟨e, inRange_of_checkKey hkey .., complains_checkKey _ _ e hkey⟩
  | ok _ =>
    obtain ⟨c, hc⟩ := Range.encodeAs_of_misfit hk
    refine ⟨.invalid c, ?_, rfl⟩
    simp only [inRange, hkey, hr.checkRange_eq, bind, Except.bind, hc]

/-- A limit that cannot be sent is refused, unless something else is. -/
theorem inRange_of_unfit (hr : Range.Given range r) (hl : Limit.Given limit l)
    (hfit : ¬ Limit.Fits l) (reversed : Bool) (withScores : Bool) :
    ∃ e, inRange kind reversed key range limit withScores = .error e ∧
      (e.class? = some .invalidArgument ∨ e.class? = some .argumentOutOfRange) ∧
      (checkKey "key" key = .ok () → r.Fits kind → e.class? = some .argumentOutOfRange) := by
  -- the key is checked first, then the range, and the limit last
  by_cases hk : r.Fits kind
  · cases hkey : checkKey "key" key with
    | error e =>
      refine ⟨e, inRange_of_checkKey hkey .., .inl (complains_checkKey _ _ e hkey), fun h => ?_⟩
      cases h
    | ok _ =>
      obtain ⟨low, high, hends, -, -⟩ := Range.readEnd?_encodeAs hr.built hk
      obtain ⟨hfit', -⟩ | ⟨-, name, n, hn⟩ := limitArguments_cases hl
      · exact absurd hfit' hfit
      · refine ⟨.notInt32 name n, ?_, .inr rfl, fun _ _ => rfl⟩
        simp only [inRange, hkey, hr.checkRange_eq, bind, Except.bind, hends, hn]
  · obtain ⟨e, he, hclass⟩ := inRange_of_misfit hr hk reversed withScores
    exact ⟨e, he, .inl hclass, fun _ h => absurd h hk⟩

/-- Everything else is sent. -/
theorem inRange_of_fits (hkey : checkKey "key" key = .ok ()) (hr : Range.Given range r)
    (hk : r.Fits kind) (hl : Limit.Given limit l) (hfit : Limit.Fits l) (reversed : Bool)
    (withScores : Bool) :
    ∃ low high, Boundary.readEnd? kind true low = some (r.min.readAs kind true) ∧
      Boundary.readEnd? kind false high = some (r.max.readAs kind false) ∧
      inRange kind reversed key range limit withScores =
        .ok (members (Method.rangeQuery kind reversed).word
          (key :: ends reversed (.bytes low, .bytes high)) withScores (limitClause l)) := by
  obtain ⟨low, high, hends, hlow, hhigh⟩ := Range.readEnd?_encodeAs hr.built hk
  obtain ⟨-, hlimit⟩ | ⟨hfit', -⟩ := limitArguments_cases hl
  · refine ⟨low, high, hlow, hhigh, ?_⟩
    simp only [inRange, hkey, hr.checkRange_eq, bind, Except.bind, hends, hlimit]
    rfl
  · exact absurd hfit hfit'

/-- If there is a command, the range and the limit fit. -/
theorem eq_of_inRange (hr : Range.Given range r) (hl : Limit.Given limit l) {reversed : Bool}
    {withScores : Bool} {command : Command}
    (h : inRange kind reversed key range limit withScores = .ok command) :
    ∃ low high, Boundary.readEnd? kind true low = some (r.min.readAs kind true) ∧
      Boundary.readEnd? kind false high = some (r.max.readAs kind false) ∧
      command = members (Method.rangeQuery kind reversed).word
        (key :: ends reversed (.bytes low, .bytes high)) withScores (limitClause l) := by
  have hkey : checkKey "key" key = .ok () := by
    cases hkey : checkKey "key" key with
    | ok _ => rfl
    | error e => cases h.symm.trans (inRange_of_checkKey hkey ..)
  have hrk : r.Fits kind := by
    by_contra hrk
    obtain ⟨e, he, -⟩ := inRange_of_misfit hr hrk reversed withScores
    cases h.symm.trans he
  have hfit : Limit.Fits l := by
    by_contra hfit
    obtain ⟨e, he, -⟩ := inRange_of_unfit hr hl hfit reversed withScores
    cases h.symm.trans he
  obtain ⟨low, high, hlow, hhigh, hcommand⟩ := inRange_of_fits hkey hr hrk hl hfit reversed withScores
  exact ⟨low, high, hlow, hhigh, Except.ok.inj (h.symm.trans hcommand)⟩

end Command

/-! ## Reading -/

/-- What a query of the members in a range asks. -/
structure RangeQuery where
  key : Bytes
  min : Boundary
  max : Boundary
  withScores : Bool
  limit : Option (Int × Int)

/-- The arguments of a query can be sent if the key can. -/
theorem Command.sendable_inRange {key : Value} (hkey : key.Sendable) {name : String}
    (reversed : Bool) (low high : Bytes) (withScores : Bool) (l : Option (Int × Int)) :
    ∀ v ∈ (members name (key :: ends reversed (.bytes low, .bytes high)) withScores
      (limitClause l)).args, v.Sendable := by
  rw [args_members, List.forall_mem_append, List.forall_mem_append, List.forall_mem_cons]
  refine ⟨⟨hkey, ?_⟩, ?_, ?_⟩
  · cases reversed <;> simp [ends, Value.Sendable.bytes]
  · cases withScores <;> simp [word, Value.Sendable.bytes]
  · cases l <;> simp [limitClause, word, Value.Sendable.bytes, Value.Sendable.int]

namespace RangeQuery

/-- The clause of a limit, with which a command ends. -/
def readLimit? (words : List Bytes) : Option (Option (Int × Int)) :=
  match takeWord "LIMIT" words with
  | (false, []) => some none
  | (true, [offset, count]) => do return some (← offset.int?, ← count.int?)
  | _ => none

/-- A query by the places of its words: the word of the command, the key, the two ends, the upper one
first if the order is reversed, and the clauses. -/
def read? (kind : BoundaryKind) (reversed : Bool) : List Bytes → Option RangeQuery
  | name :: key :: first :: second :: clauses =>
    if name.isWord (Method.rangeQuery kind reversed).word then do
      let min ← Boundary.readEnd? kind true (if reversed then second else first)
      let max ← Boundary.readEnd? kind false (if reversed then first else second)
      let (withScores, clauses) := takeWord "WITHSCORES" clauses
      return ⟨key, min, max, withScores, ← readLimit? clauses⟩
    else none
  | _ => none

theorem readLimit?_limitClause {l : Option (Int × Int)} {words : List Bytes}
    (h : List.Forall₂ Value.Converts (limitClause l) words) :
    takeWord "WITHSCORES" words = (false, words) ∧ readLimit? words = some l := by
  cases l with
  | none =>
    cases h
    exact ⟨rfl, rfl⟩
  | some p =>
    obtain ⟨offset, count⟩ := p
    simp only [limitClause, List.forall₂_cons_left_iff, List.forall₂_nil_left_iff,
      Value.converts_word_iff, Value.converts_int_iff] at h
    obtain ⟨_, _, rfl, ⟨_, _, rfl, ⟨_, _, rfl, rfl, rfl⟩, rfl⟩, rfl⟩ := h
    refine ⟨takeWord_of_not_isWord (by decide) _, ?_⟩
    rw [readLimit?, takeWord_of_isWord (by decide)]
    simp

/-- The clauses of a query: whether scores are asked for, and the limit. -/
theorem exists_takeWord_clauses {withScores : Bool} {l : Option (Int × Int)} {words : List Bytes}
    (h : List.Forall₂ Value.Converts
      ((if withScores then [word "WITHSCORES"] else []) ++ limitClause l) words) :
    ∃ rest, takeWord "WITHSCORES" words = (withScores, rest) ∧ readLimit? rest = some l := by
  cases withScores with
  | false => exact ⟨words, readLimit?_limitClause h⟩
  | true =>
    obtain ⟨_, rest, hw, hrest, rfl⟩ := List.forall₂_cons_left_iff.1 h
    obtain rfl := Value.converts_word_iff.1 hw
    exact ⟨rest, takeWord_of_isWord (by decide) rest, (readLimit?_limitClause hrest).2⟩

theorem isWord_word (kind : BoundaryKind) (reversed : Bool) :
    (Bytes.ascii (Method.rangeQuery kind reversed).word).isWord
      (Method.rangeQuery kind reversed).word = true := by
  cases kind <;> cases reversed <;> decide

/-- The words of a query are read as what was asked. -/
theorem read?_words {kind : BoundaryKind} {reversed : Bool} {key : Value} {low high : Bytes}
    {min max : Boundary} {withScores : Bool} {l : Option (Int × Int)} {words : List Bytes}
    (hlow : Boundary.readEnd? kind true low = some min)
    (hhigh : Boundary.readEnd? kind false high = some max)
    (h : List.Forall₂ Value.Converts (.bytes (Bytes.ascii (Method.rangeQuery kind reversed).word) ::
      (key :: Command.ends reversed (.bytes low, .bytes high) ++
        ((if withScores then [word "WITHSCORES"] else []) ++ limitClause l))) words) :
    ∃ bs, key.Converts bs ∧ read? kind reversed words = some ⟨bs, min, max, withScores, l⟩ := by
  have hends : Command.ends reversed (.bytes low, .bytes high) =
      [.bytes (if reversed then high else low), .bytes (if reversed then low else high)] := by
    cases reversed <;> rfl
  simp only [hends, List.cons_append, List.nil_append, List.forall₂_cons_left_iff,
    Value.converts_bytes_iff] at h
  obtain ⟨_, _, rfl, ⟨bs, _, hbs, ⟨_, _, rfl, ⟨_, clauses, rfl, hclauses, rfl⟩, rfl⟩, rfl⟩, rfl⟩ := h
  obtain ⟨rest, hscores, hlimit⟩ := exists_takeWord_clauses hclauses
  refine ⟨bs, hbs, ?_⟩
  cases reversed <;>
    simp [read?, isWord_word, hlow, hhigh, hscores, hlimit]

end RangeQuery

/-! ## Calls -/

namespace Session

variable {s : Session} {before : List Bytes}

/-- A query for the members in a range, of a range that was built with the checks and with a limit of
any offset and count. The words of its command, on the client or on a batch, are read as what was
asked: the bytes of the key, both ends of the range, whether scores are wanted, and the limit. If the
client accepts the call, it writes one request of these words; if not, it writes nothing. A range of
the other kind is refused as an invalid argument, and a limit that does not fit into 32 bits as out of
range, unless another argument is invalid. Over an open connection all else is accepted. -/
theorem range_query_reads_back (hw : s.written? = some before) (kind : BoundaryKind)
    (reversed : Bool) (args : List Value) (named : List (String × Value)) {a : Arguments}
    (ha : (Method.rangeQuery kind reversed).signature.bind args named = .ok a) {r : Range}
    (hr : Range.Given (a.get "range") r) {limit : Option (Int × Int)}
    (hl : Limit.Given (a.get "limit") limit) :
    let k : MethodCall := ⟨(Method.rangeQuery kind reversed).name, args, named⟩
    (∀ words, k.Speaks words → ∃ key, (a.get "key").Converts key ∧
      RangeQuery.read? kind reversed words =
        some ⟨key, r.min.readAs kind true, r.max.readAs kind false, a.asksScores kind, limit⟩) ∧
    (∀ x, (s.call k.method k.args k.named).2 = .ok x →
      ∃ words, k.Speaks words ∧ s.SendsCall k words) ∧
    (∀ e, (s.call k.method k.args k.named).2 = .error e → s.RefusesCall k e) ∧
    (¬ r.Fits kind → ∃ e, s.RefusesCall k e ∧ e.class? = some .invalidArgument) ∧
    (¬ Limit.Fits limit → ∃ e, s.RefusesCall k e ∧
      (e.class? = some .invalidArgument ∨ e.class? = some .argumentOutOfRange) ∧
      (checkKey "key" (a.get "key") = .ok () → r.Fits kind →
        e.class? = some .argumentOutOfRange)) ∧
    ∀ c, s.connection = some c → c.isClosed = false → (a.get "key").IsKey → r.Fits kind →
      Limit.Fits limit → ∃ x, (s.call k.method k.args k.named).2 = .ok x := by
  intro k
  have hk : k.scans = false := by
    rw [MethodCall.scans, Method.named?_rangeQuery]
    exact Method.scans_rangeQuery kind reversed
  have hjudged (mode : Mode) : k.judged mode = Command.inRange kind reversed (a.get "key")
      (a.get "range") (a.get "limit") (a.asksScores kind) :=
    MethodCall.judged_of_bind (Method.named?_rangeQuery kind reversed) ha
      (Method.apply_rangeQuery kind reversed mode a)
  refine ⟨?reads, fun x hx => sendsCall_of_ok hw hk hx, fun e he => refusesCall_of_error hw hk he,
    ?misfit, ?unfit, ?accepts⟩
  case reads =>
    rintro words ⟨mode, command, hj, hwords⟩
    rw [hjudged] at hj
    obtain ⟨low, high, hlow, hhigh, rfl⟩ := Command.eq_of_inRange hr hl hj
    rw [Command.name_members, Command.args_members] at hwords
    exact RangeQuery.read?_words hlow hhigh hwords
  case misfit =>
    intro hrk
    obtain ⟨e, he, hclass⟩ := Command.inRange_of_misfit hr hrk reversed (a.asksScores kind)
    exact ⟨e, refusesCall_of_judged hw hk ((hjudged s.mode).trans he), hclass⟩
  case unfit =>
    intro hfit
    obtain ⟨e, he, hclass⟩ := Command.inRange_of_unfit hr hl hfit reversed (a.asksScores kind)
    exact ⟨e, refusesCall_of_judged hw hk ((hjudged s.mode).trans he), hclass⟩
  case accepts =>
    intro c hc ho hkey hrk hfit
    obtain ⟨low, high, -, -, hcommand⟩ := Command.inRange_of_fits (checkKey_of_isKey hkey "key") hr hrk
      hl hfit reversed (a.asksScores kind)
    obtain ⟨words, -, hsends⟩ := sendsCall_of_judged hw hk hc ho ((hjudged s.mode).trans hcommand)
      (Command.sendable_inRange hkey.sendable reversed low high (a.asksScores kind) limit)
    exact ⟨_, hsends.1⟩

/-- A key and ends that spell clauses and marks. -/
theorem range_query_reads_back_marks :
    let limit : Bytes := Bytes.ascii "LIMIT"
    let min : Boundary := ⟨.bytes (Bytes.ascii "(WITHSCORES"), .bool true⟩
    let max : Boundary := ⟨.bytes limit, .bool true⟩
    ∃ words, (connected (.none, .none) .none).SendsCall
        ⟨"zrevrangebylex", [.bytes limit, .range ⟨min, max⟩, .limit (.window 0 (-1))], []⟩ words ∧
      RangeQuery.read? .lex true words = some ⟨limit, min, max, false, some (0, -1)⟩ := by
  intro limit min max
  have hr : Range.Given (.range ⟨min, max⟩) ⟨min, max⟩ :=
    .range (@Range.Built.closed min.value max.value _ rfl)
  have hfit : Limit.Fits (some (0, -1)) := by
    rintro p ⟨⟩
    decide
  obtain ⟨hreads, hsends, -, -, -, haccepts⟩ := range_query_reads_back
    (s := connected (.none, .none) .none) rfl .lex true
    [.bytes limit, .range ⟨min, max⟩, .limit (.window 0 (-1))] [] rfl hr
    (.limit (.window 0 (-1)))
  obtain ⟨x, hx⟩ := haccepts _ rfl rfl ⟨.bytes _, by decide⟩ (by rintro k ⟨⟩; rfl) hfit
  obtain ⟨words, hspeaks, hwords⟩ := hsends x hx
  obtain ⟨key, hkey, hread⟩ := hreads words hspeaks
  obtain rfl := Value.converts_bytes_iff.1 hkey
  exact ⟨words, hwords, hread⟩

end Session

end SortedSets

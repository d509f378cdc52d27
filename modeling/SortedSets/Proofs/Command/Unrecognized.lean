import SortedSets.Proofs.Command.Addition
import SortedSets.Proofs.Command.Combination

/-!
# Options with unknown values

Three options are given by constants: on which members an addition acts, which way it may change scores,
and the aggregate of a combination. What becomes of another value depends on the option. The way scores
may change is checked against its constants, and all else is refused. The condition on existing members is
compared with its constants, and all else passes for none. An aggregate has to be one, unless it counts
as false: then it passes for the sum, before it is looked at.

All three are given by name only, so a call with one value is compared with the same call with another.

## Main definitions

* `Value.Unrecognized`: a value is given, and it is none of the constants of an option
* `MethodCall.giving`: a call with one more argument by name
* `Session.Rejects`, `Session.TakesAs`: a call fails everywhere, or comes to the same as another one

## Main results

* `Signature.bind_given_or`: how an argument by name goes into the parameters
* `Command.addition_of_compare`, `Command.addition_of_exist`, `Command.combining_of_truthy`,
  `Command.combining_of_falsy`: the methods with an unknown value
* `Session.unrecognized_options`: the calls
-/

namespace SortedSets

/-! ## Constants -/

/-- A value is given, and it is none of the constants that have a meaning. -/
structure Value.Unrecognized (constants : List Value) (v : Value) : Prop where
  given : v ≠ .none
  unknown : v ∉ constants

/-- The constants for the members that an addition acts on. -/
def existConstants : List Value :=
  [.condition .ifExist, .condition .ifNotExist]

/-- The constants for the way that an addition may change scores. -/
def compareConstants : List Value :=
  [.condition .ifGreater, .condition .ifLess]

/-- The members of the enumeration of aggregates. -/
def aggregateConstants : List Value :=
  [.aggregate .sum, .aggregate .min, .aggregate .max]

theorem Value.isNone_eq_false {v : Value} (h : v ≠ .none) : v.isNone = false := by
  cases v with
  | none => exact absurd rfl h
  | _ => rfl

/-- Only the aggregates themselves can be put together with weights. -/
theorem Aggregation.build_of_unrecognized {v : Value} (h : v.Unrecognized aggregateConstants)
    (weights : Value) : build v weights = .error (.invalid (.aggregateType v)) := by
  cases v with
  | aggregate g =>
    refine absurd ?_ h.unknown
    cases g <;> simp [aggregateConstants]
  | _ => rfl

/-! ## Complaints -/

/-- What fails, and because of an argument that is invalid. -/
def FailsByArgument {α : Type} (r : Except Error α) : Prop :=
  ∃ e, r = .error e ∧ e.class? = some .invalidArgument

namespace FailsByArgument

variable {α β : Type} {r : Except Error α} {f : α → Except Error β}

theorem of_invalid (c : Complaint) : FailsByArgument (.error (.invalid c) : Except Error α) :=
  ⟨_, rfl, rfl⟩

theorem bind (h : FailsByArgument r) : FailsByArgument (r >>= f) := by
  obtain ⟨e, rfl, hclass⟩ := h
  exact ⟨e, rfl, hclass⟩

/-- A check may complain first. -/
theorem of_complains (hr : Complains r) (hf : ∀ a, FailsByArgument (f a)) :
    FailsByArgument (r >>= f) := by
  cases r with
  | error e => exact ⟨e, rfl, hr e rfl⟩
  | ok a => exact hf a

end FailsByArgument

/-! ## Methods -/

/-- The methods that add members. -/
def Method.addition (tuples : Bool) : Method :=
  if tuples then .zaddTuples else .zadd

theorem Method.named?_addition (tuples : Bool) :
    named? (addition tuples).name = some (addition tuples) := by
  cases tuples <;> decide

theorem Method.scans_addition (tuples : Bool) : (addition tuples).scans = false := by
  cases tuples <;> rfl

namespace Command

variable {exist compare changed aggregate weights : Value}

/-- What a method that adds members makes of its arguments. -/
def addition (tuples : Bool) (a : Arguments) : Except Error Command :=
  if tuples then
    zaddTuples (a.get "key") (a.get "tuples") (a.get "exist") (a.get "compare") (a.get "changed")
  else
    zadd (a.get "key") (a.get "score") (a.get "member") a.further (a.get "exist") (a.get "compare")
      (a.get "changed")

/-- The way scores may change is one of two constants, or it is refused. -/
theorem addFlags_of_compare (h : compare.Unrecognized compareConstants) (exist changed : Value) :
    FailsByArgument (addFlags exist compare changed) := by
  cases hflags : addFlags exist compare changed with
  | error e => exact ⟨e, rfl, complains_addFlags _ _ _ e hflags⟩
  | ok flags =>
    obtain ⟨comparing, hasked⟩ := exists_asked_of_addFlags hflags
    cases hasked with
    | none => exact absurd rfl h.given
    | condition hc =>
      refine absurd ?_ h.unknown
      simpa [compareConstants] using hc

/-- A condition on existing members that is not known passes for none. -/
theorem addFlags_of_exist (h : exist.Unrecognized existConstants) (compare changed : Value) :
    addFlags exist compare changed = addFlags .none compare changed := by
  have hne (c : Condition) (hc : .condition c ∈ existConstants) : exist ≠ .condition c := by
    rintro rfl
    exact h.unknown hc
  have hexist := hne .ifExist (by simp [existConstants])
  have hnotExist := hne .ifNotExist (by simp [existConstants])
  unfold addFlags
  split
  · contradiction
  · contradiction
  -- what is left depends on the way scores may change
  dsimp only
  split
  · rfl
  · contradiction
  · rfl
  · rfl
  · split <;> split <;> first | contradiction | rfl

/-- Whatever is checked before, the complaint is about an argument, and there is no command. -/
theorem addition_of_compare {a : Arguments} (h : (a.get "compare").Unrecognized compareConstants)
    (tuples : Bool) : FailsByArgument (addition tuples a) := by
  have hflags := addFlags_of_compare h (a.get "exist") (a.get "changed")
  have hkey := complains_checkKey "key" (a.get "key")
  cases tuples with
  | true =>
    refine .of_complains hkey fun _ => ?_
    split
    · exact .bind (.of_invalid _)
    · exact .bind hflags
  | false =>
    refine .of_complains hkey fun _ => .of_complains (complains_checkScore _ _) fun _ =>
      .of_complains (complains_checkMember _) fun _ => ?_
    split
    · exact .bind (.of_invalid _)
    · exact .of_complains (complains_checkPairs _) fun _ => .bind hflags

/-- The condition is all that two calls differ in, and neither is known: they come to the same. -/
theorem addition_of_exist {a a' : Arguments} (h : (a.get "exist").Unrecognized existConstants)
    (h' : a'.get "exist" = .none) (hsame : ∀ w, w ≠ "exist" → a.get w = a'.get w)
    (hfurther : a.further = a'.further) (tuples : Bool) : addition tuples a = addition tuples a' := by
  have hother (w : String) (hw : (w != "exist") = true) : a.get w = a'.get w :=
    hsame w (by simpa using hw)
  unfold addition zaddTuples zadd
  rw [addFlags_of_exist h, h', hfurther, hother "key" rfl, hother "tuples" rfl, hother "score" rfl,
    hother "member" rfl, hother "compare" rfl, hother "changed" rfl]

/-- An aggregate that is none is refused, if it counts as true, after everything else was checked. -/
theorem aggregationArguments_of_truthy (h : aggregate.Unrecognized aggregateConstants)
    (ht : aggregate.isTruthy = true) (sets : Nat) (weights : Value) :
    aggregationArguments sets aggregate weights =
      aggregationArguments sets (.aggregate .sum) weights >>= fun _ =>
        .error (.invalid (.aggregateType aggregate)) := by
  have hsum : (Value.aggregate .sum).isNone = false := rfl
  have htruthy : (Value.aggregate .sum).isTruthy = true := rfl
  simp only [aggregationArguments, Value.isNone_eq_false h.given, hsum, ht, htruthy, if_true,
    Aggregation.build_of_unrecognized h]
  cases checkWeights sets weights with
  | error e => rfl
  | ok ws =>
    simp only [bind, Except.bind]
    cases ws.check (.int sets) <;> rfl

/-- If it counts as false it stands for the sum. -/
theorem aggregationArguments_of_falsy (h : aggregate ≠ .none) (hf : aggregate.isTruthy = false)
    (sets : Nat) (weights : Value) :
    aggregationArguments sets aggregate weights =
      aggregationArguments sets (.aggregate .sum) weights := by
  have hsum : (Value.aggregate .sum).isNone = false := rfl
  have htruthy : (Value.aggregate .sum).isTruthy = true := rfl
  simp only [aggregationArguments, Value.isNone_eq_false h, hsum, hf, htruthy, if_true,
    Bool.false_eq_true, if_false]

variable (union store : Bool) (dest : Value) (keys : List Value) (weights withScores : Value)

theorem combining_of_truthy (h : aggregate.Unrecognized aggregateConstants)
    (ht : aggregate.isTruthy = true) :
    combining union store dest keys aggregate weights withScores =
      combining union store dest keys (.aggregate .sum) weights withScores >>= fun _ =>
        .error (.invalid (.aggregateType aggregate)) := by
  unfold combining combineStore combine
  rw [aggregationArguments_of_truthy h ht]
  cases aggregationArguments keys.length (.aggregate .sum) weights <;> cases store <;>
    cases checkKey "destkey" dest <;> cases checkKeys keys <;> rfl

theorem combining_of_falsy (h : aggregate ≠ .none) (hf : aggregate.isTruthy = false) :
    combining union store dest keys aggregate weights withScores =
      combining union store dest keys (.aggregate .sum) weights withScores := by
  unfold combining combineStore combine
  rw [aggregationArguments_of_falsy h hf]

end Command

theorem Method.apply_addition (tuples : Bool) (mode : Mode) (a : Arguments) :
    (addition tuples).apply mode a = (Command.addition tuples a).map Call.send := by
  cases tuples <;> rfl

/-! ## Arguments by name -/

/-- A call with one more argument by name. -/
def MethodCall.giving (k : MethodCall) (w : String) (v : Value) : MethodCall :=
  ⟨k.method, k.args, (w, v) :: k.named⟩

namespace Arguments

variable {before after : List (String × Value)} {further : List Value} {w : String}

theorem get_given (hw : ∀ p ∈ before, p.1 ≠ w) (v : Value) :
    (Arguments.mk (before ++ (w, v) :: after) further).get w = v := by
  have hnone : (before.find? fun p => p.1 = w) = none := by simpa using hw
  simp [get, List.find?_append, hnone]

theorem get_given_of_ne {w' : String} (hne : w' ≠ w) (v v' : Value) :
    (Arguments.mk (before ++ (w, v) :: after) further).get w' =
      (Arguments.mk (before ++ (w, v') :: after) further).get w' := by
  simp [get, List.find?_append, hne.symm]

end Arguments

/-- Whether the arguments of a call fit does not depend on a value that is given by name. If they fit, it
is the value of its parameter, and nothing else comes of it. -/
theorem Signature.bind_given_or (s : Signature) (args : List Value) (w : String)
    (named : List (String × Value)) :
    (∃ e, ∀ v, s.bind args ((w, v) :: named) = .error e) ∨
      ∃ before after further, (∀ p ∈ before, p.1 ≠ w) ∧
        ∀ v, s.bind args ((w, v) :: named) = .ok ⟨before ++ (w, v) :: after, further⟩ := by
  have haccepts (v : Value) (taken : List String) : s.acceptsNamed taken ((w, v) :: named) =
      s.acceptsNamed taken ((w, .none) :: named) := rfl
  have hrequired (v : Value) : (s.required.all fun r =>
      (s.positional.zip args ++ (w, v) :: named).any fun p => p.1 = r) =
        s.required.all fun r =>
          (s.positional.zip args ++ (w, .none) :: named).any fun p => p.1 = r := by
    simp only [List.any_append, List.any_cons]
  unfold bind
  simp only [haccepts, hrequired]
  split
  · exact .inl ⟨_, fun v => rfl⟩
  split
  · exact .inl ⟨_, fun v => rfl⟩
  next hok =>
  split
  · exact .inl ⟨_, fun v => rfl⟩
  refine .inr ⟨s.positional.zip args, named ++ s.optional ++ s.named,
    args.drop s.positional.length, ?_, fun v => by simp⟩
  -- what was given by position cannot be given by name as well
  rintro p hp rfl
  refine hok ?_
  have htaken : ((s.positional.zip args).map Prod.fst).contains p.1 = true :=
    List.contains_iff_mem.2 (List.mem_map_of_mem hp)
  simp only [acceptsNamed, List.all_cons, htaken, Bool.not_true, Bool.and_false, Bool.false_and,
    Bool.not_false]

namespace MethodCall

variable {k : MethodCall} {v : Value}

/-- The way scores may change is not known: the call is refused, as long as its arguments fit. -/
theorem judged_giving_compare {tuples : Bool} (hk : k.method = (Method.addition tuples).name)
    (h : v.Unrecognized compareConstants) {a : Arguments}
    (ha : (Method.addition tuples).signature.bind k.args (("compare", v) :: k.named) = .ok a) :
    ∃ e, (∀ mode, (k.giving "compare" v).judged mode = .error e) ∧
      e.class? = some .invalidArgument := by
  have hm : Method.named? (k.giving "compare" v).method = some (Method.addition tuples) :=
    (congrArg _ hk).trans (Method.named?_addition tuples)
  have hget : a.get "compare" = v := by
    rcases (Method.addition tuples).signature.bind_given_or k.args "compare" k.named with
      ⟨e, he⟩ | ⟨before, after, further, hfree, hok⟩
    · cases ha.symm.trans (he v)
    · cases ha.symm.trans (hok v)
      exact Arguments.get_given hfree v
  obtain ⟨e, he, hclass⟩ := Command.addition_of_compare (hget.symm ▸ h) tuples
  exact ⟨e, fun mode => (judged_of_bind hm ha (Method.apply_addition tuples mode a)).trans he, hclass⟩

/-- A condition on existing members that is not known passes for none. -/
theorem call_giving_exist (h : v.Unrecognized existConstants) (tuples : Bool) (mode : Mode)
    (args : List Value) (named : List (String × Value)) :
    (Method.addition tuples).call mode args (("exist", v) :: named) =
      (Method.addition tuples).call mode args (("exist", .none) :: named) := by
  unfold Method.call
  rcases (Method.addition tuples).signature.bind_given_or args "exist" named with
    ⟨e, he⟩ | ⟨before, after, further, hfree, hok⟩
  · rw [he, he]
  · let given (x : Value) : Arguments := ⟨before ++ ("exist", x) :: after, further⟩
    have hself (x : Value) : (given x).get "exist" = x := Arguments.get_given hfree x
    have hsame : Command.addition tuples (given v) = Command.addition tuples (given .none) :=
      Command.addition_of_exist (by rwa [hself]) (hself _)
        (fun w hw => Arguments.get_given_of_ne hw v .none) rfl tuples
    rw [hok, hok]
    exact (Method.apply_addition ..).trans
      ((congrArg _ hsame).trans (Method.apply_addition ..).symm)

/-- What a combination with one aggregate has to do with the same one with another: nothing but the
aggregate differs. -/
theorem call_giving_aggregate (union store : Bool) (mode : Mode) (args : List Value)
    (named : List (String × Value)) :
    (∃ e, ∀ g, (Method.combination union store).call mode args (("aggregate", g) :: named) = .error e) ∨
      ∃ dest keys weights withScores, ∀ g,
        (Method.combination union store).call mode args (("aggregate", g) :: named) =
          (Command.combining union store dest keys g weights withScores).map Call.send := by
  unfold Method.call
  rcases (Method.combination union store).signature.bind_given_or args "aggregate" named with
    ⟨e, he⟩ | ⟨before, after, further, hfree, hok⟩
  · exact .inl ⟨e, fun g => by rw [he]; rfl⟩
  · let rest : Arguments := ⟨before ++ ("aggregate", .none) :: after, further⟩
    refine .inr ⟨rest.get "destkey", rest.get "key" :: further, rest.get "weights",
      rest.get "withscores", fun g => ?_⟩
    have hother (w : String) (hw : w ≠ "aggregate") :
        (Arguments.mk (before ++ ("aggregate", g) :: after) further).get w = rest.get w :=
      Arguments.get_given_of_ne hw g .none
    rw [hok]
    refine (Method.apply_combination ..).trans ?_
    rw [Arguments.get_given hfree, hother "destkey" (by decide), hother "key" (by decide),
      hother "weights" (by decide), hother "withscores" (by decide)]

/-- A call is judged by what its method makes of the arguments. -/
theorem judged_of_call {m : Method} (hm : Method.named? k.method = some m) {mode : Mode}
    {r : Except Error Command} (h : m.call mode k.args k.named = r.map Call.send) :
    k.judged mode = r := by
  unfold judged
  simp only [hm, h]
  cases r <;> rfl

/-- An aggregate that is none and counts as true is refused, if the sum in its place is not. -/
theorem judged_giving_aggregate {union store : Bool}
    (hk : k.method = (Method.combination union store).name) (h : v.Unrecognized aggregateConstants)
    (ht : v.isTruthy = true) (mode : Mode) :
    (k.giving "aggregate" v).judged mode =
      (k.giving "aggregate" (.aggregate .sum)).judged mode >>= fun _ =>
        .error (.invalid (.aggregateType v)) := by
  have hm : Method.named? k.method = some (Method.combination union store) :=
    (congrArg _ hk).trans (Method.named?_combination union store)
  have hjudged (g : Value) {r : Except Error Command} (hg : (Method.combination union store).call mode
      k.args (("aggregate", g) :: k.named) = r.map Call.send) :
      (k.giving "aggregate" g).judged mode = r :=
    judged_of_call (k := k.giving "aggregate" g) hm hg
  rcases call_giving_aggregate union store mode k.args k.named with
    ⟨e, he⟩ | ⟨dest, keys, weights, withScores, hcall⟩
  · rw [hjudged v (r := .error e) (he v), hjudged _ (r := .error e) (he _)]
    rfl
  · rw [hjudged v (hcall v), hjudged _ (hcall _), Command.combining_of_truthy _ _ _ _ _ _ h ht]

end MethodCall

/-! ## Calls -/

namespace Session

variable {s : Session} {before : List Bytes} {k : MethodCall}

/-- The call fails by an error and nothing is written. Every batch that takes calls refuses it by the
same error, and is left as it was. -/
def Rejects (s : Session) (k : MethodCall) (e : Error) : Prop :=
  s.RefusesCall k e ∧ ∀ b x, s.batches[b]? = some x → x.spent = false →
    s.enqueue b k.method k.args k.named = (s, .error e)

/-- The call comes to the same as another one, on the client and on every batch. -/
def TakesAs (s : Session) (k k' : MethodCall) : Prop :=
  s.call k.method k.args k.named = s.call k'.method k'.args k'.named ∧
    ∀ b, s.enqueue b k.method k.args k.named = s.enqueue b k'.method k'.args k'.named

theorem rejects_of_judged (hw : s.written? = some before) (hk : k.scans = false) {e : Error}
    (hj : ∀ mode, k.judged mode = .error e) : s.Rejects k e :=
  ⟨refusesCall_of_judged hw hk (hj _), fun _ _ hx hsp => enqueue_of_judged_error hx hsp (hj _)⟩

/-- Of calls of one method nothing matters but what the method makes of the arguments. -/
theorem takesAs_of_call {m : Method} {method : String} (hm : Method.named? method = some m)
    {args args' : List Value} {named named' : List (String × Value)}
    (h : ∀ mode, m.call mode args named = m.call mode args' named') (s : Session) :
    s.TakesAs ⟨method, args, named⟩ ⟨method, args', named'⟩ := by
  constructor
  · unfold call
    simp only [hm, h]
  · intro b
    unfold enqueue
    simp only [hm, h]

/-- An option is given a value that is neither missing nor one of its constants. As the way scores may
change it is refused for an invalid argument, whatever the other arguments are that fit the parameters.
As the condition on existing members it is dropped: the call comes to the same as without a condition. As
an aggregate it is refused if it counts as true, or else the call fails as it does with the sum for the
aggregate; if it counts as false it is taken for the sum. Where a call is refused nothing is written, and
a batch refuses it as well. -/
theorem unrecognized_options (hw : s.written? = some before) (k : MethodCall) (v : Value) :
    (∀ tuples, k.method = (Method.addition tuples).name →
      (v.Unrecognized compareConstants →
        ∀ a, (Method.addition tuples).signature.bind k.args (("compare", v) :: k.named) = .ok a →
          ∃ e, s.Rejects (k.giving "compare" v) e ∧ e.class? = some .invalidArgument) ∧
      (v.Unrecognized existConstants → s.TakesAs (k.giving "exist" v) (k.giving "exist" .none))) ∧
    ∀ union store, k.method = (Method.combination union store).name →
      v.Unrecognized aggregateConstants →
        (v.isTruthy = true →
          (∀ command, (k.giving "aggregate" (.aggregate .sum)).judged s.mode = .ok command →
            s.Rejects (k.giving "aggregate" v) (.invalid (.aggregateType v))) ∧
          ∀ e, (k.giving "aggregate" (.aggregate .sum)).judged s.mode = .error e →
            s.Rejects (k.giving "aggregate" v) e) ∧
        (v.isTruthy = false →
          s.TakesAs (k.giving "aggregate" v) (k.giving "aggregate" (.aggregate .sum))) := by
  refine ⟨fun tuples hk => ⟨?compare, ?exist⟩, fun union store hk h => ⟨fun ht => ?truthy, ?falsy⟩⟩
  case compare =>
    intro h a ha
    obtain ⟨e, he, hclass⟩ := MethodCall.judged_giving_compare hk h ha
    have hscans : (k.giving "compare" v).scans = false := by
      rw [MethodCall.scans, MethodCall.giving, hk, Method.named?_addition]
      exact Method.scans_addition tuples
    exact ⟨e, rejects_of_judged hw hscans he, hclass⟩
  case exist =>
    intro h
    have hm : Method.named? k.method = some (Method.addition tuples) :=
      (congrArg _ hk).trans (Method.named?_addition tuples)
    exact takesAs_of_call hm (fun mode => MethodCall.call_giving_exist h tuples mode _ _) s
  case truthy =>
    have hscans (g : Value) : (k.giving "aggregate" g).scans = false := by
      rw [MethodCall.scans, MethodCall.giving, hk, Method.named?_combination]
      exact Method.scans_combination union store
    -- a call is judged in one mode as in another
    have hjudged (mode : Mode) : (k.giving "aggregate" v).judged mode =
        (k.giving "aggregate" (.aggregate .sum)).judged s.mode >>= fun _ =>
          .error (.invalid (.aggregateType v)) := by
      rw [MethodCall.judged_giving_aggregate hk h ht, MethodCall.judged_mode (hscans _) mode s.mode]
    constructor
    · intro command hcommand
      exact rejects_of_judged hw (hscans v) fun mode => by rw [hjudged, hcommand]; rfl
    · intro e he
      exact rejects_of_judged hw (hscans v) fun mode => by rw [hjudged, he]; rfl
  case falsy =>
    intro hf
    have hm : Method.named? k.method = some (Method.combination union store) :=
      (congrArg _ hk).trans (Method.named?_combination union store)
    refine takesAs_of_call hm (fun mode => ?_) s
    rcases MethodCall.call_giving_aggregate union store mode k.args k.named with
      ⟨e, he⟩ | ⟨dest, keys, weights, withScores, hcall⟩
    · exact (he v).trans (he _).symm
    · refine (hcall v).trans (Eq.trans ?_ (hcall _).symm)
      rw [Command.combining_of_falsy _ _ _ _ _ _ h.given hf]

/-- A member added to a set. -/
def addOne : MethodCall :=
  ⟨"zadd", [.text (.ofString "k"), .int 1, .text (.ofString "m")], []⟩

/-- A union of one set. -/
def uniteOne : MethodCall :=
  ⟨"zunion", [.text (.ofString "k")], []⟩

/-- Texts that look like constants, and an empty one. -/
theorem unrecognized_options_texts :
    let s := connected (.none, .none) .none
    (∃ e, s.Rejects (addOne.giving "compare" (.text (.ofString "GT"))) e ∧
      e.class? = some .invalidArgument) ∧
    s.TakesAs (addOne.giving "exist" (.text (.ofString "XX"))) (addOne.giving "exist" .none) ∧
    s.Rejects (uniteOne.giving "aggregate" (.text (.ofString "MAX")))
      (.invalid (.aggregateType (.text (.ofString "MAX")))) ∧
    s.TakesAs (uniteOne.giving "aggregate" (.text (.ofString "")))
      (uniteOne.giving "aggregate" (.aggregate .sum)) := by
  intro s
  have hw : s.written? = some [] := rfl
  have htext {constants : List Value} (t : Text) (h : .text t ∉ constants) :
      (Value.text t).Unrecognized constants := ⟨Value.noConfusion, h⟩
  obtain ⟨hcompare, -⟩ := (unrecognized_options hw addOne (.text (.ofString "GT"))).1 false rfl
  obtain ⟨-, hexist⟩ := (unrecognized_options hw addOne (.text (.ofString "XX"))).1 false rfl
  obtain ⟨hmax, -⟩ := (unrecognized_options hw uniteOne (.text (.ofString "MAX"))).2 true false rfl
    (htext _ (by simp [aggregateConstants]))
  obtain ⟨-, hempty⟩ := (unrecognized_options hw uniteOne (.text (.ofString ""))).2 true false rfl
    (htext _ (by simp [aggregateConstants]))
  exact ⟨hcompare (htext _ (by simp [compareConstants])) _ rfl,
    hexist (htext _ (by simp [existConstants])), (hmax (by decide)).1 _ rfl, hempty (by decide)⟩

/-- Some of them are not refused, though the calls are good without them. -/
theorem not_unrecognized_rejected :
    (¬ ∀ v : Value, v.Unrecognized existConstants →
      ∃ e, (connected (.none, .none) .none).RefusesCall (addOne.giving "exist" v) e ∧
        e.class? = some .invalidArgument) ∧
    ¬ ∀ v : Value, v.Unrecognized aggregateConstants →
      ∃ e, (connected (.none, .none) .none).RefusesCall (uniteOne.giving "aggregate" v) e ∧
        e.class? = some .invalidArgument := by
  constructor
  · intro h
    obtain ⟨e, he, -⟩ := h (.text (.ofString "XX")) ⟨Value.noConfusion, by simp [existConstants]⟩
    cases he.1
  · intro h
    obtain ⟨e, he, -⟩ := h (.text (.ofString "")) ⟨Value.noConfusion, by simp [aggregateConstants]⟩
    let k := uniteOne.giving "aggregate" (.text (.ofString ""))
    have hok : ((connected (.none, .none) .none).call k.method k.args k.named).2.isOk = true := by
      decide +kernel
    rw [he.1] at hok
    cases hok

end Session

end SortedSets

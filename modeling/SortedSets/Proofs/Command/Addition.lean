import SortedSets.Proofs.Command.Grammar
import SortedSets.Proofs.Session.Sent

/-!
# Additions of members

Two methods add members with their scores. One takes scores and members in turn, the other one pairs of
a member and a score, and they check their arguments in different orders; still both make one command
out of the same pairs, or both fail.

In the command the options stand before the pairs, and nothing says where they end: a server takes
words for options up to the first that is none. A score comes next, which begins with a digit or a sign
and is no option word. All behind it are pairs, whatever the members spell.

## Main definitions

* `inTurn`, `inTuples`: pairs as the two methods take them
* `MethodCall.adding`, `MethodCall.addingTuples`: the two calls for some pairs
* `Command.Adds`: the command that adds some pairs, all arguments having passed their checks
* `AddOption`, `AddOption.Asked`: the options, and those that a caller asks for by constants
* `Addition`, `Addition.read?`: what such a command asks, read off its words

## Main results

* `Command.zadd_eq_ok_iff`, `Command.zaddTuples_eq_ok_iff`: when there is a command, and which one
* `MethodCall.judged_additions`: both calls make the same command, or both fail
* `Addition.readOptions_append`: options are read up to the first other word
* `Addition.read?_words`: the words of an addition are read as what was asked
* `Session.additions_agree_and_read_back`: the calls
-/

namespace SortedSets

/-! ## Pairs -/

/-- Scores and members in turn. -/
def inTurn (pairs : List (Value × Value)) : List Value :=
  pairs.flatMap fun p => [p.2, p.1]

/-- Pairs of a member and a score, in a list. -/
def inTuples (pairs : List (Value × Value)) : Value :=
  .list (pairs.map fun p => .tuple [p.1, p.2])

theorem inTurn_cons (p : Value × Value) (pairs : List (Value × Value)) :
    inTurn (p :: pairs) = p.2 :: p.1 :: inTurn pairs := rfl

theorem length_inTurn (pairs : List (Value × Value)) :
    (inTurn pairs).length = 2 * pairs.length := by
  induction pairs with
  | nil => rfl
  | cons p pairs ih =>
    rw [inTurn_cons, List.length_cons, List.length_cons, ih, List.length_cons]
    omega

theorem Value.both_tuple (x y : Value) : (Value.tuple [x, y]).both = .ok (x, y) := rfl

/-- A pair of a member and a score that passes its checks. -/
def Addable (p : Value × Value) : Prop :=
  checkMember p.1 = .ok () ∧ checkScore "score" p.2 = .ok ()

/-- A score that passed its check and that can be sent is a number. -/
theorem isScore_of_checkScore {v : Value} {name : String} (h : checkScore name v = .ok ())
    {bs : Bytes} (hc : v.Converts bs) : v.IsScore := by
  cases v with
  | int n => exact .int n
  | float x =>
    refine .float ?_
    rintro rfl
    cases hc with
    | float hx => cases hx
    | text ht _ => cases ht
  | _ => cases h

namespace Command

variable {key exist compare changed : Value} {pairs : List (Value × Value)}

/-- Scores and members in turn pass their checks if all pairs do. -/
theorem checkPairs_inTurn :
    checkPairs (inTurn pairs) = .ok () ↔ ∀ p ∈ pairs, Addable p := by
  induction pairs with
  | nil => simp [inTurn, checkPairs]
  | cons p pairs ih =>
    rw [inTurn_cons, checkPairs, List.forall_mem_cons, ← ih]
    simp only [Except.bind_eq_ok_iff, Addable]
    tauto

/-- Pairs are taken apart one by one, and come out as scores and members in turn. -/
theorem pairArguments_tuples {args : List Value} :
    pairArguments (pairs.map fun p => .tuple [p.1, p.2]) = .ok args ↔
      (∀ p ∈ pairs, Addable p) ∧ args = inTurn pairs := by
  induction pairs generalizing args with
  | nil => simp [pairArguments, inTurn, eq_comm]
  | cons p pairs ih =>
    rw [List.map_cons, pairArguments, Value.both_tuple, inTurn_cons, List.forall_mem_cons]
    simp only [Except.bind_eq_ok_iff, Addable, ih]
    constructor
    · rintro ⟨_, hp, _, hmember, _, hscore, _, ⟨hpairs, rfl⟩, hargs⟩
      cases hp
      exact ⟨⟨⟨hmember, hscore⟩, hpairs⟩, (Except.ok.inj hargs).symm⟩
    · rintro ⟨⟨⟨hmember, hscore⟩, hpairs⟩, rfl⟩
      exact ⟨_, rfl, (), hmember, (), hscore, _, ⟨hpairs, rfl⟩, rfl⟩

theorem complains_checkPairs (vs : List Value) : Complains (checkPairs vs) := by
  induction vs using checkPairs.induct with
  | case1 s m rest ih => simp [checkPairs, ih]
  | case2 vs h =>
    rw [checkPairs.eq_2 vs h]
    exact .of_ok ()

theorem complains_pairArguments (pairs : List (Value × Value)) :
    Complains (pairArguments (pairs.map fun p => .tuple [p.1, p.2])) := by
  induction pairs with
  | nil => exact .of_ok _
  | cons p pairs ih =>
    rw [List.map_cons, pairArguments, Value.both_tuple]
    simp [ih]

theorem complains_addFlags (exist compare changed : Value) :
    Complains (addFlags exist compare changed) := by
  unfold addFlags
  split <;> dsimp only <;> split <;> simp

/-- The command that adds some pairs, if all arguments pass their checks. -/
structure Adds (command : Command) (key : Value) (pairs : List (Value × Value))
    (exist compare changed : Value) : Prop where
  key_ok : checkKey "key" key = .ok ()
  pairs_ok : ∀ p ∈ pairs, Addable p
  exists_flags : ∃ flags, addFlags exist compare changed = .ok flags ∧
    command = plain "ZADD" (key :: (flags ++ inTurn pairs))

theorem zadd_eq_ok_iff {p : Value × Value} {command : Command} :
    zadd key p.2 p.1 (inTurn pairs) exist compare changed = .ok command ↔
      command.Adds key (p :: pairs) exist compare changed := by
  have hodd : ¬ (inTurn pairs).length % 2 ≠ 0 := by
    rw [length_inTurn]
    omega
  simp only [zadd, if_neg hodd, Except.bind_eq_ok_iff]
  constructor
  · rintro ⟨_, hkey, _, hscore, _, hmember, _, hpairs, flags, hflags, hcommand⟩
    exact ⟨hkey, List.forall_mem_cons.2 ⟨⟨hmember, hscore⟩, checkPairs_inTurn.1 hpairs⟩, flags,
      hflags, (Except.ok.inj hcommand).symm⟩
  · rintro ⟨hkey, hpairs, flags, hflags, rfl⟩
    obtain ⟨⟨hmember, hscore⟩, hpairs⟩ := List.forall_mem_cons.1 hpairs
    exact ⟨(), hkey, (), hscore, (), hmember, (), checkPairs_inTurn.2 hpairs, flags, hflags, rfl⟩

theorem zaddTuples_eq_ok_iff (hne : pairs ≠ []) {command : Command} :
    zaddTuples key (inTuples pairs) exist compare changed = .ok command ↔
      command.Adds key pairs exist compare changed := by
  have htruthy : (inTuples pairs).isTruthy = true := by
    simpa [inTuples, Value.isTruthy] using hne
  have hitems : (inTuples pairs).items = .ok (pairs.map fun p => .tuple [p.1, p.2]) := rfl
  simp only [zaddTuples, htruthy, hitems, Except.bind_eq_ok_iff, Bool.not_true,
    Bool.false_eq_true, if_false]
  constructor
  · rintro ⟨_, hkey, flags, hflags, _, hvs, args, hargs, hcommand⟩
    cases hvs
    obtain ⟨hpairs, rfl⟩ := pairArguments_tuples.1 hargs
    exact ⟨hkey, hpairs, flags, hflags, (Except.ok.inj hcommand).symm⟩
  · rintro ⟨hkey, hpairs, flags, hflags, rfl⟩
    exact ⟨(), hkey, flags, hflags, _, rfl, _, pairArguments_tuples.2 ⟨hpairs, rfl⟩, rfl⟩

theorem complains_zadd (key score member : Value) (rest : List Value)
    (exist compare changed : Value) :
    Complains (zadd key score member rest exist compare changed) := by
  simp [zadd, complains_checkPairs, complains_addFlags]

theorem complains_zaddTuples (key : Value) (pairs : List (Value × Value))
    (exist compare changed : Value) :
    Complains (zaddTuples key (inTuples pairs) exist compare changed) := by
  simp [zaddTuples, inTuples, Value.items, Value.items?, complains_pairArguments, complains_addFlags]

/-- Both methods make the same command, or both complain. -/
theorem zadd_cases (key : Value) (p : Value × Value) (pairs : List (Value × Value))
    (exist compare changed : Value) :
    (∃ e e', zadd key p.2 p.1 (inTurn pairs) exist compare changed = .error e ∧
      zaddTuples key (inTuples (p :: pairs)) exist compare changed = .error e' ∧
      e.class? = some .invalidArgument ∧ e'.class? = some .invalidArgument) ∨
    ∃ command, zadd key p.2 p.1 (inTurn pairs) exist compare changed = .ok command ∧
      zaddTuples key (inTuples (p :: pairs)) exist compare changed = .ok command ∧
      command.Adds key (p :: pairs) exist compare changed := by
  have hne : p :: pairs ≠ [] := List.cons_ne_nil _ _
  cases hflat : zadd key p.2 p.1 (inTurn pairs) exist compare changed with
  | ok command =>
    have hadds := zadd_eq_ok_iff.1 hflat
    exact .inr ⟨command, rfl, (zaddTuples_eq_ok_iff hne).2 hadds, hadds⟩
  | error e =>
    -- a command of the one would be a command of the other
    cases htuples : zaddTuples key (inTuples (p :: pairs)) exist compare changed with
    | ok command =>
      have hadds := (zaddTuples_eq_ok_iff hne).1 htuples
      cases hflat.symm.trans (zadd_eq_ok_iff.2 hadds)
    | error e' =>
      exact .inl ⟨e, e', rfl, rfl, complains_zadd _ _ _ _ _ _ _ e hflat,
        complains_zaddTuples _ _ _ _ _ e' htuples⟩

end Command

/-! ## Options -/

/-- The options of an addition. -/
inductive AddOption where
  | ifNotExist
  | ifExist
  | ifGreater
  | ifLess
  | changed
  | increment
deriving DecidableEq, Repr

namespace AddOption

/-- The word of an option. -/
def word : AddOption → String
  | ifNotExist => "NX"
  | ifExist => "XX"
  | ifGreater => "GT"
  | ifLess => "LT"
  | changed => "CH"
  | increment => "INCR"

/-- The option of a word. -/
def ofBytes? (bs : Bytes) : Option AddOption :=
  [ifNotExist, ifExist, ifGreater, ifLess, changed, increment].find? fun o => bs.isWord o.word

theorem ofBytes?_word (o : AddOption) : ofBytes? (Bytes.ascii o.word) = some o := by
  cases o <;> decide

/-- A number is no option. -/
theorem ofBytes?_of_isScore {v : Value} (h : v.IsScore) {bs : Bytes} (hc : v.Converts bs) :
    ofBytes? bs = none := by
  rw [ofBytes?, List.find?_eq_none]
  intro o _
  have hletter : (Bytes.ascii o.word).head?.all (65 ≤ ·) = true := by cases o <;> decide
  rw [h.isWord_eq_false hc hletter]
  exact Bool.false_ne_true

/-- The option of a condition. -/
def ofCondition : Condition → AddOption
  | .ifExist => ifExist
  | .ifNotExist => ifNotExist
  | .ifGreater => ifGreater
  | .ifLess => ifLess

/-- The option that a caller asks for by one of some constants, or by none. -/
inductive Asked (conditions : List Condition) : Value → List AddOption → Prop where
  | none : Asked conditions .none []
  | condition {c : Condition} (h : c ∈ conditions) : Asked conditions (.condition c) [ofCondition c]

/-- The argument of an option. -/
def argument (o : AddOption) : Value :=
  SortedSets.word o.word

end AddOption

namespace Command

variable {exist compare changed : Value} {existing comparing : List AddOption} {flags : List Value}

/-- The options are sent in the order of their parameters. How scores may change cannot be asked for if
the members must not exist. -/
theorem addFlags_of_asked (he : AddOption.Asked [.ifExist, .ifNotExist] exist existing)
    (hc : AddOption.Asked [.ifGreater, .ifLess] compare comparing) :
    addFlags exist compare changed =
      if existing = [.ifNotExist] ∧ comparing ≠ [] then .error (.invalid .compareWithNotExist)
      else .ok ((existing ++ comparing ++ if changed.isTruthy then [AddOption.changed] else []).map
        AddOption.argument) := by
  have hcounting : (if changed.isTruthy then [word "CH"] else []) =
      (if changed.isTruthy then [AddOption.changed] else []).map AddOption.argument := by
    split <;> rfl
  unfold addFlags
  rw [hcounting, List.map_append, List.map_append]
  -- what may be asked for is finite: one of two conditions or none, for members and for scores
  cases he with
  | none =>
    cases hc with
    | none => rfl
    | condition hc =>
      simp only [List.mem_cons, List.not_mem_nil, or_false] at hc
      rcases hc with rfl | rfl <;> rfl
  | condition he =>
    simp only [List.mem_cons, List.not_mem_nil, or_false] at he
    cases hc with
    | none => rcases he with rfl | rfl <;> rfl
    | condition hc =>
      simp only [List.mem_cons, List.not_mem_nil, or_false] at hc
      rcases he with rfl | rfl <;> rcases hc with rfl | rfl <;> rfl

/-- How scores may change is asked for by one of two constants. -/
theorem exists_asked_of_addFlags (h : addFlags exist compare changed = .ok flags) :
    ∃ comparing, AddOption.Asked [.ifGreater, .ifLess] compare comparing := by
  have hrefused (hn : compare ≠ .none) (hg : compare ≠ .condition .ifGreater)
      (hl : compare ≠ .condition .ifLess) : ∃ e, addFlags exist compare changed = .error e := by
    unfold addFlags
    split <;> dsimp only <;> split <;> first | contradiction | exact ⟨_, rfl⟩
  -- so a value that was taken is one of the three that ask for something
  by_cases hn : compare = .none
  · subst hn
    exact ⟨[], .none⟩
  by_cases hg : compare = .condition .ifGreater
  · subst hg
    exact ⟨_, .condition List.mem_cons_self⟩
  by_cases hl : compare = .condition .ifLess
  · subst hl
    exact ⟨_, .condition (List.mem_cons_of_mem _ List.mem_cons_self)⟩
  obtain ⟨e, he⟩ := hrefused hn hg hl
  cases h.symm.trans he

end Command

/-! ## Both calls -/

/-- Two errors are one, or are both of one class of the library. -/
def Error.SameClass (e e' : Error) : Prop :=
  e = e' ∨ ∃ c, e.class? = some c ∧ e'.class? = some c

namespace MethodCall

/-- Members added, the scores and members in turn. -/
def adding (key : Value) (pairs : List (Value × Value)) (named : List (String × Value)) :
    MethodCall :=
  ⟨"zadd", key :: inTurn pairs, named⟩

/-- Members added, in pairs. -/
def addingTuples (key : Value) (pairs : List (Value × Value)) (named : List (String × Value)) :
    MethodCall :=
  ⟨"zadd_tuples", [key, inTuples pairs], named⟩

end MethodCall

/-- The options of an addition as they are given by name, those that are not given by default. -/
def Arguments.ofOptions (named : List (String × Value)) : Arguments :=
  ⟨named ++ Method.zadd.signature.named, []⟩

/-- Nothing but options is given by name. -/
def Arguments.areOptions (named : List (String × Value)) : Bool :=
  named.all fun p => (Method.zadd.signature.named.map Prod.fst).contains p.1

namespace Signature

variable {s : Signature} {rest : List Value} {named : List (String × Value)}

/-- If all positional parameters have their arguments, the others are all that can be given by name. -/
theorem acceptsNamed_of_all_taken (hd : ∀ w ∈ s.named.map Prod.fst, w ∉ s.positional) :
    s.acceptsNamed s.positional named =
      named.all fun p => (s.named.map Prod.fst).contains p.1 := by
  refine congrArg _ (funext fun p => ?_)
  -- what is named is no positional parameter, and those are all taken
  cases hp : (s.named.map Prod.fst).contains p.1 with
  | true =>
    have hfree : p.1 ∉ s.positional := hd _ (List.contains_iff_mem.1 hp)
    simp [hfree]
  | false => simp

/-- The arguments of a call that gives the positional ones, all required, by position. -/
theorem bind_of_all_given (args : List Value) (hopt : s.optional = [])
    (hd : ∀ w ∈ s.named.map Prod.fst, w ∉ s.positional)
    (hlen : args.length = s.required.length) (hrest : s.variadic = true ∨ rest = []) :
    s.bind (args ++ rest) named =
      if named.all fun p => (s.named.map Prod.fst).contains p.1 then
        .ok ⟨s.required.zip args ++ named ++ s.named, rest⟩
      else .error .badType := by
  have hpos : s.positional = s.required := by simp [positional, hopt]
  -- the arguments in front belong to the required parameters, and `rest` is left over
  have hzip : s.positional.zip (args ++ rest) = s.required.zip args := by
    have h : (s.required ++ []).zip (args ++ rest) = s.required.zip args ++ [].zip rest :=
      List.zip_append hlen.symm
    rw [hpos]
    rwa [List.append_nil, List.zip_nil_left, List.append_nil] at h
  have hdrop : (args ++ rest).drop s.positional.length = rest := by
    rw [hpos, ← hlen, List.drop_left]
  have htaken : (s.required.zip args).map Prod.fst = s.positional := by
    rw [hpos, List.map_fst_zip hlen.ge]
  have hvariadic : ¬ (!s.variadic && !rest.isEmpty) = true := by
    rcases hrest with h | h <;> simp [h]
  -- each required parameter has got its argument
  have hrequired : (s.required.all fun r =>
      (s.required.zip args ++ named).any fun p => p.1 = r) = true := by
    rw [List.all_eq_true]
    intro r hr
    rw [← hpos, ← htaken] at hr
    obtain ⟨p, hp, rfl⟩ := List.mem_map.1 hr
    exact List.any_eq_true.2 ⟨p, List.mem_append_left _ hp, by simp⟩
  simp only [bind, hzip, hdrop, if_neg hvariadic, htaken, acceptsNamed_of_all_taken hd, hrequired, hopt]
  cases named.all fun p => (s.named.map Prod.fst).contains p.1 <;> simp

theorem bind_zadd (key score member : Value) (rest : List Value) (named : List (String × Value)) :
    Method.zadd.signature.bind (key :: score :: member :: rest) named =
      if Arguments.areOptions named then
        .ok ⟨("key", key) :: ("score", score) :: ("member", member) ::
          (Arguments.ofOptions named).values, rest⟩
      else .error .badType :=
  bind_of_all_given [key, score, member] rfl (by decide) rfl (.inl rfl)

theorem bind_zaddTuples (key tuples : Value) (named : List (String × Value)) :
    Method.zaddTuples.signature.bind [key, tuples] named =
      if Arguments.areOptions named then
        .ok ⟨("key", key) :: ("tuples", tuples) :: (Arguments.ofOptions named).values, []⟩
      else .error .badType :=
  bind_of_all_given (s := Method.zaddTuples.signature) [key, tuples] rfl (by decide) rfl (.inr rfl)

end Signature

namespace MethodCall

variable {pairs : List (Value × Value)}

/-- The call in turn is judged by its method if only options are given by name. -/
theorem judged_adding (key : Value) (p : Value × Value) (pairs : List (Value × Value))
    (named : List (String × Value)) (mode : Mode) :
    (adding key (p :: pairs) named).judged mode =
      if Arguments.areOptions named then
        Command.zadd key p.2 p.1 (inTurn pairs) ((Arguments.ofOptions named).get "exist")
          ((Arguments.ofOptions named).get "compare") ((Arguments.ofOptions named).get "changed")
      else .error .badType := by
  have hm : Method.named? "zadd" = some .zadd := by decide
  have hbind := Signature.bind_zadd key p.2 p.1 (inTurn pairs) named
  split at hbind
  · next hall =>
    rw [if_pos hall]
    exact judged_of_bind hm hbind rfl
  · next hall =>
    rw [if_neg hall]
    exact judged_of_bind_error hm hbind

/-- So is the call with pairs. -/
theorem judged_addingTuples (key : Value) (pairs : List (Value × Value))
    (named : List (String × Value)) (mode : Mode) :
    (addingTuples key pairs named).judged mode =
      if Arguments.areOptions named then
        Command.zaddTuples key (inTuples pairs) ((Arguments.ofOptions named).get "exist")
          ((Arguments.ofOptions named).get "compare") ((Arguments.ofOptions named).get "changed")
      else .error .badType := by
  have hm : Method.named? "zadd_tuples" = some .zaddTuples := by decide
  have hbind := Signature.bind_zaddTuples key (inTuples pairs) named
  split at hbind
  · next hall =>
    rw [if_pos hall]
    exact judged_of_bind hm hbind rfl
  · next hall =>
    rw [if_neg hall]
    exact judged_of_bind_error hm hbind

/-- Both calls make the same command, or both are refused: for a parameter that is not known, or else
for an argument that is invalid. -/
theorem judged_additions (key : Value) (hne : pairs ≠ []) (named : List (String × Value))
    (mode : Mode) :
    let options := Arguments.ofOptions named
    (∃ e e', (adding key pairs named).judged mode = .error e ∧
      (addingTuples key pairs named).judged mode = .error e' ∧ e.SameClass e') ∨
    ∃ command, (adding key pairs named).judged mode = .ok command ∧
      (addingTuples key pairs named).judged mode = .ok command ∧
      command.Adds key pairs (options.get "exist") (options.get "compare") (options.get "changed") := by
  intro options
  obtain ⟨p, pairs, rfl⟩ := List.exists_cons_of_ne_nil hne
  rw [judged_adding, judged_addingTuples]
  split
  · rcases Command.zadd_cases key p pairs (options.get "exist") (options.get "compare")
      (options.get "changed") with ⟨e, e', he, he', hclass⟩ | hmade
    · exact .inl ⟨e, e', he, he', .inr ⟨_, hclass⟩⟩
    · exact .inr hmade
  · exact .inl ⟨.badType, .badType, rfl, rfl, .inl rfl⟩

end MethodCall

/-! ## Reading -/

/-- What an addition asks: options, and members with their scores. -/
structure Addition where
  key : Bytes
  options : List AddOption
  pairs : List (Bytes × Value)

namespace Addition

/-- The options up to the first other word, and what follows them. -/
def readOptions : List Bytes → List AddOption × List Bytes
  | [] => ([], [])
  | bs :: words =>
    match AddOption.ofBytes? bs with
    | some o => (o :: (readOptions words).1, (readOptions words).2)
    | none => ([], bs :: words)

/-- Scores and members in turn, to the end. -/
def readPairs? : List Bytes → Option (List (Bytes × Value))
  | [] => some []
  | score :: member :: words => do
    let score ← score.number?
    let pairs ← readPairs? words
    return (member, score) :: pairs
  | [_] => none

/-- An addition by its words: the word of the command, the key, options up to the first other word,
and scores and members in turn. -/
def read? : List Bytes → Option Addition
  | name :: key :: words =>
    if name.isWord "ZADD" then do
      let (options, words) := readOptions words
      return ⟨key, options, ← readPairs? words⟩
    else none
  | _ => none

/-- Options are read up to the first other word. -/
theorem readOptions_append {options : List AddOption} {words rest : List Bytes}
    (h : List.Forall₂ Value.Converts (options.map AddOption.argument) words)
    (hrest : rest.head?.all fun bs => (AddOption.ofBytes? bs).isNone) :
    readOptions (words ++ rest) = (options, rest) := by
  induction options generalizing words with
  | nil =>
    cases h
    cases rest with
    | nil => rfl
    | cons bs rest =>
      have hbs : AddOption.ofBytes? bs = none := by simpa using hrest
      rw [List.nil_append, readOptions, hbs]
  | cons o options ih =>
    obtain ⟨_, words, ho, hwords, rfl⟩ := List.forall₂_cons_left_iff.1 h
    obtain rfl := Value.converts_word_iff.1 ho
    rw [List.cons_append, readOptions, AddOption.ofBytes?_word]
    simp only [ih hwords]

/-- Scores and members in turn are read as the pairs. -/
theorem exists_readPairs? {pairs : List (Value × Value)} (hpairs : ∀ p ∈ pairs, Addable p)
    {words : List Bytes} (h : List.Forall₂ Value.Converts (inTurn pairs) words) :
    ∃ members, List.Forall₂ Value.Converts (pairs.map Prod.fst) members ∧
      readPairs? words = some (members.zip (pairs.map Prod.snd)) := by
  induction pairs generalizing words with
  | nil =>
    cases h
    exact ⟨[], .nil, rfl⟩
  | cons p pairs ih =>
    obtain ⟨hp, hpairs⟩ := List.forall_mem_cons.1 hpairs
    obtain ⟨score, _, hscore, hrest, rfl⟩ := List.forall₂_cons_left_iff.1 h
    obtain ⟨member, words, hmember, hwords, rfl⟩ := List.forall₂_cons_left_iff.1 hrest
    obtain ⟨members, hmembers, hread⟩ := ih hpairs hwords
    refine ⟨member :: members, .cons hmember hmembers, ?_⟩
    simp [readPairs?, (isScore_of_checkScore hp.2 hscore).number? hscore, hread]

/-- The first of them is a score, and no option. -/
theorem not_option_of_inTurn {pairs : List (Value × Value)} (hpairs : ∀ p ∈ pairs, Addable p)
    {words : List Bytes} (h : List.Forall₂ Value.Converts (inTurn pairs) words) :
    words.head?.all fun bs => (AddOption.ofBytes? bs).isNone := by
  cases pairs with
  | nil =>
    cases h
    rfl
  | cons p pairs =>
    obtain ⟨score, _, hscore, hrest, rfl⟩ := List.forall₂_cons_left_iff.1 h
    have hnumber := isScore_of_checkScore (hpairs p List.mem_cons_self).2 hscore
    simp [AddOption.ofBytes?_of_isScore hnumber hscore]

/-- The words of an addition are read as what was asked. -/
theorem read?_words {command : Command} {key exist compare changed : Value}
    {pairs : List (Value × Value)} (hadds : command.Adds key pairs exist compare changed)
    {existing : List AddOption} (he : AddOption.Asked [.ifExist, .ifNotExist] exist existing)
    {words : List Bytes}
    (h : List.Forall₂ Value.Converts (.bytes command.name :: command.args) words) :
    ∃ bs members comparing, key.Converts bs ∧
      List.Forall₂ Value.Converts (pairs.map Prod.fst) members ∧
      AddOption.Asked [.ifGreater, .ifLess] compare comparing ∧
      (existing = [.ifNotExist] → comparing = []) ∧
      read? words = some ⟨bs,
        existing ++ comparing ++ if changed.isTruthy then [.changed] else [],
        members.zip (pairs.map Prod.snd)⟩ := by
  obtain ⟨-, hpairs, flags, hflags, rfl⟩ := hadds
  obtain ⟨comparing, hc⟩ := Command.exists_asked_of_addFlags hflags
  rw [Command.addFlags_of_asked he hc] at hflags
  split at hflags
  · cases hflags
  · next hboth =>
    cases hflags
    simp only [Command.plain, List.forall₂_cons_left_iff, Value.converts_bytes_iff] at h
    obtain ⟨_, _, rfl, ⟨bs, _, hkey, hrest, rfl⟩, rfl⟩ := h
    obtain ⟨options, rest, rfl, hoptions, hrest⟩ := exists_append_of_forall₂ hrest
    obtain ⟨members, hmembers, hread⟩ := exists_readPairs? hpairs hrest
    -- the options end at the first score
    have hreadOptions := readOptions_append hoptions (not_option_of_inTurn hpairs hrest)
    refine ⟨bs, members, comparing, hkey, hmembers, hc, ?_, ?_⟩
    · intro hnx
      by_contra hne
      exact hboth ⟨hnx, hne⟩
    · have hname : (Bytes.ascii "ZADD").isWord "ZADD" = true := by decide
      simp only [read?, hname, if_true, hreadOptions, hread]
      rfl

end Addition

/-! ## Calls -/

namespace Session

variable {s : Session} {before : List Bytes} {pairs : List (Value × Value)}

/-- Members with scores, added by scores and members in turn, and by pairs, with the same options. On
the client both calls fail by errors of one class and write nothing, or both write the same request and
come to the same altogether; on a batch both fail and leave everything as it was, or both queue the same
command. If the condition on existing members is one of its two constants or is missing, the words are
read as what was asked: the bytes of the key, exactly the options that are asked for, and the pairs in
their order, whatever bytes the members are converted to. -/
theorem additions_agree_and_read_back (hw : s.written? = some before) (key : Value)
    (hne : pairs ≠ []) (named : List (String × Value)) :
    let flat := MethodCall.adding key pairs named
    let tuples := MethodCall.addingTuples key pairs named
    let options := Arguments.ofOptions named
    ((∃ e e', s.RefusesCall flat e ∧ s.RefusesCall tuples e' ∧ e.SameClass e') ∨
      (∃ words, s.SendsCall flat words ∧ flat.Speaks words) ∧
        s.call tuples.method tuples.args tuples.named = s.call flat.method flat.args flat.named) ∧
    (∀ b, (∃ e e', s.enqueue b flat.method flat.args flat.named = (s, .error e) ∧
        s.enqueue b tuples.method tuples.args tuples.named = (s, .error e') ∧ e.SameClass e') ∨
      (s.enqueue b flat.method flat.args flat.named).2 = .ok (.handle s.nextHandle) ∧
        s.enqueue b tuples.method tuples.args tuples.named =
          s.enqueue b flat.method flat.args flat.named) ∧
    (∀ words, tuples.Speaks words ↔ flat.Speaks words) ∧
    ∀ words existing, flat.Speaks words →
      AddOption.Asked [.ifExist, .ifNotExist] (options.get "exist") existing →
      ∃ bs members comparing, key.Converts bs ∧
        List.Forall₂ Value.Converts (pairs.map Prod.fst) members ∧
        AddOption.Asked [.ifGreater, .ifLess] (options.get "compare") comparing ∧
        (existing = [.ifNotExist] → comparing = []) ∧
        Addition.read? words = some ⟨bs,
          existing ++ comparing ++ if (options.get "changed").isTruthy then [.changed] else [],
          members.zip (pairs.map Prod.snd)⟩ := by
  intro flat tuples options
  have hflat : flat.scans = false := rfl
  have htuples : tuples.scans = false := rfl
  have hjudged := MethodCall.judged_additions key hne named
  refine ⟨?client, ?batch, fun words => ⟨?toFlat, ?toTuples⟩, ?reads⟩
  case client =>
    rcases hjudged s.mode with ⟨e, e', hj, hj', hclass⟩ | ⟨command, hj, hj', -⟩
    · exact .inl ⟨e, e', refusesCall_of_judged hw hflat hj, refusesCall_of_judged hw htuples hj',
        hclass⟩
    · have hsame := call_congr_of_judged hj hj'
      cases hcall : (s.call flat.method flat.args flat.named).2 with
      | error e =>
        have hcall' := (congrArg Prod.snd hsame).trans hcall
        exact .inl ⟨e, e, refusesCall_of_error hw hflat hcall,
          refusesCall_of_error hw htuples hcall', .inl rfl⟩
      | ok x =>
        obtain ⟨words, hspeaks, hsends⟩ := sendsCall_of_ok hw hflat hcall
        exact .inr ⟨⟨words, hsends, hspeaks⟩, hsame⟩
  case batch =>
    intro b
    rcases enqueue_refuses_all_or b s with ⟨e, he⟩ | ⟨x, hx, hsp⟩
    · exact .inl ⟨e, e, he flat, he tuples, .inl rfl⟩
    · rcases hjudged x.mode with ⟨e, e', hj, hj', hclass⟩ | ⟨command, hj, hj', -⟩
      · exact .inl ⟨e, e', enqueue_of_judged_error hx hsp hj, enqueue_of_judged_error hx hsp hj',
          hclass⟩
      · refine .inr ⟨?_, enqueue_congr_of_judged hx hj hj'⟩
        rw [enqueue_of_unspent hx hsp flat, hj]
        rfl
  case toFlat =>
    rintro ⟨mode, command, hj, hwords⟩
    rcases hjudged mode with ⟨e, e', -, he, -⟩ | ⟨command', hj', htuples, -⟩
    · cases hj.symm.trans he
    · cases hj.symm.trans htuples
      exact ⟨mode, command, hj', hwords⟩
  case toTuples =>
    rintro ⟨mode, command, hj, hwords⟩
    rcases hjudged mode with ⟨e, e', he, -, -⟩ | ⟨command', hj', htuples, -⟩
    · cases hj.symm.trans he
    · cases hj.symm.trans hj'
      exact ⟨mode, command, htuples, hwords⟩
  case reads =>
    rintro words existing ⟨mode, command, hj, hwords⟩ hexist
    rcases hjudged mode with ⟨e, e', he, -, -⟩ | ⟨command', hj', -, hadds⟩
    · cases hj.symm.trans he
    · cases hj.symm.trans hj'
      exact Addition.read?_words hadds hexist hwords

/-- Members that spell options, with options. -/
theorem additions_agree_and_read_back_options :
    let pairs : List (Value × Value) := [(word "NX", .float .zero), (word "ch", .int 7)]
    let named : List (String × Value) :=
      [("exist", .condition .ifExist), ("compare", .condition .ifLess), ("changed", .bool true)]
    ∃ words, (connected (.none, .none) .none).SendsCall
        (MethodCall.adding (word "INCR") pairs named) words ∧
      (connected (.none, .none) .none).SendsCall
        (MethodCall.addingTuples (word "INCR") pairs named) words ∧
      Addition.read? words = some ⟨Bytes.ascii "INCR", [.ifExist, .ifLess, .changed],
        [(Bytes.ascii "NX", .float .zero), (Bytes.ascii "ch", .int 7)]⟩ := by
  intro pairs named
  let command : Command := .plain "ZADD" [word "INCR", word "XX", word "LT", word "CH",
    .float .zero, word "NX", .int 7, word "ch"]
  have hadds : command.Adds (word "INCR") pairs (.condition .ifExist) (.condition .ifLess)
      (.bool true) :=
    ⟨rfl, List.forall_mem_cons.2 ⟨⟨rfl, rfl⟩, List.forall_mem_singleton.2 ⟨rfl, rfl⟩⟩, _, rfl, rfl⟩
  have hj : (MethodCall.adding (word "INCR") pairs named).judged .direct = .ok command :=
    (MethodCall.judged_adding ..).trans ((if_pos (by decide)).trans (Command.zadd_eq_ok_iff.2 hadds))
  have hargs : ∀ v ∈ command.args, v.Sendable := by
    have hzero : (Value.float .zero).Sendable := .float Binary64.noConfusion
    simp [command, Command.plain, word, Value.Sendable.bytes, Value.Sendable.int, hzero]
  obtain ⟨words, hwords, hsent⟩ := sendsCall_of_judged (s := connected (.none, .none) .none) rfl rfl rfl
    rfl hj hargs
  obtain ⟨hcalls, -, -, hreads⟩ := additions_agree_and_read_back
    (s := connected (.none, .none) .none) rfl (word "INCR") (List.cons_ne_nil _ _ : pairs ≠ []) named
  rcases hcalls with ⟨e, -, he, -, -⟩ | ⟨-, hsame⟩
  · exact absurd he (hsent.not_refusesCall e)
  have hsentTuples : (connected (.none, .none) .none).SendsCall
      (MethodCall.addingTuples (word "INCR") pairs named) words := by
    unfold SendsCall
    rw [hsame]
    exact hsent
  obtain ⟨bs, members, comparing, hkey, hmembers, hcompare, -, hread⟩ :=
    hreads words [.ifExist] ⟨.direct, command, hj, hwords⟩ (.condition List.mem_cons_self)
  have hcompare : AddOption.Asked _ (.condition .ifLess) comparing := hcompare
  have hmembers : List.Forall₂ Value.Converts [word "NX", word "ch"] members := hmembers
  simp only [List.forall₂_cons_left_iff, List.forall₂_nil_left_iff,
    Value.converts_word_iff] at hkey hmembers
  obtain ⟨_, _, rfl, ⟨_, _, rfl, rfl, rfl⟩, rfl⟩ := hmembers
  subst hkey
  cases hcompare
  exact ⟨words, hsent, hsentTuples, hread⟩

end Session

end SortedSets

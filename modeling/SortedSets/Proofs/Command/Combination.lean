import SortedSets.Proofs.Command.Grammar
import SortedSets.Proofs.Session.Sent

/-!
# Combinations of sets

Four methods combine sets, by union or by intersection, and return the outcome or store it. The number
of source sets stands before them, so that a server takes as many words as keys whatever they spell,
and as many again as weights. Weights and aggregate are both there or both missing.

## Main definitions

* `Method.combination`: the four methods
* `Combination`, `Combination.read?`: what such a command asks, read off its words
* `Weights.Given`, `Aggregate.Given`: weights and aggregates as a caller gives them
* `askedClauses`: the weights and the aggregate that are asked for

## Main results

* `Command.aggregationArguments_of_count`, `Command.aggregationArguments_of_miscount`: the clauses, or
  the error if there are too many weights or too few
* `Combination.read?_words`: the words of a command are read as what was asked
* `Session.combination_reads_back`: the calls
-/

namespace SortedSets

/-! ## The methods -/

/-- The methods that combine sets. -/
def Method.combination (union store : Bool) : Method :=
  match union, store with
  | true, false => .zunion
  | true, true => .zunionstore
  | false, false => .zinter
  | false, true => .zinterstore

/-- The scores are asked for as well; they are not if the outcome is stored. -/
def Arguments.asksScoresOf (store : Bool) (a : Arguments) : Bool :=
  !store && (a.get "withscores").isTruthy

theorem Method.named?_combination (union store : Bool) :
    named? (combination union store).name = some (combination union store) := by
  cases union <;> cases store <;> decide

theorem Method.scans_combination (union store : Bool) : (combination union store).scans = false := by
  cases union <;> cases store <;> rfl

/-! ## Weights and aggregates -/

/-- The score of a weight: a score that is a number, or the one nearest to an integer. -/
inductive Value.Weighs : Value → Binary64 → Prop where
  | float {x : Binary64} (h : x ≠ .nan) : Weighs (.float x) x
  | int {n : Int} {x : Binary64} (h : Binary64.ofInt? n = some x) : Weighs (.int n) x

/-- Weights as a caller gives them: none, or a value whose items are weights. -/
inductive Weights.Given : Value → Option (List Binary64) → Prop where
  | none : Given .none Option.none
  | items {v : Value} {vs : List Value} {xs : List Binary64} (hv : v.items? = some vs)
      (h : List.Forall₂ Value.Weighs vs xs) : Given v (some xs)

/-- An aggregate as a caller gives it. -/
inductive Aggregate.Given : Value → Option Aggregate → Prop where
  | none : Given .none Option.none
  | aggregate (g : Aggregate) : Given (.aggregate g) (some g)

namespace Value

variable {vs : List Value} {x : Binary64} {xs : List Binary64}

theorem Weighs.ne_nan {v : Value} (h : v.Weighs x) : x ≠ .nan := by
  cases h with
  | float h => exact h
  | int h =>
    obtain ⟨m, -, rfl⟩ := Option.map_eq_some_iff.1 h
    exact Binary64.noConfusion

theorem ne_nan_of_weighs (h : List.Forall₂ Weighs vs xs) : ∀ x ∈ xs, x ≠ .nan := by
  induction h with
  | nil => simp
  | cons hx _ ih => exact List.forall_mem_cons.2 ⟨hx.ne_nan, ih⟩

theorem weighs_floats_iff {ys : List Binary64} (h : List.Forall₂ Weighs (ys.map float) xs) :
    xs = ys := by
  induction ys generalizing xs with
  | nil =>
    cases h
    rfl
  | cons y ys ih =>
    obtain ⟨x, xs, hx, hxs, rfl⟩ := List.forall₂_cons_left_iff.1 h
    cases hx
    rw [ih hxs]

end Value

/-- The score of a weight if integers are rounded by a function. To say it of any function keeps
Lean from computing the rounding of an integer that is not known. -/
def Weights.rounded (round : Int → Option Binary64) : Value → Except Error Binary64
  | .float x => .ok x
  | .int n =>
    match round n with
    | some x => .ok x
    | none => .error .overflow
  | _ => .error .badType

theorem Weights.weightScore_eq (v : Value) : weightScore v = rounded Binary64.ofInt? v := by
  delta weightScore rounded
  rfl

theorem Weights.rounded_int {round : Int → Option Binary64} {n : Int} {x : Binary64}
    (h : round n = some x) : rounded round (.int n) = .ok x := by
  rw [rounded, h]

theorem Weights.weightScore_of_weighs {v : Value} {x : Binary64} (h : v.Weighs x) :
    weightScore v = .ok x := by
  cases h with
  | float => rfl
  | int hn => exact (weightScore_eq _).trans (rounded_int hn)

/-- All weights are checked, and then rounded. -/
theorem Weights.ofItems_of_weighs {vs : List Value} {xs : List Binary64}
    (h : List.Forall₂ Value.Weighs vs xs) : ofItems vs = .ok ⟨xs⟩ := by
  have hcheck : vs.mapM checkWeight = .ok vs := by
    induction h with
    | nil => rfl
    | @cons v x vs xs hv _ ih =>
      have hone : checkWeight v = .ok v := by cases hv <;> rfl
      rw [List.mapM_cons, hone, ih]
      rfl
  -- the second pass rounds, once all are known to be numbers
  have hround : vs.mapM weightScore = .ok xs := by
    clear hcheck
    induction h with
    | nil => rfl
    | @cons v x vs xs hv _ ih =>
      rw [List.mapM_cons, weightScore_of_weighs hv, ih]
      rfl
  rw [ofItems, hcheck]
  simp only [bind, Except.bind, hround]
  rfl

namespace Command

variable {w g : Value} {weights : Option (List Binary64)} {aggregate : Option Aggregate}

theorem checkWeights_of_given {xs : List Binary64} (h : Weights.Given w (some xs)) (n : Nat) :
    checkWeights n w = .ok ⟨xs⟩ := by
  cases h with
  | @items _ vs _ hv h =>
    have hvalue : Weights.ofValue w = .ok ⟨xs⟩ := by
      rw [Weights.ofValue, Value.items, hv]
      exact Weights.ofItems_of_weighs h
    cases w with
    | none => cases hv
    | weights ws =>
      cases hv
      rw [Value.weighs_floats_iff h]
      rfl
    | _ => exact hvalue

end Command

/-- The weights and the aggregate that are asked for, if one of them is: the other one is one for each
of the sets, or the sum. -/
def askedClauses (sets : Nat) (weights : Option (List Binary64))
    (aggregate : Option Aggregate) : Option (List Binary64 × Aggregate) :=
  if aggregate.isNone && weights.isNone then none
  else some (weights.getD (Weights.ones sets).toList, aggregate.getD .sum)

theorem Binary64.one_ne_nan : one ≠ .nan := by
  unfold one
  cases h : ofInt? 1 with
  | none => exact Binary64.noConfusion
  | some x => exact Value.Weighs.ne_nan (.int h)

/-- There are as many weights as sets, and all of them are numbers. -/
theorem askedClauses_size {w : Value} {weights : Option (List Binary64)} (hw : Weights.Given w weights)
    {sets : Nat} (hn : ∀ xs, weights = some xs → xs.length = sets) (aggregate : Option Aggregate)
    {p : List Binary64 × Aggregate} (hp : askedClauses sets weights aggregate = some p) :
    p.1.length = sets ∧ ∀ x ∈ p.1, x ≠ .nan := by
  have hfirst : p.1 = weights.getD (Weights.ones sets).toList := by
    unfold askedClauses at hp
    split at hp
    · cases hp
    · cases hp
      rfl
  rw [hfirst]
  cases hw with
  | none =>
    refine ⟨List.length_replicate, fun x hx => ?_⟩
    rw [List.eq_of_mem_replicate hx]
    exact Binary64.one_ne_nan
  | items _ h => exact ⟨hn _ rfl, Value.ne_nan_of_weighs h⟩

/-- The arguments that say weights and aggregate. -/
def clauseArguments : Option (List Binary64 × Aggregate) → List Value
  | none => []
  | some (xs, g) => word "WEIGHTS" :: xs.map Value.float ++ [word "AGGREGATE", word g.word]

theorem Weights.check_int (ws : Weights) (n : Nat) :
    ws.check (.int n) = if ws.size = n then .ok () else .error (.weightCount ws.size (.int n)) := by
  have hs : (Value.int ws.size).same (.int n) = ((ws.size : Int) == n) := rfl
  simp [check, hs]

namespace Command

variable {w g : Value} {weights : Option (List Binary64)} {aggregate : Option Aggregate}

theorem given_isNone (hw : Weights.Given w weights) (hg : Aggregate.Given g aggregate) :
    w.isNone = weights.isNone ∧ g.isNone = aggregate.isNone := by
  constructor
  · cases hw with
    | none => rfl
    | items hv _ =>
      cases w with
      | none => cases hv
      | _ => rfl
  · cases hg <;> rfl

/-- The weights that a command says. -/
theorem checkWeights_eq (hw : Weights.Given w weights) (n : Nat) :
    checkWeights n w = .ok ⟨weights.getD (Weights.ones n).toList⟩ := by
  cases weights with
  | none =>
    cases hw
    rfl
  | some xs => exact checkWeights_of_given hw n

/-- Weights and aggregate are both said if one of them is given. -/
theorem aggregationArguments_eq (hw : Weights.Given w weights) (hg : Aggregate.Given g aggregate)
    (n : Nat) :
    aggregationArguments n g w =
      if aggregate.isNone && weights.isNone then .ok []
      else (Weights.check ⟨weights.getD (Weights.ones n).toList⟩ (.int n)).map fun _ =>
        clauseArguments (askedClauses n weights aggregate) := by
  obtain ⟨hwnone, hgnone⟩ := given_isNone hw hg
  have hsum : (if g.isTruthy then g else .aggregate .sum) = .aggregate (aggregate.getD .sum) := by
    cases hg <;> rfl
  rw [aggregationArguments, hwnone, hgnone, askedClauses]
  split
  · rfl
  · rw [checkWeights_eq hw]
    simp only [bind, Except.bind, hsum]
    cases Weights.check ⟨weights.getD (Weights.ones n).toList⟩ (.int n) <;> rfl

/-- As many weights as sets, or none. -/
theorem aggregationArguments_of_count (hw : Weights.Given w weights)
    (hg : Aggregate.Given g aggregate) {n : Nat} (hn : ∀ xs, weights = some xs → xs.length = n) :
    aggregationArguments n g w = .ok (clauseArguments (askedClauses n weights aggregate)) := by
  have hsize : Weights.size ⟨weights.getD (Weights.ones n).toList⟩ = n := by
    cases weights with
    | none => exact List.length_replicate
    | some xs => exact hn xs rfl
  rw [aggregationArguments_eq hw hg]
  split
  · next hnone =>
    rw [askedClauses, if_pos hnone]
    rfl
  · rw [Weights.check_int, if_pos hsize]
    rfl

/-- Too many weights, or too few. -/
theorem aggregationArguments_of_miscount {xs : List Binary64} (hw : Weights.Given w (some xs))
    (hg : Aggregate.Given g aggregate) {n : Nat} (hn : xs.length ≠ n) :
    aggregationArguments n g w = .error (.weightCount xs.length (.int n)) := by
  have hsize : Weights.size ⟨xs⟩ ≠ n := hn
  rw [aggregationArguments_eq hw hg, if_neg (by simp), Option.getD_some, Weights.check_int,
    if_neg hsize]
  rfl

/-! ## Commands -/

/-- What a method that combines sets makes of its arguments. -/
def combining (union store : Bool) (dest : Value) (keys : List Value)
    (aggregate weights withScores : Value) : Except Error Command :=
  if store then combineStore (Method.combination union store).word dest keys aggregate weights
  else combine (Method.combination union store).word keys aggregate weights withScores

end Command

theorem Method.apply_combination (union store : Bool) (mode : Mode) (a : Arguments) :
    (combination union store).apply mode a =
      (Command.combining union store (a.get "destkey") (a.get "key" :: a.further)
        (a.get "aggregate") (a.get "weights") (a.get "withscores")).map Call.send := by
  cases union <;> cases store <;> rfl

namespace Command

variable {keys : List Value} {dest aggregate weights : Value}

/-- Keys that can be sent pass their check. -/
theorem checkKeys_of_isKey (h : ∀ v ∈ keys, v.IsKey) : checkKeys keys = .ok () := by
  have hnone : keys.any Value.isNone = false :=
    List.any_eq_false.2 fun v hv => Bool.eq_false_iff.1 (h v hv).isNone_eq_false
  have hforM : keys.forM (checkKey "key") = .ok () := by
    clear hnone
    induction keys with
    | nil => rfl
    | cons v keys ih =>
      rw [List.forall_mem_cons] at h
      rw [List.forM, checkKey_of_isKey h.1]
      exact ih h.2
  rw [checkKeys, hnone]
  exact hforM

/-- All depends on the clauses. -/
theorem combining_eq (union : Bool) {store : Bool} (hkeys : ∀ v ∈ keys, v.IsKey)
    (hdest : store = true → dest.IsKey) (withScores : Value) :
    combining union store dest keys aggregate weights withScores =
      (aggregationArguments keys.length aggregate weights).map fun clauses =>
        if store then
          plain (Method.combination union store).word (dest :: sources keys ++ clauses)
        else
          members (Method.combination union store).word (sources keys ++ clauses)
            withScores.isTruthy [] := by
  cases store with
  | true =>
    simp only [combining, combineStore, checkKey_of_isKey (hdest rfl), checkKeys_of_isKey hkeys, bind,
      Except.bind, if_true]
    cases aggregationArguments keys.length aggregate weights <;> rfl
  | false =>
    simp only [combining, combine, checkKeys_of_isKey hkeys, bind, Except.bind, Bool.false_eq_true,
      if_false]
    cases aggregationArguments keys.length aggregate weights <;> rfl

/-- The command of a combination with its clauses. -/
theorem exists_combining {clauses : List Value}
    (h : aggregationArguments keys.length aggregate weights = .ok clauses) (union : Bool)
    {store : Bool} (hkeys : ∀ v ∈ keys, v.IsKey) (hdest : store = true → dest.IsKey)
    (withScores : Value) :
    ∃ command, combining union store dest keys aggregate weights withScores = .ok command ∧
      command.name = Bytes.ascii (Method.combination union store).word ∧
      command.args = (if store then [dest] else []) ++ (sources keys ++ (clauses ++
        if !store && withScores.isTruthy then [word "WITHSCORES"] else [])) := by
  rw [combining_eq union hkeys hdest, h]
  cases store with
  | true => exact ⟨_, rfl, rfl, by simp [plain]⟩
  | false => exact ⟨_, rfl, name_members .., by simp [args_members]⟩

/-- The arguments of a combination can be sent. -/
theorem sendable_combining {store : Bool} (hkeys : ∀ v ∈ keys, v.IsKey)
    (hdest : store = true → dest.IsKey) {clauses : Option (List Binary64 × Aggregate)}
    (hclauses : ∀ p, clauses = some p → ∀ x ∈ p.1, x ≠ .nan) (withScores : Bool) :
    ∀ v ∈ (if store then [dest] else []) ++ (sources keys ++ (clauseArguments clauses ++
      if withScores then [word "WITHSCORES"] else [])), v.Sendable := by
  have hword (w : String) : (word w).Sendable := .bytes _
  simp only [List.forall_mem_append, sources, List.forall_mem_cons]
  refine ⟨?_, ⟨.int _, fun v hv => (hkeys v hv).sendable⟩, ?_, ?_⟩
  · cases store with
    | true => simpa using (hdest rfl).sendable
    | false => simp
  · cases clauses with
    | none => simp [clauseArguments]
    | some p =>
      obtain ⟨xs, g⟩ := p
      simp only [clauseArguments, List.forall_mem_append, List.forall_mem_cons, List.forall_mem_map,
        List.not_mem_nil, false_implies, implies_true, and_true]
      exact ⟨⟨hword _, fun x hx => .float (hclauses _ rfl x hx)⟩, hword _, hword _⟩
  · cases withScores <;> simp [hword]

end Command

/-! ## Reading -/

/-- What a combination of sets asks. -/
structure Combination where
  dest : Option Bytes
  keys : List Bytes
  clauses : Option (List Binary64 × Aggregate)
  withScores : Bool

/-- The aggregate of a word. -/
def Aggregate.ofBytes? (bs : Bytes) : Option Aggregate :=
  [sum, min, max].find? fun g => bs.isWord g.word

theorem Aggregate.ofBytes?_word (g : Aggregate) : ofBytes? (Bytes.ascii g.word) = some g := by
  cases g <;> decide

namespace Combination

/-- The key under which the outcome is stored, if it is. -/
def readDest? (store : Bool) (words : List Bytes) : Option (Option Bytes × List Bytes) :=
  match store, words with
  | false, words => some (none, words)
  | true, dest :: words => some (some dest, words)
  | true, [] => none

/-- The keys of the source sets, their number in front. -/
def readSources? : List Bytes → Option (List Bytes × List Bytes)
  | [] => none
  | count :: words => do
    let n ← count.int?
    if 0 < n then readMany? some n.toNat words else none

/-- The clauses for weights and aggregate, if they are there. -/
def readClauses? (sets : Nat) (words : List Bytes) :
    Option (Option (List Binary64 × Aggregate) × List Bytes) :=
  match takeWord "WEIGHTS" words with
  | (false, words) => some (none, words)
  | (true, words) => do
    let (xs, words) ← readMany? Bytes.score? sets words
    match takeWord "AGGREGATE" words with
    | (true, g :: words) => do return (some (xs, ← Aggregate.ofBytes? g), words)
    | _ => none

/-- A combination of sets by its words, all of them: the word of the command, the key under which the
outcome is stored, the source sets, the clauses, and whether scores are asked for. -/
def read? (union store : Bool) : List Bytes → Option Combination
  | [] => none
  | name :: words =>
    if name.isWord (Method.combination union store).word then do
      let (dest, words) ← readDest? store words
      let (keys, words) ← readSources? words
      let (clauses, words) ← readClauses? keys.length words
      match takeWord "WITHSCORES" words with
      | (withScores, []) => return ⟨dest, keys, clauses, withScores⟩
      | _ => none
    else none

theorem readSources?_append {keys : List Value} (hne : keys ≠ []) {words : List Bytes}
    (h : List.Forall₂ Value.Converts (Command.sources keys) words) :
    ∃ bss, List.Forall₂ Value.Converts keys bss ∧
      ∀ rest, readSources? (words ++ rest) = some (bss, rest) := by
  obtain ⟨_, bss, hcount, hkeys, rfl⟩ := List.forall₂_cons_left_iff.1 h
  obtain rfl := Value.converts_int_iff.1 hcount
  refine ⟨bss, hkeys, fun rest => ?_⟩
  have hpos : bss ≠ [] := by
    rintro rfl
    cases hkeys
    exact hne rfl
  have hread : readMany? some bss.length (bss ++ rest) = some (bss, rest) :=
    readMany?_append (List.forall₂_same.2 fun _ _ => rfl) rest
  simp [readSources?, hpos, hkeys.length_eq, hread]

/-- The clauses are read with as many weights as there are sets, unless they are missing. -/
theorem readClauses?_append {sets : Nat} {clauses : Option (List Binary64 × Aggregate)}
    (hsize : ∀ p, clauses = some p → p.1.length = sets ∧ ∀ x ∈ p.1, x ≠ .nan) {words : List Bytes}
    (h : List.Forall₂ Value.Converts (clauseArguments clauses) words) {rest : List Bytes}
    (hrest : takeWord "WEIGHTS" rest = (false, rest)) :
    readClauses? sets (words ++ rest) = some (clauses, rest) := by
  cases clauses with
  | none =>
    cases h
    rw [List.nil_append, readClauses?, hrest]
  | some p =>
    obtain ⟨xs, g⟩ := p
    obtain ⟨rfl, hnan⟩ := hsize _ rfl
    rw [clauseArguments, List.cons_append] at h
    obtain ⟨_, words, hw, htail, rfl⟩ := List.forall₂_cons_left_iff.1 h
    obtain rfl := Value.converts_word_iff.1 hw
    -- the weights come first, as many as there are sets, then the aggregate
    obtain ⟨weights, last, rfl, hweights, hlast⟩ := exists_append_of_forall₂ htail
    simp only [List.forall₂_cons_left_iff, List.forall₂_nil_left_iff, Value.converts_word_iff] at hlast
    obtain ⟨_, _, rfl, ⟨_, _, rfl, rfl, rfl⟩, rfl⟩ := hlast
    have hscores : List.Forall₂ (fun x bs => bs.score? = some x) xs weights := by
      have hboth := (List.forall₂_and_left xs weights).2 ⟨hnan, List.forall₂_map_left_iff.1 hweights⟩
      exact hboth.imp fun _ _ hx => Value.score?_of_converts hx.1 hx.2
    rw [List.cons_append, readClauses?, takeWord_of_isWord (by decide)]
    have haggregate : takeWord "AGGREGATE" (Bytes.ascii "AGGREGATE" :: Bytes.ascii g.word :: rest) =
        (true, Bytes.ascii g.word :: rest) := takeWord_of_isWord (by decide) _
    simp only [List.append_assoc, readMany?_append hscores, List.cons_append, List.nil_append]
    simp [haggregate, Aggregate.ofBytes?_word]

theorem isWord_word (union store : Bool) :
    (Bytes.ascii (Method.combination union store).word).isWord
      (Method.combination union store).word = true := by
  cases union <;> cases store <;> decide

/-- The key of the outcome is read if there is one. -/
theorem exists_readDest? {store : Bool} {dest : Value} {words : List Bytes}
    (h : List.Forall₂ Value.Converts (if store then [dest] else []) words) :
    ∃ bs, List.Forall₂ Value.Converts (if store then [dest] else []) bs.toList ∧
      ∀ rest, readDest? store (words ++ rest) = some (bs, rest) := by
  cases store with
  | false =>
    cases h
    exact ⟨none, .nil, fun rest => rfl⟩
  | true =>
    obtain ⟨bs, _, hdest, hnil, rfl⟩ := List.forall₂_cons_left_iff.1 h
    cases hnil
    exact ⟨some bs, .cons hdest .nil, fun rest => rfl⟩

/-- The words of a combination are read as what was asked. -/
theorem read?_words {union store : Bool} {dest : Value} {keys : List Value} (hne : keys ≠ [])
    {clauses : Option (List Binary64 × Aggregate)}
    (hsize : ∀ p, clauses = some p → p.1.length = keys.length ∧ ∀ x ∈ p.1, x ≠ .nan)
    {withScores : Bool} {words : List Bytes}
    (h : List.Forall₂ Value.Converts (.bytes (Bytes.ascii (Method.combination union store).word) ::
      ((if store then [dest] else []) ++ (Command.sources keys ++ (clauseArguments clauses ++
        if withScores then [word "WITHSCORES"] else [])))) words) :
    ∃ bs bss, List.Forall₂ Value.Converts (if store then [dest] else []) bs.toList ∧
      List.Forall₂ Value.Converts keys bss ∧
      read? union store words = some ⟨bs, bss, clauses, withScores⟩ := by
  obtain ⟨_, words, hname, hrest, rfl⟩ := List.forall₂_cons_left_iff.1 h
  obtain rfl := Value.converts_bytes_iff.1 hname
  obtain ⟨first, words, rfl, hfirst, hrest⟩ := exists_append_of_forall₂ hrest
  obtain ⟨sources, words, rfl, hsources, hrest⟩ := exists_append_of_forall₂ hrest
  obtain ⟨clauseWords, last, rfl, hclauses, hlast⟩ := exists_append_of_forall₂ hrest
  obtain ⟨bs, hdest, hreadDest⟩ := exists_readDest? hfirst
  obtain ⟨bss, hkeys, hreadKeys⟩ := readSources?_append hne hsources
  -- the last word is no clause
  have hscores : takeWord "WEIGHTS" last = (false, last) ∧
      takeWord "WITHSCORES" last = (withScores, []) := by
    cases withScores with
    | false =>
      cases hlast
      exact ⟨rfl, rfl⟩
    | true =>
      obtain ⟨_, _, hw, hnil, rfl⟩ := List.forall₂_cons_left_iff.1 hlast
      obtain rfl := Value.converts_word_iff.1 hw
      cases hnil
      exact ⟨takeWord_of_not_isWord (by decide) _, takeWord_of_isWord (by decide) _⟩
  have hreadClauses := readClauses?_append (hkeys.length_eq ▸ hsize) hclauses hscores.1
  refine ⟨bs, bss, hdest, hkeys, ?_⟩
  simp [read?, isWord_word, hreadDest, hreadKeys, hreadClauses, hscores.2]

end Combination

/-! ## Calls -/

namespace Session

variable {s : Session} {c : Connection Listener}

/-- A combination of sets, of keys that can be sent and of any weights and any aggregate. The words of
its command, on the client or on a batch, are read, all of them, as what was asked: the key of the
outcome, the source sets in their order, the weights in their order and the aggregate if one of both is
given, the other one being one for each set, or the sum, and whether scores are wanted. Over an open
connection the call is refused for a mismatch exactly if weights are given and there are not as many of
them as source sets, and nothing is written then. Else one request is written, of these words. -/
theorem combination_reads_back (hc : s.connection = some c) (hb : c.buffer = none)
    (ho : c.isClosed = false) (union store : Bool) (args : List Value)
    (named : List (String × Value)) {a : Arguments}
    (ha : (Method.combination union store).signature.bind args named = .ok a)
    (hkeys : ∀ v ∈ a.get "key" :: a.further, v.IsKey)
    (hdest : store = true → (a.get "destkey").IsKey) {weights : Option (List Binary64)}
    (hweights : Weights.Given (a.get "weights") weights) {aggregate : Option Aggregate}
    (haggregate : Aggregate.Given (a.get "aggregate") aggregate) :
    let k : MethodCall := ⟨(Method.combination union store).name, args, named⟩
    let sets := (a.get "key" :: a.further).length
    (∀ words, k.Speaks words → ∃ dest keys,
      List.Forall₂ Value.Converts (if store then [a.get "destkey"] else []) dest.toList ∧
      List.Forall₂ Value.Converts (a.get "key" :: a.further) keys ∧
      Combination.read? union store words = some ⟨dest, keys,
        askedClauses sets weights aggregate, a.asksScoresOf store⟩) ∧
    ((∃ e, s.RefusesCall k e ∧ e.class? = some .argumentMismatch) ↔
      ∃ xs, weights = some xs ∧ xs.length ≠ sets) ∧
    ((∀ xs, weights = some xs → xs.length = sets) →
      ∃ words, k.Speaks words ∧ s.SendsCall k words) := by
  intro k sets
  have hw := written?_of_connection hc hb
  have hk : k.scans = false := by
    rw [MethodCall.scans, Method.named?_combination]
    exact Method.scans_combination union store
  have hjudged (mode : Mode) := MethodCall.judged_of_bind (k := k)
    (Method.named?_combination union store) ha (Method.apply_combination union store mode a)
  have hmismatch {xs : List Binary64} (hxs : weights = some xs) (hn : xs.length ≠ sets)
      (mode : Mode) : k.judged mode = .error (.weightCount xs.length (.int sets)) := by
    subst hxs
    rw [hjudged, Command.combining_eq union hkeys hdest,
      Command.aggregationArguments_of_miscount hweights haggregate hn]
    rfl
  have hcommand (hn : ∀ xs, weights = some xs → xs.length = sets) := Command.exists_combining
    (Command.aggregationArguments_of_count hweights haggregate hn) union hkeys hdest
    (a.get "withscores")
  have hsize (hn : ∀ xs, weights = some xs → xs.length = sets) {p : List Binary64 × Aggregate} :=
    askedClauses_size hweights hn aggregate (p := p)
  have hsends (hn : ∀ xs, weights = some xs → xs.length = sets) :
      ∃ words, k.Speaks words ∧ s.SendsCall k words := by
    obtain ⟨command, hcommand, -, hcargs⟩ := hcommand hn
    have hj := (hjudged s.mode).trans hcommand
    have hsendable : ∀ v ∈ command.args, v.Sendable := by
      rw [hcargs]
      exact Command.sendable_combining hkeys hdest (fun p hp => (hsize hn hp).2) _
    obtain ⟨words, hwords, hsent⟩ := sendsCall_of_judged hw hk hc ho hj hsendable
    exact ⟨words, ⟨s.mode, command, hj, hwords⟩, hsent⟩
  refine ⟨?reads, ⟨?mismatched, ?matched⟩, hsends⟩
  case reads =>
    rintro words ⟨mode, command, hj, hwords⟩
    -- there would be no command if the number of weights was another
    have hn : ∀ xs, weights = some xs → xs.length = sets := by
      intro xs hxs
      by_contra hn
      cases hj.symm.trans (hmismatch hxs hn mode)
    obtain ⟨command', hcommand, hname, hcargs⟩ := hcommand hn
    cases hj.symm.trans ((hjudged mode).trans hcommand)
    rw [hname, hcargs] at hwords
    exact Combination.read?_words (List.cons_ne_nil _ _) (fun p hp => hsize hn hp) hwords
  case mismatched =>
    rintro ⟨e, he, -⟩
    by_contra hn
    obtain ⟨words, -, hsent⟩ := hsends (by simpa using hn)
    exact hsent.not_refusesCall e he
  case matched =>
    rintro ⟨xs, hxs, hn⟩
    exact ⟨_, refusesCall_of_judged hw hk (hmismatch hxs hn s.mode), rfl⟩

/-- Keys that spell the clauses, with weights but without an aggregate. -/
theorem combination_reads_back_clauses :
    let key (w : String) : Value := .bytes (Bytes.ascii w)
    let k : MethodCall := ⟨"zunionstore", [key "WEIGHTS", key "2", key "aggregate"],
      [("weights", .list [.int 1, .float .zero])]⟩
    ∃ words, (connected (.none, .none) .none).SendsCall k words ∧
      Combination.read? true true words = some ⟨some (Bytes.ascii "WEIGHTS"),
        [Bytes.ascii "2", Bytes.ascii "aggregate"], some ([.one, .zero], .sum), false⟩ := by
  intro key k
  have hkey {w : String} (hw : isEmptyText (key w) = false) : (key w).IsKey := ⟨.bytes _, hw⟩
  let weights : List Binary64 := [.one, .zero]
  have hone : Value.Weighs (.int 1) .one := .int (by decide +kernel)
  have hweights : Weights.Given (.list [.int 1, .float .zero]) (some weights) :=
    .items rfl (.cons hone (.cons (.float Binary64.noConfusion) .nil))
  have hcount : ∀ xs, some weights = some xs → xs.length = 2 := by
    intro xs hxs
    rw [← Option.some.inj hxs]
    rfl
  obtain ⟨hreads, -, hsends⟩ := combination_reads_back (s := connected (.none, .none) .none) rfl rfl
    rfl true true k.args k.named rfl
    (List.forall_mem_cons.2 ⟨hkey (by decide), List.forall_mem_singleton.2 (hkey (by decide))⟩)
    (fun _ => hkey (by decide)) hweights .none
  obtain ⟨words, hspeaks, hsent⟩ := hsends hcount
  obtain ⟨dest, keys, hdest, hkeys, hread⟩ := hreads words hspeaks
  have hdest : List.Forall₂ Value.Converts [key "WEIGHTS"] dest.toList := hdest
  have hkeys : List.Forall₂ Value.Converts [key "2", key "aggregate"] keys := hkeys
  simp only [key, List.forall₂_cons_left_iff, List.forall₂_nil_left_iff,
    Value.converts_bytes_iff] at hdest hkeys
  obtain ⟨_, _, rfl, rfl, hdest⟩ := hdest
  obtain ⟨_, _, rfl, ⟨_, _, rfl, rfl, rfl⟩, rfl⟩ := hkeys
  rw [Option.toList_eq_singleton_iff] at hdest
  have hclauses (n : Nat) : askedClauses n (some weights) none = some (weights, .sum) := rfl
  rw [hdest, hclauses] at hread
  exact ⟨words, hsent, hread⟩

end Session

end SortedSets

import SortedSets.Conversion
import SortedSets.Proofs.Command.Checks
import SortedSets.Proofs.Number.Notation

/-!
# Scores in replies

A score is written in the same way whether it is sent or answered: an integer in decimal, any other
score with a point, with an exponent or as an infinity. So the text of a score tells its kind, and the
conversions of replies give back the scores that were written, in their places.

## Main definitions

* `Value.ofEntry`, `flatEntries`: a member with its score, and members and scores as one flat list
* `scoreReply`: a score, or the absence of one, as the item of a list

## Main results

* `readScoreValue_of_formatScore`: the text of a score is read back
* `scoredPairs_flatEntries`: a flat list is taken apart into the members and scores it was made of
* `score_replies_read_back`: what the conversions make of scores, by themselves and with members
-/

namespace SortedSets

/-! ## One score -/

section Score

variable {s : Value} {text : Bytes}

theorem Value.IsScore.exists_formatScore (hs : s.IsScore) : ∃ text, formatScore s = .ok text := by
  obtain ⟨cs, hcs, -⟩ := exists_chars_of_formatScore hs
  exact ⟨_, hcs⟩

/-- The text of a score is read back as the number that it is, an integer or a fraction. -/
theorem readScoreValue_of_formatScore (hs : s.IsScore) (h : formatScore s = .ok text) :
    readScoreValue (.bytes text) = .ok s := by
  obtain ⟨cs, hcs, hascii, -, hread⟩ := exists_chars_of_formatScore hs
  obtain rfl : Bytes.ofChars cs = text := Except.ok.inj (hcs.symm.trans h)
  rw [readScoreValue, Bytes.numeral?_ofChars hascii, hread]

theorem scoredPair_of_formatScore (hs : s.IsScore) (h : formatScore s = .ok text) (member : Value) :
    scoredPair member (.bytes text) = .ok (.scored member s) := by
  rw [scoredPair, readScoreValue_of_formatScore hs h]
  rfl

end Score

/-! ## Members with their scores -/

/-- A member with its score. -/
def Value.ofEntry (e : Bytes × Value) : Value :=
  .scored (.bytes e.1) e.2

/-- Members and scores as one flat list, each member in front of the text of its score. -/
def flatEntries : List (Bytes × Value) → Except Error (List Value)
  | [] => .ok []
  | (member, score) :: entries => do
    let text ← formatScore score
    let flat ← flatEntries entries
    return .bytes member :: .bytes text :: flat

section Entries

variable {entries : List (Bytes × Value)} {flat : List Value} {member text : Bytes} {score : Value}

theorem flatEntries_cons (h : formatScore score = .ok text) (hflat : flatEntries entries = .ok flat) :
    flatEntries ((member, score) :: entries) = .ok (.bytes member :: .bytes text :: flat) := by
  rw [flatEntries, h, hflat]
  rfl

theorem scoredPairs_cons (hs : score.IsScore) (h : formatScore score = .ok text)
    (hpairs : scoredPairs flat = .ok (entries.map Value.ofEntry)) :
    scoredPairs (.bytes member :: .bytes text :: flat) =
      .ok (((member, score) :: entries).map Value.ofEntry) := by
  rw [scoredPairs, scoredPair_of_formatScore hs h, hpairs]
  rfl

/-- A flat list is taken apart into the members and scores it was made of. -/
theorem scoredPairs_flatEntries (h : ∀ e ∈ entries, e.2.IsScore) :
    ∃ flat, flatEntries entries = .ok flat ∧
      scoredPairs flat = .ok (entries.map Value.ofEntry) := by
  -- an entry puts two items in front of the list, and the reader takes two off it
  induction entries with
  | nil => exact ⟨[], rfl, rfl⟩
  | cons e entries ih =>
    obtain ⟨member, score⟩ := e
    have hs : score.IsScore := h _ List.mem_cons_self
    obtain ⟨text, htext⟩ := hs.exists_formatScore
    obtain ⟨flat, hflat, hpairs⟩ := ih fun e he => h e (List.mem_cons_of_mem _ he)
    exact ⟨_, flatEntries_cons htext hflat, scoredPairs_cons hs htext hpairs⟩

/-- The list of an entry and others begins with the entry. -/
theorem exists_of_flatEntries_cons (hflat : flatEntries ((member, score) :: entries) = .ok flat) :
    ∃ text rest, formatScore score = .ok text ∧ flat = .bytes member :: .bytes text :: rest := by
  rw [flatEntries] at hflat
  obtain ⟨text, htext, hflat⟩ := Except.bind_eq_ok_iff.1 hflat
  obtain ⟨rest, -, hflat⟩ := Except.bind_eq_ok_iff.1 hflat
  exact ⟨text, rest, htext, (Except.ok.inj hflat).symm⟩

end Entries

/-! ## Lists of scores -/

/-- A score as the item of a list of scores, in its text. A score may be absent. -/
def scoreReply : Option Value → Except Error Value
  | none => .ok .none
  | some score => (formatScore score).map .bytes

/-- An item is read back as the score, or as absent. -/
theorem readOptionalScore_scoreReply {score : Option Value} (h : ∀ s, score = some s → s.IsScore) :
    ∃ item, scoreReply score = .ok item ∧ readOptionalScore item = .ok (score.getD .none) := by
  cases score with
  | none => exact ⟨.none, rfl, rfl⟩
  | some s =>
    obtain ⟨text, htext⟩ := (h s rfl).exists_formatScore
    refine ⟨.bytes text, by rw [scoreReply, htext]; rfl, ?_⟩
    rw [readOptionalScore]
    exact readScoreValue_of_formatScore (h s rfl) htext

theorem mapM_readOptionalScore {scores : List (Option Value)}
    (h : ∀ s, some s ∈ scores → s.IsScore) :
    ∃ items, scores.mapM scoreReply = .ok items ∧
      items.mapM readOptionalScore = .ok (scores.map fun score => score.getD .none) := by
  induction scores with
  | nil => exact ⟨[], rfl, rfl⟩
  | cons score scores ih =>
    have hscore : ∀ s, score = some s → s.IsScore := fun s hs => h s (hs ▸ List.mem_cons_self)
    obtain ⟨item, hitem, hread⟩ := readOptionalScore_scoreReply hscore
    obtain ⟨items, hitems, hreads⟩ := ih fun s hs => h s (List.mem_cons_of_mem _ hs)
    refine ⟨item :: items, ?_, ?_⟩
    · rw [List.mapM_cons, hitem, hitems]
      rfl
    · rw [List.mapM_cons, hread, hreads]
      rfl

/-! ## Conversions -/

namespace Conversion

variable {entries : List (Bytes × Value)} {flat : List Value}

theorem apply_pairs_of_scoredPairs {ps : List Value} (h : scoredPairs flat = .ok ps) :
    pairs.apply (.list flat) = .ok (.value (.list ps)) := by
  change (do let ps ← scoredPairs flat; return Converted.value (.list ps)) = _
  rw [h]
  rfl

/-- The first member with its score is there if there is any. -/
theorem apply_firstPair_flatEntries (h : ∀ e ∈ entries, e.2.IsScore)
    (hflat : flatEntries entries = .ok flat) :
    firstPair.apply (.list flat) =
      .ok (.value ((entries.head?.map Value.ofEntry).getD .none)) := by
  cases entries with
  | nil =>
    obtain rfl := Except.ok.inj hflat
    rfl
  | cons e entries =>
    obtain ⟨member, score⟩ := e
    obtain ⟨text, rest, htext, rfl⟩ := exists_of_flatEntries_cons hflat
    have hpair := scoredPair_of_formatScore (h _ List.mem_cons_self) htext (.bytes member)
    change (do return Converted.value (← scoredPair (.bytes member) (.bytes text))) = _
    rw [hpair]
    rfl

theorem apply_keyedPair {score : Value} {text : Bytes} (hs : score.IsScore)
    (h : formatScore score = .ok text) (key : Value) (member : Bytes) :
    keyedPair.apply (.list [key, .bytes member, .bytes text]) =
      .ok (.value (.ofEntry (member, score))) := by
  change (do return Converted.value (← scoredPair (.bytes member) (.bytes text))) = _
  rw [scoredPair_of_formatScore hs h]
  rfl

theorem apply_scores_of_mapM {items vs : List Value} (h : items.mapM readOptionalScore = .ok vs) :
    scores.apply (.list items) = .ok (.value (.list vs)) := by
  change (do let vs ← items.mapM readOptionalScore; return Converted.value (.list vs)) = _
  rw [h]
  rfl

end Conversion

/-- Members with their scores come back from a flat list, each in its place and with a score of the
same kind; the first of them is there if there is any; a member and its score come back from behind a
key; and scores come back from a list in which some may be absent. -/
theorem score_replies_read_back {entries : List (Bytes × Value)} {scores : List (Option Value)}
    (hentries : ∀ e ∈ entries, e.2.IsScore) (hscores : ∀ s, some s ∈ scores → s.IsScore) :
    (∃ flat, flatEntries entries = .ok flat ∧
        Conversion.pairs.apply (.list flat) = .ok (.value (.list (entries.map Value.ofEntry))) ∧
        Conversion.firstPair.apply (.list flat) =
          .ok (.value ((entries.head?.map Value.ofEntry).getD .none))) ∧
      (∀ e ∈ entries, ∃ text, formatScore e.2 = .ok text ∧ ∀ key,
        Conversion.keyedPair.apply (.list [key, .bytes e.1, .bytes text]) =
          .ok (.value (.ofEntry e))) ∧
      ∃ items, scores.mapM scoreReply = .ok items ∧
        Conversion.scores.apply (.list items) =
          .ok (.value (.list (scores.map fun score => score.getD .none))) := by
  refine ⟨?_, fun e he => ?_, ?_⟩
  · obtain ⟨flat, hflat, hpairs⟩ := scoredPairs_flatEntries hentries
    exact ⟨flat, hflat, Conversion.apply_pairs_of_scoredPairs hpairs,
      Conversion.apply_firstPair_flatEntries hentries hflat⟩
  · obtain ⟨text, htext⟩ := (hentries e he).exists_formatScore
    exact ⟨text, htext, fun key => Conversion.apply_keyedPair (hentries e he) htext key e.1⟩
  · obtain ⟨items, hitems, hreads⟩ := mapM_readOptionalScore hscores
    exact ⟨items, hitems, Conversion.apply_scores_of_mapM hreads⟩

/-- Zero as an integer and as a negative fraction are told apart, and so are an infinity and an absent
score. -/
theorem score_replies_read_back_zeros :
    let zeros : List (Bytes × Value) :=
      [(Bytes.ascii "a", .int 0), (Bytes.ascii "a", .float Binary64.zero.neg)]
    let scores : List (Option Value) := [some (.float (.infinity true)), none, some (.int (-7))]
    (∀ e ∈ zeros, e.2.IsScore) ∧ (∀ s, some s ∈ scores → s.IsScore) ∧
      Conversion.pairs.apply
          (.list [.bytes (Bytes.ascii "a"), .bytes (Bytes.ascii "0"), .bytes (Bytes.ascii "a"),
            .bytes (Bytes.ascii "-0.0")]) =
        .ok (.value (.list (zeros.map Value.ofEntry))) ∧
      Conversion.scores.apply
          (.list [.bytes (Bytes.ascii "-inf"), .none, .bytes (Bytes.ascii "-7")]) =
        .ok (.value (.list [.float (.infinity true), .none, .int (-7)])) := by
  intro zeros scores
  have hzeros : ∀ e ∈ zeros, e.2.IsScore := by
    simp only [zeros, List.forall_mem_cons, List.not_mem_nil, false_implies, implies_true, and_true]
    exact ⟨.int 0, .float nofun⟩
  have hscores : ∀ s, some s ∈ scores → s.IsScore := by
    simp only [scores, List.mem_cons, Option.some.injEq, reduceCtorEq, false_or, List.not_mem_nil,
      or_false]
    rintro s (rfl | rfl)
    · exact .float nofun
    · exact .int (-7)
  obtain ⟨⟨flat, hflat, hpairs, -⟩, -, items, hitems, hreads⟩ :=
    score_replies_read_back hzeros hscores
  obtain rfl := Except.ok.inj hflat
  obtain rfl := Except.ok.inj hitems
  exact ⟨hzeros, hscores, hpairs, hreads⟩

end SortedSets

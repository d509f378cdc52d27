import SortedSets.Proofs.Range.Ends

/-!
# Ranges of one kind

A range is written in queries of its own kind only, and one without ends in queries of both kinds.
The two ends of a lexicographical query tell which range was asked for: nothing that a byte string
holds makes an end look like a missing one, or an included end like an excluded one.

## Main results

* `Range.encodeAs_error_iff`: a range is refused by the queries of the other kind, and by no others
* `Range.eq_of_encodeLex`: two ranges that are written alike in a lexicographical query are the same
* `Range.Built.same_iff`: ranges of byte strings are equal as values if they are the same
* `Range.kinds_kept_apart`: the three together
-/

namespace SortedSets

namespace Boundary

variable {p : Value → Prop} {b b' : Boundary}

/-- An end that is no score is missing, or a byte string. -/
theorem Made.lex_cases (hb : b.Made p) (hk : b.kind? ≠ some .score) :
    b = Boundary.unbounded ∨ ∃ bs, ∃ included : Bool, b = ⟨.bytes bs, .bool included⟩ := by
  obtain rfl | ⟨v, w, -, hw, included, rfl⟩ := hb.cases
  · exact .inl rfl
  · rcases of_checkValue hw with hs | ⟨bs, rfl⟩
    · exact absurd (kind?_of_isScore hs _) hk
    · exact .inr ⟨bs, included, rfl⟩

/-- Ends of byte strings are equal as values if they are the same: no number compares equal to one,
and no missing end does. -/
theorem Made.same_iff (hb : b.Made p) (hb' : b'.Made p) (hk : b.kind? ≠ some .score)
    (hk' : b'.kind? ≠ some .score) : b.same (.boundary b') = true ↔ b = b' := by
  obtain rfl | ⟨bs, included, rfl⟩ := hb.lex_cases hk
  · obtain rfl | ⟨bs', included', rfl⟩ := hb'.lex_cases hk'
    · exact iff_of_true rfl rfl
    · exact iff_of_false Bool.false_ne_true (by simp [Boundary.unbounded])
  · obtain rfl | ⟨bs', included', rfl⟩ := hb'.lex_cases hk'
    · exact iff_of_false Bool.false_ne_true (by simp [Boundary.unbounded])
    · have hincluded : (Value.bool included).same (.bool included') = (included == included') := by
        cases included <;> cases included' <;> rfl
      change ((Value.bytes bs).same (.bytes bs') &&
        (Value.bool included).same (.bool included')) = true ↔ _
      rw [Value.same_bytes, hincluded]
      simp

end Boundary

namespace Range

variable {r r' : Range} {kind : BoundaryKind}

theorem fits_score_iff : r.Fits .score ↔ r.kind? ≠ some .lex := by
  constructor
  · intro h hlex
    cases h .lex hlex
  · intro h k hk
    cases k with
    | score => rfl
    | lex => exact absurd hk h

theorem fits_lex_iff : r.Fits .lex ↔ r.kind? ≠ some .score := by
  constructor
  · intro h hscore
    cases h .score hscore
  · intro h k hk
    cases k with
    | score => exact absurd hk h
    | lex => rfl

/-- A range is refused by the queries that it does not fit, and by no others. -/
theorem encodeAs_error_iff (hr : r.Built) :
    (∃ c, r.encodeAs kind = .error (.invalid c)) ↔ ¬ r.Fits kind := by
  refine ⟨fun ⟨c, hc⟩ hk => ?_, encodeAs_of_misfit⟩
  obtain ⟨low, high, hok, -⟩ := readEnd?_encodeAs hr hk
  cases hc.symm.trans hok

/-- Neither end of a range that fits the lexicographical queries is a score. -/
theorem Built.ends_lex (hr : r.Built) (hk : r.Fits .lex) :
    r.min.kind? ≠ some .score ∧ r.max.kind? ≠ some .score := by
  obtain ⟨-, -, hsame⟩ := hr.ends
  have hmin : r.min.kind? ≠ some .score := fun h => by
    cases hk .score (by rw [kind?, h]; rfl)
  refine ⟨hmin, fun h => ?_⟩
  cases hlow : r.min.kind? with
  | none => cases hk .score (by rw [kind?, hlow, h]; rfl)
  | some k => exact hmin (hlow.trans (congrArg some (hsame k _ hlow h)))

/-- The ends that a lexicographical query is written with are read back, each for itself, and so
they tell the range. -/
theorem eq_of_encodeLex (hr : r.Built) (hr' : r'.Built) (hk : r.Fits .lex) (hk' : r'.Fits .lex)
    (h : r.encodeLex = r'.encodeLex) : r = r' := by
  obtain ⟨low, high, hwritten, hlow, hhigh⟩ := readEnd?_encodeAs hr hk
  obtain ⟨low', high', hwritten', hlow', hhigh'⟩ := readEnd?_encodeAs hr' hk'
  have hends : (Except.ok (Value.bytes low, Value.bytes high) : Except Error (Value × Value)) =
      .ok (.bytes low', .bytes high') := hwritten.symm.trans (h.trans hwritten')
  cases hends
  have hmin : r.min = r'.min := Option.some.inj (hlow.symm.trans hlow')
  have hmax : r.max = r'.max := Option.some.inj (hhigh.symm.trans hhigh')
  cases r
  cases r'
  exact congr (congrArg Range.mk hmin) hmax

/-- Ranges of byte strings, or without ends, are equal as values if they are the same. -/
theorem Built.same_iff (hr : r.Built) (hr' : r'.Built) (hk : r.Fits .lex) (hk' : r'.Fits .lex) :
    (Value.range r).same (.range r') = true ↔ r = r' := by
  obtain ⟨hmin, hmax, -⟩ := hr.ends
  obtain ⟨hmin', hmax', -⟩ := hr'.ends
  obtain ⟨hlow, hhigh⟩ := hr.ends_lex hk
  obtain ⟨hlow', hhigh'⟩ := hr'.ends_lex hk'
  cases r
  cases r'
  have hsame := (hmin.same_iff hmin' hlow hlow').and (hmax.same_iff hmax' hhigh hhigh')
  rw [← Bool.and_eq_true] at hsame
  exact hsame.trans (by rw [Range.mk.injEq])

/-- A score query refuses exactly the ranges of byte strings, and a lexicographical query exactly
those of scores. Two ranges without scores are both written in a lexicographical query, and in the
same way if and only if they are equal, whatever bytes their ends hold. -/
theorem kinds_kept_apart (hr : r.Built) :
    ((∃ c, r.encodeScore = .error (.invalid c)) ↔ r.kind? = some .lex) ∧
      ((∃ c, r.encodeLex = .error (.invalid c)) ↔ r.kind? = some .score) ∧
      (r.kind? ≠ some .lex → ∃ low high : Bytes, r.encodeScore = .ok (.bytes low, .bytes high)) ∧
      ∀ r', r'.Built → r.kind? ≠ some .score → r'.kind? ≠ some .score →
        ∃ low high low' high' : Bytes,
          r.encodeLex = .ok (.bytes low, .bytes high) ∧
          r'.encodeLex = .ok (.bytes low', .bytes high') ∧
          (low = low' ∧ high = high' ↔ (Value.range r).same (.range r') = true) ∧
          (low = low' ∧ high = high' ↔ r = r') := by
  refine ⟨?_, ?_, fun hk => ?_, fun r' hr' hk hk' => ?_⟩
  · have h : (∃ c, r.encodeAs .score = .error (.invalid c)) ↔ _ := encodeAs_error_iff hr
    rwa [fits_score_iff, not_not] at h
  · have h : (∃ c, r.encodeAs .lex = .error (.invalid c)) ↔ _ := encodeAs_error_iff hr
    rwa [fits_lex_iff, not_not] at h
  · obtain ⟨low, high, hwritten, -⟩ := readEnd?_encodeAs hr (fits_score_iff.2 hk)
    exact ⟨low, high, hwritten⟩
  · have hk := fits_lex_iff.2 hk
    have hk' := fits_lex_iff.2 hk'
    obtain ⟨low, high, hwritten, -⟩ := readEnd?_encodeAs hr hk
    obtain ⟨low', high', hwritten', -⟩ := readEnd?_encodeAs hr' hk'
    have hsame : low = low' ∧ high = high' ↔ r = r' := by
      constructor
      · rintro ⟨rfl, rfl⟩
        exact eq_of_encodeLex hr hr' hk hk' (hwritten.trans hwritten'.symm)
      · rintro rfl
        cases hwritten.symm.trans hwritten'
        exact ⟨rfl, rfl⟩
    exact ⟨low, high, low', high', hwritten, hwritten',
      hsame.trans (hr.same_iff hr' hk hk').symm, hsame⟩

/-- The range up to the text `+`, which is the mark of a missing end, is not written as the range
that has no end. -/
theorem kinds_kept_apart_mark :
    let r : Range := ⟨Boundary.unbounded, ⟨.bytes (Bytes.ascii "+"), .bool true⟩⟩
    r.Built ∧ unbounded.Built ∧ r.kind? ≠ some .score ∧ unbounded.kind? ≠ some .score ∧
      (∃ c, r.encodeScore = .error (.invalid c)) ∧ r.encodeLex ≠ unbounded.encodeLex := by
  intro r
  have hr : r.Built := .atMost (v := .text (Text.ofString "+")) rfl
  have hk : r.kind? ≠ some .score := by decide
  have hopen : unbounded.kind? ≠ some .score := by decide
  obtain ⟨hscore, -, -, hlex⟩ := kinds_kept_apart hr
  obtain ⟨low, high, low', high', hwritten, hwritten', -, hsame⟩ := hlex unbounded .unbounded hk hopen
  refine ⟨hr, .unbounded, hk, hopen, hscore.2 rfl, fun h => ?_⟩
  have hends : (Except.ok (Value.bytes low, Value.bytes high) : Except Error (Value × Value)) =
      .ok (.bytes low', .bytes high') := hwritten.symm.trans (h.trans hwritten')
  cases hends
  have hmax := congrArg Range.max (hsame.1 ⟨rfl, rfl⟩)
  cases hmax

end Range

end SortedSets

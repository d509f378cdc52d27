import SortedSets.Proofs.Scan.Collect

/-!
# Steps that fail

A step that fails after a request leaves the cursor as it was at that request, so that the next
request is for the same page: unless the page did arrive and its items cannot be read. Then the
cursor is already that of the page, while the state is not: the page is passed over, and behind the
last page the scan begins anew.

## Main results

* `Script.cursor_after_failure`: what a step that fails leaves behind
* `Script.not_cursor_kept`: the last page of a scan, unreadable
-/

namespace SortedSets

namespace Script

variable {s t : Script}

theorem Passes.pending_eq {ps : List Page} (h : s.Passes ps t) :
    t.cursor.pending = s.cursor.pending ++ ps.flatMap Page.items := by
  induction h with
  | nil => simp
  | cons _ _ _ _ ih =>
    rw [ih, List.flatMap_cons, ← List.append_assoc]
    rfl

/-- The pages that a step by items reads have no items if it needs another one. -/
theorem Passes.items_eq_nil {ps : List Page} (h : s.Passes ps t) {step : Step}
    (hpage : step = .page → ps = []) (hp : t.NeedsPage step) : ∀ p ∈ ps, p.items = [] := by
  cases step with
  | page => simp [hpage rfl]
  | item =>
    have hnil := h.pending_eq.symm.trans (hp rfl)
    exact List.flatMap_eq_nil_iff.1 (List.append_eq_nil_iff.1 hnil).2

/-- A step that needs a page asks for that of the cursor. -/
theorem requests_of_needsPage (hs : s.Calm) {step : Step} (hp : s.NeedsPage step)
    (hx : s.cursor.state ≠ .exhausted) :
    s.requests ++ [(s.cursor.id, s.cursor.options)] <+: (s.advance step).1.requests := by
  obtain ⟨ps, t, hps, -, hend⟩ := advance_cases hs step
  cases hps with
  | nil =>
    generalize s.advance step = r at hend ⊢
    cases hend with
    | finished _ hx' => exact absurd hx' hx
    | item hv => cases (hp rfl).symm.trans hv
    | failed | garbled | page => exact List.prefix_rfl
  | cons _ _ _ h => exact h.requests_prefix.trans hend.requests_prefix

/-- What a step that fails leaves behind. It has read pages without items, by pages none. If the
scan is then over, nothing else happened. Otherwise one more request was made, and the cursor is as
it was then, except that it is that of a page whose items cannot be read. The next request is for
the page of the cursor. -/
theorem cursor_after_failure (id : Int) (options : Value) {answers : List Answer}
    {decode : Value → Except Error (List Value)} (hcalm : ∀ a ∈ answers, a.closes = false)
    (l : List Step) {step : Step} {e : Error}
    (h : ((start (.start id options) answers decode).steps l).1.advance step = (t, .error e)) :
    ∃ ps u, ((start (.start id options) answers decode).steps l).1.Passes ps u ∧
      (step = .page → ps = []) ∧ (∀ p ∈ ps, p.items = []) ∧
      (u.cursor.state = .exhausted ∧ e = .exhausted ∧ t = u ∨
        u.cursor.state ≠ .exhausted ∧
          t.requests = u.requests ++ [(u.cursor.id, u.cursor.options)] ∧
          (u.arrival = .failed e ∧ t.cursor = u.cursor ∨
            ∃ n, u.arrival = .garbled n e ∧ t.cursor = { u.cursor with id := n }) ∧
          ∀ next, t.NeedsPage next →
            t.requests ++ [(t.cursor.id, t.cursor.options)] <+: (t.advance next).1.requests) := by
  have hs : ((start (.start id options) answers decode).steps l).1.Calm :=
    Calm.steps (s := start (.start id options) answers decode) ⟨nofun, hcalm⟩ l
  obtain ⟨ps, u, hps, hpage, hend⟩ := advance_cases hs step
  -- no failure closes or exhausts the cursor, so that the next step can make its request
  have ht : t.Calm := by
    have := hs.advance step
    rwa [h] at this
  rw [h] at hend
  refine ⟨ps, u, hps, hpage, ?_⟩
  cases hend with
  | finished hp hx => exact ⟨hps.items_eq_nil hpage hp, .inl ⟨hx, rfl, rfl⟩⟩
  | failed hp hx ha =>
    exact ⟨hps.items_eq_nil hpage hp, .inr ⟨hx, rfl, .inl ⟨ha, rfl⟩,
      fun next hnext => requests_of_needsPage ht hnext hx⟩⟩
  | garbled hp hx ha =>
    exact ⟨hps.items_eq_nil hpage hp, .inr ⟨hx, rfl, .inr ⟨_, ha, rfl⟩,
      fun next hnext => requests_of_needsPage ht hnext hx⟩⟩

/-- A page without items, and a request that fails behind it. -/
def failingBehindEmpty : List Answer :=
  [.page (.bytes (Bytes.ascii "5")) (.list []), .failure (.ofString "LOADING")]

/-- The step has read the empty page before the request that failed. -/
theorem cursor_after_failure_behindEmpty :
    let s := start (.start 7 .none) failingBehindEmpty decodePairs
    ∃ ps u, s.Passes ps u ∧ (∀ p ∈ ps, p.items = []) ∧
      (s.advance .item).1.requests = u.requests ++ [(u.cursor.id, u.cursor.options)] ∧
      (s.advance .item).1.requests = [(7, .none), (5, .none)] := by
  intro s
  obtain ⟨ps, u, hps, -, hempty, ⟨-, he, -⟩ | ⟨-, hrequests, -⟩⟩ :=
    @cursor_after_failure (s.advance .item).1 7 .none failingBehindEmpty decodePairs
      (by simp [failingBehindEmpty, Answer.closes]) [] .item _ rfl
  · cases he
  · exact ⟨ps, u, hps, hempty, hrequests, rfl⟩

/-- The last page, with a score that is no number. -/
def unreadableLast : List Answer :=
  [.page (.bytes (Bytes.ascii "0"))
    (.list [.bytes (Bytes.ascii "a"), .bytes (Bytes.ascii "x")])]

/-- A step that fails does not always leave the cursor as it was: after an unreadable last page
the next request is for the first one. -/
theorem not_cursor_kept : ¬ ∀ (id : Int) (options : Value) (answers : List Answer)
    (decode : Value → Except Error (List Value)) (l : List Step) (t : Script) (e : Error),
    (∀ a ∈ answers, a.closes = false) →
      ((start (.start id options) answers decode).steps l).1.advance .page = (t, .error e) →
        e ≠ .exhausted → t.cursor = ((start (.start id options) answers decode).steps l).1.cursor := by
  intro h
  have hkept := h 7 .none unreadableLast decodePairs [] _ _
    (by simp [unreadableLast, Answer.closes]) rfl nofun
  exact absurd (congrArg Cursor.id hkept) (by decide)

end Script

end SortedSets

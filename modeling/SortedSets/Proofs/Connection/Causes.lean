import SortedSets.Proofs.Connection.Interrupted

/-!
# The reported cause of a close

A transport may be told to close more than once before it is lost: by the client, and by every piece
of the stream in or behind a fault. When it is lost without an error of its own, all commands that
wait fail with one error. It is the reason that was given last, and so the first one only if both
are the same.

## Main results

* `eq_of_mem_reasons`: a transport is told to close by the client or because of the one fault of its
  stream
* `Sound.outcome?_of_pending_at_loss`: a command that waits when the transport is lost ends with its
  answer
* `last_cause_reported`: the cause that the loss of the transport reports
-/

namespace SortedSets

open Wire (Reader)

variable {Listener : Type}

/-! ## The reasons of a run -/

theorem reasons_snoc (c : Connection Listener) (es : List (Event Listener)) (e : Event Listener) :
    reasons c (es ++ [e]) = reasons c es ++ (e.reason? (c.run es)).toList := by
  induction es generalizing c with
  | nil => simp [reasons]
  | cons x es ih => simp [reasons, ih]

/-- A transport is told to close by the client or because of the fault of its stream, of which there
is one. -/
theorem eq_of_mem_reasons (address : Value × Value) (timeout : Timeout)
    {es : List (Event Listener)} {x : Error} (h : x ∈ reasons (.start address timeout) es) :
    x = .closed .forced ∨
      ∃ f, (Reader.start.feed (received es)).2.fault = some f ∧ x = .protocol f := by
  -- Induction on the run; the fault of the stream so far stays the fault of the longer stream.
  induction es using List.reverseRec with
  | nil => cases h
  | append_singleton es e ih =>
    rw [received_append, Reader.feed_append, received_singleton]
    rw [reasons_snoc] at h
    rcases List.mem_append.1 h with h | h
    · refine (ih h).imp id ?_
      rintro ⟨f, hf, rfl⟩
      exact ⟨f, by rw [Reader.feed_of_fault hf]; exact hf, rfl⟩
    · rw [Option.mem_toList] at h
      cases e with
      | close =>
        rw [Event.reason?] at h
        split at h
        · cases h
        · exact .inl (Option.some.inj h).symm
      | deliver piece =>
        right
        obtain ⟨f, hf, hx⟩ := Option.map_eq_some_iff.1 h
        rw [reader_run] at hf
        exact ⟨f, hf, hx.symm⟩
      | submit | giveUp | abandon | expire | follow | enterBuffer | leaveBuffer | drop => cases h

/-! ## Commands that wait when the transport is lost -/

/-- A command that waits for its answer when the transport is lost ends with the failure that it is
given, unless its caller gives it up, or the end of its transaction is given up. -/
theorem Sound.outcome?_of_pending_at_loss (address : Value × Value) (timeout : Timeout)
    {before : List (Event Listener)} {t : Ticket} {e : Option Error}
    (hl : ((Connection.start address timeout).run before).attached = true)
    (ht : t < ((Connection.start address timeout).run before).exchanges.length)
    (hn : ((Connection.start address timeout).run before).answer? t = none)
    (after : List (Event Listener)) {x : Error} :
    let c₀ : Connection Listener := .start address timeout
    let c := c₀.run (before ++ .drop e :: after)
    c.due = [] → c.answer? t = some (.failed x) →
      (∀ o, ¬ GivenUp c₀ (before ++ .drop e :: after) t o) →
      (∀ s discards queue, c.role? s = some (.ending discards queue) → t ∈ queue →
        c.answer? s ≠ some .cancelled) →
      c.outcome? t = some (.failed x) := by
  intro c₀ c hd ha hg hend
  have h₀ : Sound (GivenUp c₀ before) (c₀.run before) := sound_run address timeout before
  have h : Sound (GivenUp c₀ (before ++ .drop e :: after)) c := sound_run address timeout _
  have hdue : .answered t (.failed x) ∉ c.due := by simp [hd]
  by_cases hr : c.role? t = some .queued
  · by_cases hm : t ∈ c.ended
    · -- the end of its transaction was sent, and fails later than the command itself
      obtain ⟨s, discards, queue, hs, hts⟩ := Connection.mem_ended.1 hm
      exact h.outcome?_of_refused hs hts (hend s discards queue hs hts) ha hdue hg
    · -- its transaction is open when the transport is lost
      have hr₀ : (c₀.run before).role? t = some .queued := by
        obtain ⟨r, hr'⟩ := Connection.exists_role? ht
        have hlater := Connection.role?_run hr' (.drop e :: after)
        rw [← Connection.run_append] at hlater
        rw [hr', ← hlater, hr]
      have hrun : c = ((c₀.run before).drop e).run after := Connection.run_append ..
      have hm₀ : t ∉ (c₀.run before).ended := by rwa [hrun, Connection.ended_run_drop] at hm
      have hopen : t ∈ (c₀.run before).transaction.getD [] := by
        by_contra hq
        obtain ⟨o, ho⟩ := Option.ne_none_iff_exists'.1
          (h₀.course.left t hr₀ fun hmem => (List.mem_append.1 hmem).elim hm₀ hq)
        rcases h₀.cause_of_notMem_ended hr₀ hm₀ ho with hgo | ⟨y, -, hy⟩ | ⟨hf, -⟩
        · obtain ⟨pre, y, hp, hy⟩ := hgo
          exact hg o ⟨pre, y, hp.trans (List.prefix_append before _), hy⟩
        · cases hn.symm.trans hy
        · exact Bool.eq_false_iff.1 hf hl
      have hi := interrupted_run address timeout (e := e) hl hopen
        (fun ⟨r, hack⟩ => absurd (hn.symm.trans hack) (by simp)) after
      obtain ⟨o, ho⟩ := Option.ne_none_iff_exists'.1
        (h.outcome?_ne_none_of_lost hi.lost hd hr hm)
      have hx := Outcome.failed.inj (Option.some.inj (hi.answer.symm.trans ha))
      rw [ho, (hi.outcome o ho).resolve_left (hg o), hx]
  · exact h.outcome?_of_own hr ha hdue hg

/-! ## The reported cause -/

/-- The transport is lost without an error of its own. Each command that still waits for its answer
is given the reason for which the transport was told to close last, which is the first one only if
both are the same; if it was never told to close, the server has closed it. What the command is
given is what it ends with, unless its caller gives it up, or the end of its transaction is given
up. -/
theorem last_cause_reported (address : Value × Value) (timeout : Timeout)
    (before after : List (Event Listener)) :
    let c₀ : Connection Listener := .start address timeout
    let es := before ++ .drop none :: after
    let causes := reasons c₀ before
    (c₀.run before).attached = true →
      (∀ x ∈ causes, x = .closed .forced ∨
        ∃ f, (Reader.start.feed (received before)).2.fault = some f ∧ x = .protocol f) ∧
      ∀ t < (c₀.run before).exchanges.length, (c₀.run before).answer? t = none →
        (c₀.run es).answer? t = some (.failed (causes.getLast?.getD (.closed .byServer))) ∧
        ((c₀.run es).answer? t = some (.failed (causes.head?.getD (.closed .byServer))) ↔
          causes.getLast? = causes.head?) ∧
        ((c₀.run es).due = [] → (∀ o, ¬ GivenUp c₀ es t o) →
          (∀ s discards queue, (c₀.run es).role? s = some (.ending discards queue) → t ∈ queue →
            (c₀.run es).answer? s ≠ some .cancelled) →
          (c₀.run es).outcome? t =
            some (.failed (causes.getLast?.getD (.closed .byServer)))) := by
  intro c₀ es causes hl
  have hcauses (x : Error) (hx : x ∈ causes) := eq_of_mem_reasons address timeout hx
  refine ⟨hcauses, fun t ht hn => ?_⟩
  have h₀ : Sound (GivenUp c₀ before) (c₀.run before) := sound_run address timeout before
  have ha : (c₀.run es).answer? t =
      some (.failed (causes.getLast?.getD (.closed .byServer))) := by
    have hdrop := h₀.order.answer?_drop none ht
    rw [hn, Connection.cause_run_start] at hdrop
    have hrun : c₀.run es = ((c₀.run before).drop none).run after := Connection.run_append ..
    rw [hrun]
    exact Connection.answer?_run hdrop after
  refine ⟨ha, ?_, fun hd hg hend => ?_⟩
  · rw [ha]
    cases hc : causes with
    | nil => simp
    | cons x xs => simp [List.getLast?_cons]
  · exact Sound.outcome?_of_pending_at_loss address timeout hl ht hn after hd ha hg hend

/-- One command waits; the client closes the connection, and the next bytes are no reply. -/
def corruptAfterClose : List (Event Unit) :=
  [.submit (.text (.ofString "ZCARD")) [.text (.ofString "k")] (), .close,
    .deliver (Bytes.ascii "?\r\n")]

/-- The command fails because of the bytes, although the client was first. -/
theorem last_cause_reported_afterClose :
    let c₀ : Connection Unit := .start (.none, .none) .none
    ((reasons c₀ corruptAfterClose).head?.bind Error.class?) = some .connectionForcedClose ∧
      ((c₀.run (corruptAfterClose ++ [.drop none, .follow, .follow])).outcome? 0).bind
        Outcome.class? = some .protocol := by
  intro c₀
  obtain ⟨-, h⟩ := last_cause_reported (.none, .none) .none corruptAfterClose [.follow, .follow]
    (by decide +kernel)
  obtain ⟨-, -, ho⟩ := h 0 (by decide +kernel) (Option.isNone_iff_eq_none.1 (by decide +kernel))
  refine ⟨by decide +kernel, ?_⟩
  rw [ho (List.isEmpty_iff.1 (by decide +kernel))]
  · decide +kernel
  · exact not_givenUp_of_spares rfl (by simp [corruptAfterClose, Event.spares])
  · -- the command is the only one, and ends no transaction
    intro s discards queue hs
    have hlt := Connection.lt_of_role? hs
    obtain rfl : s = 0 := Nat.lt_one_iff.1 (Nat.lt_of_lt_of_eq hlt (by decide +kernel))
    cases hs.symm.trans (by decide +kernel : _ = some Role.plain)

/-- One command waits; bytes arrive that are no reply, and then the client closes the connection. -/
def closeAfterCorrupt : List (Event Unit) :=
  [.submit (.text (.ofString "ZCARD")) [.text (.ofString "k")] (),
    .deliver (Bytes.ascii "?\r\n"), .close]

/-- Not every command that waits is told the first cause. -/
theorem not_first_cause_reported :
    ¬ ∀ (es : List (Event Unit)) (t : Ticket),
      let c₀ : Connection Unit := .start (.none, .none) .none
      (c₀.run es).attached = true → t < (c₀.run es).exchanges.length →
        (c₀.run es).answer? t = none →
          ((c₀.run es).drop none).answer? t =
            some (.failed ((reasons c₀ es).head?.getD (.closed .byServer))) := by
  intro h
  have hfirst := h closeAfterCorrupt 0 (by decide +kernel) (by decide +kernel)
    (Option.isNone_iff_eq_none.1 (by decide +kernel))
  exact absurd (congrArg (·.bind Outcome.class?) hfirst) (by decide +kernel)

end SortedSets

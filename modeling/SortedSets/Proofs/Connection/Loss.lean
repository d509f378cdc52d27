import SortedSets.Proofs.Connection.Settled

/-!
# The loss of the transport

After the loss of the transport, and once nothing is due any more, no command waits and no
transaction is open. All commands have ended but those whose transaction was ended by a reply
without a slot for them: nobody will ever tell their callers anything.

## Main results

* `Connection.due_followAll`: what is due runs out
* `pending_after_loss`: which commands have no outcome after the loss
-/

namespace SortedSets

open Wire (Reply)

variable {Listener : Type}

namespace Connection

theorem quiet_followMany (n : Nat) (c : Connection Listener) : Quiet c (c.followMany n).1 := by
  induction n generalizing c with
  | zero => exact .refl c
  | succ n ih => exact (quiet_followNext c).trans (ih c.followNext.1)

theorem followMany_eq_run (n : Nat) (c : Connection Listener) :
    (c.followMany n).1 = c.run (List.replicate n .follow) := by
  induction n generalizing c with
  | zero => rfl
  | succ n ih =>
    rw [List.replicate_succ, run_cons, ← ih]
    rfl

/-- What follows from an event brings no bytes. -/
theorem received_follows (e : Event Listener) (n : Nat) :
    received (e :: List.replicate n .follow) = e.piece := by
  have hfollow : received (List.replicate n (.follow : Event Listener)) = [] := by
    refine List.flatMap_eq_nil_iff.2 fun x hx => ?_
    rw [List.eq_of_mem_replicate hx]
    rfl
  rw [← List.singleton_append, received_append, hfollow, List.append_nil, received_singleton]

/-- Nobody gives a command up by what follows from an event. -/
theorem spares_follows {e : Event Listener} {t : Ticket} (he : e.spares t = true) (n : Nat) :
    ∀ x ∈ e :: List.replicate n .follow, x.spares t = true := by
  intro x hx
  rcases List.mem_cons.1 hx with rfl | hx
  · exact he
  · rw [List.eq_of_mem_replicate hx]
    rfl

theorem due_followMany (n : Nat) (c : Connection Listener) :
    (c.followMany n).1.due = c.due.drop n := by
  induction n generalizing c with
  | zero => rfl
  | succ n ih =>
    refine (ih c.followNext.1).trans ?_
    rw [due_followNext, List.drop_tail]

/-- What is due runs out. -/
theorem due_followAll (c : Connection Listener) : c.followAll.1.due = [] := by
  rw [followAll, due_followMany, List.drop_length]

end Connection

namespace Sound

variable {given : Ticket → Outcome → Prop} {c : Connection Listener}

theorem followAll (h : Sound given c) : Sound given c.followAll.1 := by
  have hmany (n : Nat) : Sound given (c.followMany n).1 := by
    induction n generalizing c with
    | zero => exact h
    | succ n ih => exact ih h.follow
  exact hmany c.due.length

/-- Once the transport is lost, every place has an answer. -/
theorem answered_of_lost (h : Sound given c) (hl : c.attached = false) {t : Ticket}
    (ht : t < c.exchanges.length) : ∃ o, c.answer? t = some o := by
  refine Option.ne_none_iff_exists'.1 (h.order.answered t ?_)
  rw [Connection.served, (h.course.lost hl).1]
  exact ht

/-- A command of a transaction without an outcome stands in the queue of an end that the server
answered, without a slot for it. -/
theorem slotless_of_lost (h : Sound given c) (hl : c.attached = false) (hd : c.due = [])
    {t : Ticket} (hr : c.role? t = some .queued) (hn : c.outcome? t = none) : c.Slotless t := by
  -- no transaction is open any more, so the command stands in the queue of an end
  have htr : c.transaction = none := (h.course.lost hl).2.resolve_left (by simp [hd])
  have hm : t ∈ c.ended := by
    by_contra hm
    refine h.course.left t hr (fun hq => hm ?_) hn
    rwa [Connection.queues, htr, Option.getD_none, List.append_nil] at hq
  obtain ⟨e, discards, queue, he, ht⟩ := Connection.mem_ended.1 hm
  obtain ⟨a, ha⟩ := h.answered_of_lost hl (Connection.lt_of_role? he)
  -- nothing that the answer to the end settled is the command
  have hnone (o : Outcome) : (t, o) ∉ slotOutcomes discards queue a := by
    intro hs
    refine h.outcome?_ne_none ha (by simp [hd]) (p := (t, o)) ?_ hn
    rw [Connection.settlements_eq he]
    exact List.mem_append_left _ hs
  have hmap (x : Outcome) : (t, x) ∈ queue.map fun t => (t, x) := List.mem_map_of_mem ht
  obtain ⟨i, hi⟩ := List.mem_iff_getElem?.1 ht
  cases discards with
  | true => exact absurd (hmap _) (hnone _)
  | false =>
    cases a with
    | cancelled => exact absurd (hmap _) (hnone _)
    | failed x => exact absurd (hmap _) (hnone _)
    | reply r =>
      -- nil fails the whole queue, and any other reply hands out its slots
      by_cases hnil : r = .nil
      · subst hnil
        exact absurd (hmap _) (hnone _)
      · refine ⟨e, queue, i, r, he, hi, ha, hnil, Nat.le_of_not_lt fun hlt => ?_⟩
        exact hnone r.slots[i] ((mem_slotOutcomes_reply hnil).2
          ⟨i, hi, List.getElem?_eq_getElem hlt⟩)

/-- Which commands have no outcome after the loss of the transport. -/
theorem outcome?_eq_none_iff (h : Sound given c)
    (hg : ∀ t o, given t o → c.role? t = some .queued → c.outcome? t ≠ none)
    (hl : c.attached = false) (hd : c.due = []) {t : Ticket} (ht : t < c.exchanges.length) :
    c.outcome? t = none ↔ c.Slotless t ∧ c.Acknowledged t ∧ ∀ o, ¬ given t o := by
  constructor
  · intro hn
    obtain ⟨o, ha⟩ := h.answered_of_lost hl ht
    have hnone (a : Outcome) : (t, a) ∉ c.settlements t o := fun hm =>
      h.outcome?_ne_none ha (by simp [hd]) hm hn
    obtain ⟨r, hr⟩ := Connection.exists_role? ht
    rw [Connection.settlements_eq hr] at hnone
    -- every command but one of a transaction is settled by its own answer
    cases r with
    | plain => exact absurd (List.mem_singleton_self _) (hnone o)
    | ending discards queue =>
      exact absurd (List.mem_append_right _ (List.mem_singleton_self _)) (hnone o)
    | queued =>
      refine ⟨h.slotless_of_lost hl hd hr hn, ?_, fun a hga => hg t a hga hr hn⟩
      cases o with
      | reply r => exact ⟨r, ha⟩
      | failed x => exact absurd (List.mem_singleton_self _) (hnone (.failed x))
      | cancelled => exact absurd hr (h.course.vacated t ha).1
  · rintro ⟨hs, hk, hg'⟩
    exact h.outcome?_of_slotless hs hk hg'

end Sound

/-- After the loss of the transport and all that follows, no command waits and no transaction is
open, and every command has ended but those of a transaction that were acknowledged and not given
up, and whose transaction was ended by a reply other than nil that has no slot for them. -/
theorem pending_after_loss (address : Value × Value) (timeout : Timeout)
    (es : List (Event Listener))
    (hl : ((Connection.start address timeout : Connection Listener).run es).attached = false) :
    let c := ((Connection.start address timeout).run es).followAll.1
    c.due = [] ∧ c.waiting = [] ∧ c.transaction = none ∧
      ∀ t < c.exchanges.length, c.outcome? t = none ↔
        c.Slotless t ∧ c.Acknowledged t ∧ ∀ o, ¬ GivenUp (.start address timeout) es t o := by
  intro c
  have q : Connection.Quiet _ c := Connection.quiet_followMany _ _
  have h : Sound (GivenUp (.start address timeout) es) c := (sound_run address timeout es).followAll
  have hd : c.due = [] := Connection.due_followAll _
  replace hl : c.attached = false := q.attached_eq.trans hl
  obtain ⟨hw, hlost⟩ := h.course.lost hl
  refine ⟨hd, hw, hlost.resolve_left (by simp [hd]), fun t ht => ?_⟩
  refine h.outcome?_eq_none_iff (fun t o hg hr => ?_) hl hd ht
  -- who gave up has an outcome before what is due follows, and it stays
  have hn := outcome?_of_givenUp hg ((q.role?_eq t).symm.trans hr)
  have hkept := Connection.outcome?_run_ne_none hn
    (List.replicate ((Connection.start address timeout).run es).due.length .follow)
  rwa [← Connection.followMany_eq_run] at hkept

/-- A transaction of one command whose end is answered by an empty array, before the transport is
lost. -/
def shortEnd : List (Event Unit) :=
  [.submit (.text (.ofString "MULTI")) [] (),
    .submit (.text (.ofString "SET")) [.text (.ofString "k"), .text (.ofString "v")] (),
    .submit (.text (.ofString "EXEC")) [] (),
    .deliver (Bytes.ascii "+OK\r\n+QUEUED\r\n*0\r\n"),
    .drop none]

/-- The command of the transaction has no outcome, since it has no slot. -/
theorem pending_after_loss_of_shortEnd :
    let c := ((Connection.start (.none, .none) .none).run shortEnd).followAll.1
    c.outcome? 1 = none ∧ c.Slotless 1 ∧ c.Acknowledged 1 := by
  have hl : ((Connection.start (.none, .none) .none).run shortEnd).attached = false := by
    decide +kernel
  have hn : ((Connection.start (.none, .none) .none).run shortEnd).followAll.1.outcome? 1 =
    none := by decide +kernel
  obtain ⟨-, -, -, h⟩ := pending_after_loss (.none, .none) .none shortEnd hl
  obtain ⟨hs, hk, -⟩ := (h 1 (by decide +kernel)).1 hn
  exact ⟨hn, hs, hk⟩

/-- Not all commands have an outcome after the loss of the transport. -/
theorem not_all_ended_after_loss :
    ¬ ∀ (es : List (Event Unit)),
      ((Connection.start (.none, .none) .none).run es).attached = false →
        let c := ((Connection.start (.none, .none) .none).run es).followAll.1
        ∀ t < c.exchanges.length, c.outcome? t ≠ none := by
  intro h
  exact h shortEnd (by decide +kernel) 1 (by decide +kernel) (by decide +kernel)

end SortedSets

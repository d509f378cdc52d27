import Mathlib.Data.List.Induction
import SortedSets.Proofs.Connection.Course
import SortedSets.Proofs.Connection.Kept
import SortedSets.Proofs.Connection.Stream

/-!
# What holds in every run

Whatever happens to a connection, answers keep their order, commands of transactions keep their
queues, and every outcome keeps its cause. Nothing is assumed of the server, of the callers or of
the times at which what is due follows.

## Main definitions

* `Sound`: the invariants of a connection

## Main results

* `sound_run`: a connection is sound after every run
* `not_givenUp_of_spares`: a command that nobody gives up
* `outcome?_of_givenUp`: a command of a transaction that was given up has an outcome
-/

namespace SortedSets

open Wire (Reply)

variable {Listener : Type}

/-- The invariants of a connection. -/
structure Sound (given : Ticket → Outcome → Prop) (c : Connection Listener) : Prop where
  order : InOrder c
  queues : Queues c
  course : Course given c

/-- The outcome that a reply is means that its command was answered. -/
theorem Wire.Reply.outcome_ne_cancelled (r : Reply) : r.outcome ≠ .cancelled := by
  cases r <;> nofun

namespace Sound

variable {given given' : Ticket → Outcome → Prop} {c d : Connection Listener}

theorem start (address : Value × Value) (timeout : Timeout) :
    Sound given (.start address timeout : Connection Listener) :=
  ⟨.start address timeout, .start address timeout, .start address timeout⟩

theorem mono (h : Sound given c) (hg : ∀ t o, given t o → given' t o) : Sound given' c :=
  ⟨h.order, h.queues, h.course.mono hg⟩

/-- Bytes sent, the reader, and whether more can be sent are of no concern. -/
theorem congr (h : Sound given c) (hd : d = { c with
    reader := d.reader
    buffer := d.buffer
    closing := d.closing
    cause := d.cause
    writes := d.writes
    closes := d.closes }) : Sound given d := by
  rw [hd]
  exact ⟨h.order.congr rfl rfl (fun _ => rfl) rfl, h.queues.congr rfl (.inl rfl),
    h.course.congr rfl⟩

theorem giveUp (h : Sound given c) {t : Ticket}
    (hg : t < c.exchanges.length → given t .cancelled) : Sound given (c.giveUp t).1 :=
  ⟨h.order.giveUp t, h.queues.congr (c.quiet_giveUp t).roles_eq (.inl (c.transaction_giveUp t)),
    h.course.giveUp hg⟩

theorem abandon (h : Sound given c) {t : Ticket}
    (hg : t < c.exchanges.length → given t .cancelled) : Sound given (c.abandon t).1 :=
  ⟨h.order.settle t .cancelled, h.queues.congr (c.quiet_settle t .cancelled).roles_eq (.inl rfl),
    h.course.abandon hg⟩

theorem expire (h : Sound given c) {t : Ticket}
    (hg : t < c.exchanges.length → given t (.failed .timedOut)) : Sound given (c.expire t).1 :=
  ⟨h.order.expire t, h.queues.congr (c.quiet_expire t).roles_eq (.inl (c.transaction_expire t)),
    h.course.expire hg⟩

theorem startTimeout (h : Sound given c) {t : Ticket}
    (hg : ∀ e, c.timeout.atOnce? = some e → given t (.failed e)) :
    Sound given (c.startTimeout t).1 :=
  ⟨h.order.startTimeout t,
    h.queues.congr (c.quiet_startTimeout t).roles_eq (.inl (c.transaction_startTimeout t)),
    h.course.startTimeout hg⟩

/-! ## Sending -/

theorem emit (h : Sound given c) (data : Bytes) : Sound given (c.emit data) :=
  h.congr (by rw [Connection.emit_frame])

theorem enlist_plain (h : Sound given c) (hl : c.attached = true) (l : Option Listener) :
    Sound given (c.enlist .plain l) :=
  ⟨h.order.enlist .plain l, h.queues.enlist_plain l, h.course.enlist_plain hl l⟩

theorem enrol (h : Sound given c) (hl : c.attached = true) (verb : Verb) (l : Listener) :
    Sound given (c.enrol verb l) := by
  refine ⟨?_, h.queues.enrol verb l, h.course.enrol hl verb l⟩
  exact (h.order.enlist (c.nextRole verb) (some l)).congr rfl rfl (fun _ => rfl) rfl

/-- A command that is sent is sent while the transport is there. -/
theorem submit (h : Sound given c) (name : Value) (args : List Value) (l : Listener)
    (hg : ∀ t e, (c.submit name args l).ticket = .ok t → c.timeout.atOnce? = some e →
      given t (.failed e)) :
    Sound given (c.submit name args l).connection := by
  rcases Connection.submit_cases name args l c with ⟨e, -, he, -⟩ | ⟨data, e, hd, -, he, -⟩ |
    ⟨data, verb, hd, -, he, ht⟩
  · rw [he]
    exact h
  · rw [he]
    refine (h.emit data).enlist_plain ?_ none
    rw [Connection.emit_frame]
    exact Connection.attached_of_requestOf hd
  · rw [he]
    have hl : (c.emit data).attached = true := by
      rw [Connection.emit_frame]
      exact Connection.attached_of_requestOf hd
    refine ((h.emit data).enrol hl verb l).startTimeout fun e he => hg _ e ht ?_
    rw [Connection.enrol_eq, Connection.emit_frame] at he
    exact he

/-! ## Receiving -/

theorem answerNext (h : Sound given c) {o : Outcome} (ho : o ≠ .cancelled) :
    Sound given (c.answerNext o) := by
  refine ⟨h.order.answerNext o, ?_, h.course.answerNext h.order ho⟩
  refine h.queues.congr (Connection.roles_answerNext o c) (.inl ?_)
  rw [Connection.answerNext_frame]

/-- A report of the stream is of no concern. -/
theorem logged (h : Sound given c) (entry : LogEntry) (he : ∀ t, entry ≠ .answeredTwice t) :
    Sound given { c with log := c.log ++ [entry] } := by
  exact ⟨h.order.logged he, h.queues.congr rfl (.inl rfl), h.course.congr rfl⟩

theorem assign (h : Sound given c) (rs : List Reply) : Sound given (c.assign rs) :=
  Connection.assign_induction (fun _ r h => h.logged (.stray r) nofun)
    (fun _ r h => h.answerNext r.outcome_ne_cancelled) rs h

theorem deliver (h : Sound given c) (piece : Bytes) : Sound given (c.deliver piece) := by
  have hr : Sound given { c with reader := (c.reader.feed piece).2 } := h.congr rfl
  have ha := hr.assign (c.reader.feed piece).1
  unfold Connection.deliver
  dsimp only
  split
  · next f _ => exact (ha.logged (.corrupt f) nofun).congr rfl
  · exact ha

/-- The loss of the transport fails all commands that wait, and no others are left. -/
theorem drop (h : Sound given c) (e : Option Error) : Sound given (c.drop e) := by
  set e' : Error := (e <|> c.cause).getD (.closed .byServer) with he
  have hf : Sound given (c.failWaiting e' c.waiting.length) :=
    Connection.failWaiting_induction (fun _ h => h.answerNext nofun) _ h
  have hw : (c.failWaiting e' c.waiting.length).waiting = [] := by
    rw [Connection.failWaiting_frame]
    exact List.drop_length
  have hl : (c.failWaiting e' c.waiting.length).attached = c.attached := by
    rw [Connection.failWaiting_frame]
  refine ⟨hf.order.congr rfl rfl (fun _ => rfl) rfl, hf.queues.congr rfl (.inl rfl), ?_⟩
  refine hf.course.detach hw ?_
  -- only the first loss lets the open transaction fail
  cases hca : c.attached with
  | true => exact .inl (by simp [he])
  | false => exact .inr ⟨by simp [he], hl.trans hca⟩

theorem follow (h : Sound given c) : Sound given c.followNext.1 :=
  ⟨h.order.followNext, h.queues.congr c.quiet_followNext.roles_eq c.transaction_followNext,
    h.course.followNext h.queues⟩

/-- Whatever happens, a connection stays sound. -/
theorem step (h : Sound given c) (e : Event Listener) (hg : ∀ t o, e.GivesUp c t o → given t o) :
    Sound given (c.step e) := by
  cases e with
  | submit name args l => exact h.submit name args l fun t e ht he => hg t _ ⟨ht, e, he, rfl⟩
  | giveUp t => exact h.giveUp fun ht => hg t _ ⟨rfl, ht, rfl⟩
  | abandon t => exact h.abandon fun ht => hg t _ ⟨rfl, ht, rfl⟩
  | expire t => exact h.expire fun ht => hg t _ ⟨rfl, ht, rfl⟩
  | deliver piece => exact h.deliver piece
  | follow => exact h.follow
  | enterBuffer => exact h.congr rfl
  | leaveBuffer => exact h.congr (by rw [Connection.step, Connection.leaveBuffer_frame])
  | close => exact h.congr (by rw [Connection.step, Connection.close_frame])
  | drop e => exact h.drop e

end Sound

/-- A connection is sound after every run. -/
theorem sound_run (address : Value × Value) (timeout : Timeout) (es : List (Event Listener)) :
    Sound (GivenUp (.start address timeout) es)
      ((Connection.start address timeout : Connection Listener).run es) := by
  induction es using List.reverseRec with
  | nil => exact .start address timeout
  | append_singleton es e ih =>
    rw [Connection.run_append]
    -- who gave up so far are those before and those who give up in the last event
    refine (ih.mono fun t o h => givenUp_snoc.2 (.inl h)).step e fun t o h => ?_
    exact givenUp_snoc.2 (.inr h)

/-! ## Commands that were given up -/

/-- An event by which nobody gives up a command. -/
def Event.spares (t : Ticket) : Event Listener → Bool
  | .giveUp s | .abandon s | .expire s => s ≠ t
  | _ => true

/-- Nobody gives a command up in a run that spares it, if no timeout does so. -/
theorem not_givenUp_of_spares {c : Connection Listener} {es : List (Event Listener)} {t : Ticket}
    (hc : c.timeout.atOnce? = none) (h : ∀ e ∈ es, e.spares t) (o : Outcome) :
    ¬ GivenUp c es t o := by
  rintro ⟨pre, e, hp, hg⟩
  have he := h e (hp.subset (List.mem_append_right _ List.mem_cons_self))
  cases e with
  | submit name args l =>
    obtain ⟨-, x, hx, -⟩ := hg
    rw [Connection.timeout_run, hc] at hx
    cases hx
  | giveUp s | abandon s | expire s => exact absurd hg.1 (by simpa [Event.spares] using he)
  | deliver | follow | enterBuffer | leaveBuffer | close | drop => exact hg

/-- A timeout that ends commands at once leaves none without an outcome. -/
theorem Connection.outcome?_startTimeout {c : Connection Listener} {t : Ticket}
    (h : t < c.exchanges.length) (he : c.timeout.atOnce? ≠ none) :
    (c.startTimeout t).1.outcome? t ≠ none := by
  unfold startTimeout
  split
  · exact c.outcome?_expire h
  · exact c.outcome?_settle_self h _
  · next hx hi =>
    cases ht : c.timeout with
    | expired => exact absurd ht hx
    | invalid e => exact absurd ht (hi e)
    | none | ahead =>
      rw [ht] at he
      exact absurd rfl he

/-- What is given up was sent. -/
theorem Event.GivesUp.lt {c : Connection Listener} {e : Event Listener} {t : Ticket} {o : Outcome}
    (h : e.GivesUp c t o) : t < (c.step e).exchanges.length := by
  -- whatever was sent stays sent
  have hkept (ht : t < c.exchanges.length) : t < (c.step e).exchanges.length := by
    obtain ⟨r, hr⟩ := Connection.exists_role? ht
    exact Connection.lt_of_role? (Connection.role?_run hr [e])
  cases e with
  | giveUp s | abandon s | expire s => exact hkept h.2.1
  | submit name args l =>
    -- only a command that was enrolled has a ticket
    rcases c.submit_cases name args l with ⟨e, -, -, ht⟩ | ⟨data, e, -, -, -, ht⟩ |
      ⟨data, verb, -, -, hs, ht⟩
    · cases ht.symm.trans h.1
    · cases ht.symm.trans h.1
    · obtain rfl := Except.ok.inj (ht.symm.trans h.1)
      rw [Connection.step, hs, (Connection.quiet_startTimeout _ _).length_eq]
      exact Connection.lt_length_exchanges_enrol verb l c data
  | deliver | follow | enterBuffer | leaveBuffer | close | drop => exact h.elim

/-- A command of a transaction has an outcome as soon as it is given up. -/
theorem outcome?_of_givesUp {c : Connection Listener} {e : Event Listener} {t : Ticket}
    {o : Outcome} (h : e.GivesUp c t o) (hr : (c.step e).role? t = some .queued) :
    (c.step e).outcome? t ≠ none := by
  cases e with
  | giveUp s =>
    obtain ⟨rfl, ht, -⟩ := h
    -- a command of a transaction is settled at once, since it keeps its place
    replace hr : c.role? s = some .queued := ((c.quiet_giveUp s).role?_eq s).symm.trans hr
    rcases c.giveUp_cases s with ⟨he, ho⟩ | ⟨-, -, he⟩ | ⟨-, hn, -⟩
    · rw [Connection.step, he]
      exact ho.resolve_right (Nat.not_le.2 ht)
    · rw [Connection.step, he]
      exact c.outcome?_settle_self ht .cancelled
    · exact absurd hr hn
  | abandon s =>
    obtain ⟨rfl, ht, -⟩ := h
    exact c.outcome?_settle_self ht .cancelled
  | expire s =>
    obtain ⟨rfl, ht, -⟩ := h
    exact c.outcome?_expire ht
  | submit name args l =>
    obtain ⟨ht, e, he, -⟩ := h
    rcases c.submit_cases name args l with ⟨e, -, -, ht'⟩ | ⟨data, e, -, -, -, ht'⟩ |
      ⟨data, verb, -, -, hs, ht'⟩
    · cases ht'.symm.trans ht
    · cases ht'.symm.trans ht
    · obtain rfl := Except.ok.inj (ht'.symm.trans ht)
      rw [Connection.step, hs]
      refine Connection.outcome?_startTimeout ?_ ?_
      · exact Connection.lt_length_exchanges_enrol verb l c data
      · rw [Connection.enrol_eq, Connection.emit_frame]
        exact Option.ne_none_iff_exists'.2 ⟨e, he⟩
  | deliver | follow | enterBuffer | leaveBuffer | close | drop => exact h.elim

/-- The outcome that a command of a transaction was given up with, or an earlier one, stays. -/
theorem outcome?_of_givenUp {c : Connection Listener} {es : List (Event Listener)} {t : Ticket}
    {o : Outcome} (h : GivenUp c es t o) (hr : (c.run es).role? t = some .queued) :
    (c.run es).outcome? t ≠ none := by
  obtain ⟨pre, e, ⟨post, rfl⟩, hg⟩ := h
  rw [Connection.run_append, Connection.run_append] at hr ⊢
  obtain ⟨r, hr'⟩ := Connection.exists_role? hg.lt
  obtain rfl : r = .queued := Option.some.inj ((Connection.role?_run hr' post).symm.trans hr)
  exact Connection.outcome?_run_ne_none (outcome?_of_givesUp hg hr') post

end SortedSets

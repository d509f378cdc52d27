import SortedSets.Proofs.Connection.Settled

/-!
# Replies and their commands

If the server answers no more commands than there were, the reply of a number in its stream goes
to the command of that number: into its place, or nowhere if the place was given up before. However
the stream is cut, and whatever callers do meanwhile, the commands that wait are those whose reply
has not come.

## Main definitions

* `GivenUpBefore`: a command that was given up before its reply came
* `Matched`: the replies of a run and its commands, number by number

## Main results

* `cancelled_step`: only its caller gives up a place, and only before it has an answer
* `matched_run`: the replies of an orderly run, each with the command of its number
-/

namespace SortedSets

open Wire (Reply Reader)

variable {Listener : Type}

/-- An event of a run gives a command up before the reply of its number has come. -/
def GivenUpBefore (c : Connection Listener) (es : List (Event Listener)) (t : Ticket) : Prop :=
  ∃ pre e o, pre ++ [e] <+: es ∧ e.GivesUp (c.run pre) t o ∧ (replies pre).length ≤ t

theorem GivenUpBefore.snoc {c : Connection Listener} {es : List (Event Listener)} {t : Ticket}
    (h : GivenUpBefore c es t) (e : Event Listener) : GivenUpBefore c (es ++ [e]) t := by
  obtain ⟨pre, e', o, hp, hg, hl⟩ := h
  exact ⟨pre, e', o, hp.trans (List.prefix_append es [e]), hg, hl⟩

theorem GivenUpBefore.givenUp {c : Connection Listener} {es : List (Event Listener)} {t : Ticket}
    (h : GivenUpBefore c es t) : ∃ o, GivenUp c es t o := by
  obtain ⟨pre, e, o, hp, hg, -⟩ := h
  exact ⟨o, pre, e, hp, hg⟩

namespace InOrder

variable {c : Connection Listener}

/-- A place without an answer is that of a command that waits. -/
theorem served_le (h : InOrder c) {t : Ticket} (ha : c.answer? t = none) : c.served ≤ t :=
  Nat.le_of_not_lt fun hlt => h.answered t hlt ha

/-- A place that is given up has no answer yet. -/
theorem cancelled_vacate (h : InOrder c) {s t : Ticket}
    (hs : (c.vacate t).answer? s = some .cancelled) :
    c.answer? s = some .cancelled ∨ s = t ∧ t < c.exchanges.length ∧ c.served ≤ s := by
  rw [Connection.answer?_vacate] at hs
  split at hs
  · next hst =>
    cases ha : c.answer? s with
    | none => exact .inr ⟨hst.1, hst.2, h.served_le ha⟩
    | some a =>
      rw [ha] at hs
      exact .inl hs
  · exact .inl hs

theorem cancelled_expire (h : InOrder c) {s t : Ticket}
    (hs : (c.expire t).1.answer? s = some .cancelled) :
    c.answer? s = some .cancelled ∨ s = t ∧ t < c.exchanges.length ∧ c.served ≤ s := by
  rcases Connection.expire_cases t c with ⟨he, -⟩ | ⟨-, -, he⟩ | ⟨-, -, he⟩
  · rw [he] at hs
    exact .inl hs
  · rw [he, Connection.answer?_settle] at hs
    exact .inl hs
  · -- the outcome leaves the places alone, and then the place is given up
    rw [he] at hs
    have hv := (h.settle t (.failed .timedOut)).cancelled_vacate hs
    have q := Connection.quiet_settle t (.failed .timedOut) c
    rwa [Connection.answer?_settle, Connection.length_exchanges_settle, q.served_eq] at hv

/-- A command that was just sent is given up at once if the timeout has expired. -/
theorem cancelled_startTimeout (h : InOrder c) {s t : Ticket}
    (hs : (c.startTimeout t).1.answer? s = some .cancelled) :
    c.answer? s = some .cancelled ∨ s = t ∧ c.timeout = .expired := by
  unfold Connection.startTimeout at hs
  split at hs
  · next hx => exact (h.cancelled_expire hs).imp_right fun hv => ⟨hv.1, hx⟩
  · rw [Connection.answer?_settle] at hs
    exact .inl hs
  · exact .inl hs

/-- An answer that stands for a reply or for the loss of the transport gives no place up. -/
theorem cancelled_assign (h : InOrder c) (rs : List Reply) {t : Ticket}
    (ht : (c.assign rs).answer? t = some .cancelled) : c.answer? t = some .cancelled := by
  have hP : InOrder (c.assign rs) ∧
      ((c.assign rs).answer? t = some .cancelled → c.answer? t = some .cancelled) := by
    refine Connection.assign_induction (P := fun d => InOrder d ∧
      (d.answer? t = some .cancelled → c.answer? t = some .cancelled)) ?_ ?_ rs ⟨h, id⟩
    · exact fun d r hd => ⟨hd.1.logged nofun, hd.2⟩
    · exact fun d r hd => ⟨hd.1.answerNext _,
        fun hs => hd.2 (hd.1.cancelled_of_answerNext r.outcome_ne_cancelled hs)⟩
  exact hP.2 ht

theorem cancelled_failWaiting (h : InOrder c) (x : Error) (n : Nat) {t : Ticket}
    (ht : (c.failWaiting x n).answer? t = some .cancelled) : c.answer? t = some .cancelled := by
  have hP : InOrder (c.failWaiting x n) ∧
      ((c.failWaiting x n).answer? t = some .cancelled → c.answer? t = some .cancelled) := by
    have hx : Outcome.failed x ≠ .cancelled := nofun
    refine Connection.failWaiting_induction (P := fun d => InOrder d ∧
      (d.answer? t = some .cancelled → c.answer? t = some .cancelled)) ?_ n ⟨h, id⟩
    exact fun d hd => ⟨hd.1.answerNext _, fun hs => hd.2 (hd.1.cancelled_of_answerNext hx hs)⟩
  exact hP.2 ht

/-- Only its caller gives up a place, and only before it has an answer. -/
theorem cancelled_step (h : InOrder c) {e : Event Listener} {t : Ticket}
    (ht : (c.step e).answer? t = some .cancelled) :
    c.answer? t = some .cancelled ∨ c.served ≤ t ∧ ∃ o, e.GivesUp c t o := by
  cases e with
  | submit name args l =>
    rcases Connection.submit_cases name args l c with ⟨e, -, hs, -⟩ | ⟨data, e, -, -, hs, -⟩ |
      ⟨data, verb, -, -, hs, hticket⟩
    · -- the command is refused
      rw [Connection.step, hs] at ht
      exact .inl ht
    · -- a new command that nobody listens to has no timeout
      rw [Connection.step, hs, Connection.answer?_enlist, Connection.emit_frame] at ht
      exact .inl ht
    · -- a new command is given up only by a timeout that has expired
      rw [Connection.step, hs, Connection.enrol_eq, Connection.emit_frame] at ht
      have ho := h.enlist (c.nextRole verb) (some l)
      refine (cancelled_startTimeout ?_ ht).imp (fun hc => ?_) (fun hc => ?_)
      · exact ho.congr rfl rfl (fun _ => rfl) rfl
      · exact (Connection.answer?_enlist ..).symm.trans hc
      · obtain ⟨hst, hx⟩ := hc
        replace hx : c.timeout = .expired := hx
        refine ⟨hst ▸ Nat.sub_le _ _, _, hst ▸ hticket, .timedOut, ?_, rfl⟩
        rw [hx]
        rfl
  | giveUp s =>
    rcases Connection.giveUp_cases s c with ⟨he, -⟩ | ⟨-, -, he⟩ | ⟨-, -, he⟩
    · -- the command has ended already
      rw [Connection.step, he] at ht
      exact .inl ht
    · -- a command of a transaction keeps its place
      rw [Connection.step, he, Connection.answer?_settle] at ht
      exact .inl ht
    · -- another command has its place given up, if that has no answer
      rw [Connection.step, he] at ht
      rcases h.cancelled_vacate ht with hc | ⟨hst, hl, hle⟩
      · exact .inl hc
      · exact .inr ⟨hle, .cancelled, hst.symm, hst ▸ hl, rfl⟩
  | abandon s =>
    rw [Connection.step, Connection.abandon, Connection.answer?_settle] at ht
    exact .inl ht
  | expire s =>
    rcases h.cancelled_expire ht with hc | ⟨hst, hl, hle⟩
    · exact .inl hc
    · exact .inr ⟨hle, .failed .timedOut, hst.symm, hst ▸ hl, rfl⟩
  | deliver piece =>
    rw [Connection.step, Connection.deliver_frame] at ht
    have hr : InOrder { c with reader := (c.reader.feed piece).2 } :=
      h.congr rfl rfl (fun _ => rfl) rfl
    exact .inl (hr.cancelled_assign (c.reader.feed piece).1 ht)
  | follow =>
    rw [Connection.step, Connection.answer?_followNext] at ht
    exact .inl ht
  | enterBuffer => exact .inl ht
  | leaveBuffer =>
    rw [Connection.step, Connection.leaveBuffer_frame] at ht
    exact .inl ht
  | close =>
    rw [Connection.step, Connection.close_frame] at ht
    exact .inl ht
  | drop x =>
    -- the commands that wait fail, which gives no place up
    obtain ⟨x', hx⟩ := Connection.drop_frame x c
    rw [Connection.step, hx] at ht
    exact .inl (h.cancelled_failWaiting x' c.waiting.length ht)

end InOrder

/-- Only replies and the loss of the transport answer commands. -/
theorem Connection.served_step (c : Connection Listener) (e : Event Listener) :
    (∃ piece, e = .deliver piece) ∨ (c.step e).served = c.served ∨
      (c.step e).attached = false ∧ c.served ≤ (c.step e).served := by
  cases e with
  | submit name args l =>
    refine .inr (.inl ?_)
    have he (data : Bytes) : (c.emit data).served = c.served := by
      rw [served, emit_frame]
      rfl
    rcases submit_cases name args l c with ⟨e, -, hs, -⟩ | ⟨data, e, -, -, hs, -⟩ |
      ⟨data, verb, -, -, hs, -⟩
    · -- the command is refused
      rw [step, hs]
    · -- a new command that nobody listens to waits as any other
      rw [step, hs, served_enlist, he]
    · -- a new command waits, whatever its timeout does to it
      rw [step, hs, (quiet_startTimeout _ _).served_eq]
      exact (served_enlist (nextRole verb (c.emit data)) (some l) (c.emit data)).trans (he data)
  | giveUp t => exact .inr (.inl (quiet_giveUp t c).served_eq)
  | abandon t => exact .inr (.inl (quiet_settle t .cancelled c).served_eq)
  | expire t => exact .inr (.inl (quiet_expire t c).served_eq)
  | deliver piece => exact .inl ⟨piece, rfl⟩
  | follow => exact .inr (.inl (quiet_followNext c).served_eq)
  | enterBuffer => exact .inr (.inl rfl)
  | leaveBuffer =>
    rw [step, leaveBuffer_frame]
    exact .inr (.inl rfl)
  | close =>
    rw [step, close_frame]
    exact .inr (.inl rfl)
  | drop x =>
    -- all commands that wait are answered at once
    refine .inr (.inr ⟨rfl, ?_⟩)
    have hl : (c.drop x).exchanges.length = c.exchanges.length :=
      (step_outside c (.drop x)).length_eq
    have hw : (c.drop x).waiting = [] := by
      obtain ⟨x', hx⟩ := drop_frame x c
      rw [hx, failWaiting_frame]
      exact List.drop_length
    rw [step, served, served, hl, hw]
    exact Nat.sub_le_sub_left (Nat.zero_le _) _

/-- The replies of a run so far and the commands that have been answered keep step: as long as the
transport is there, they are as many; each reply is in the place of its number, unless that place
was given up; and that happened before the reply came. -/
structure InStep (c₀ : Connection Listener) (es : List (Event Listener)) : Prop where
  le_served : (replies es).length ≤ (c₀.run es).served
  served_eq : (c₀.run es).attached = true → (c₀.run es).served = (replies es).length
  held : ∀ (t : Ticket) (r : Reply), (replies es)[t]? = some r →
    (c₀.run es).answer? t = some r.outcome ∨ (c₀.run es).answer? t = some .cancelled
  given : ∀ t, (c₀.run es).answer? t = some .cancelled → GivenUpBefore c₀ es t

namespace InStep

variable {address : Value × Value} {timeout : Timeout} {es : List (Event Listener)}

/-- A place that is given up is that of a command whose reply has not come. -/
theorem given_snoc (h : InStep (.start address timeout) es) (e : Event Listener) (t : Ticket)
    (ht : ((Connection.start address timeout).run (es ++ [e])).answer? t = some .cancelled) :
    GivenUpBefore (.start address timeout) (es ++ [e]) t := by
  rw [Connection.run_append] at ht
  rcases (sound_run address timeout es).order.cancelled_step ht with hc | ⟨hle, o, hg⟩
  · exact (h.given t hc).snoc e
  · exact ⟨es, e, o, List.prefix_refl _, hg, Nat.le_trans h.le_served hle⟩

/-- An event that brings no bytes. -/
theorem snoc_of_piece (h : InStep (.start address timeout) es) {e : Event Listener}
    (he : ∀ piece, e ≠ .deliver piece) (hp : e.piece = []) :
    InStep (.start address timeout) (es ++ [e]) := by
  have hr := replies_snoc_of_piece es hp
  have hs := (((Connection.start address timeout).run es).served_step e).resolve_left
    fun ⟨piece, hpiece⟩ => he piece hpiece
  have hrun := Connection.run_append (.start address timeout) es [e]
  -- no reply has come, and the next place is the same one, unless the transport was lost
  refine ⟨?le_served, ?served_eq, ?held, h.given_snoc e⟩
  case le_served =>
    rw [hr, hrun]
    rcases hs with hs | ⟨-, hs⟩
    · exact Nat.le_trans h.le_served (Nat.le_of_eq hs.symm)
    · exact Nat.le_trans h.le_served hs
  case served_eq =>
    intro hl
    rw [hrun] at hl
    rw [hr, hrun]
    rcases hs with hs | ⟨hd, -⟩
    · exact hs.trans (h.served_eq (Connection.attached_of_step hl))
    · cases hl.symm.trans hd
  case held =>
    intro t r ht
    rw [hr] at ht
    rw [hrun]
    exact (h.held t r ht).imp (fun ha => Connection.answer?_run ha [e])
      fun ha => Connection.answer?_run ha [e]

/-- Bytes that the server may send: their replies go into the first places without an answer. -/
theorem snoc_deliver (h : InStep (.start address timeout) es) {piece : Bytes}
    (hp : Event.Permitted (.start address timeout) es (.deliver piece)) :
    InStep (Connection.start address timeout : Connection Listener) (es ++ [.deliver piece]) := by
  have hi := (sound_run address timeout es).order
  have hrun := Connection.run_append (.start address timeout) es [.deliver piece]
  have hreplies := replies_snoc_deliver address timeout es piece
  have hsent := length_requests address timeout es
  obtain ⟨hl, hle⟩ := hp
  have hserved := h.served_eq hl
  have hgiven := h.given_snoc (.deliver piece)
  set c := (Connection.start address timeout).run es with hc
  set rs := (c.reader.feed piece).1 with hrs
  -- there are no more replies than commands that wait
  have hfew : rs.length ≤ c.waiting.length := by
    have := hi.length_le
    rw [hreplies, List.length_append, hsent] at hle
    rw [← hserved, Connection.served] at hle
    omega
  obtain ⟨hspec, hanswer⟩ := hi.deliver_spec hfew
  have hnum : (c.run [.deliver piece]).served = (replies (es ++ [.deliver piece])).length := by
    rw [hreplies, List.length_append, ← hserved]
    exact hspec
  refine ⟨hrun ▸ Nat.le_of_eq hnum.symm, fun _ => hrun ▸ hnum, ?held, hgiven⟩
  case held =>
    intro t r ht
    rw [hrun]
    rw [hreplies] at ht
    rcases Nat.lt_or_ge t (replies es).length with hlt | hge
    · -- a reply of an earlier piece
      rw [List.getElem?_append_left hlt] at ht
      exact (h.held t r ht).imp (fun ha => Connection.answer?_run ha [.deliver piece])
        fun ha => Connection.answer?_run ha [.deliver piece]
    · -- a reply of this piece goes into the place of its number
      rw [List.getElem?_append_right hge, ← hserved] at ht
      rw [Connection.run_cons, Connection.run_nil, Connection.step, hanswer, ← hrs, ht]
      cases ha : c.answer? t with
      | none => exact .inl rfl
      | some a =>
        -- an answer behind those that were served is that the place was given up
        have hw : t ∈ c.waiting :=
          hi.mem_waiting.2 ⟨hserved ▸ hge, Connection.lt_of_answer? ha⟩
        rw [hi.vacant t hw a ha]
        exact .inr rfl

/-- The place of a command that nobody gave up holds its reply. -/
theorem answer?_of_reply {c₀ : Connection Listener} (h : InStep c₀ es) {t : Ticket} {r : Reply}
    (ht : (replies es)[t]? = some r) (hg : ∀ o, ¬ GivenUp c₀ es t o) :
    (c₀.run es).answer? t = some r.outcome := by
  refine (h.held t r ht).resolve_right fun hc => ?_
  obtain ⟨o, ho⟩ := (h.given t hc).givenUp
  exact hg o ho

/-- As long as the transport is there, the place of a command whose reply has not come is open, or
was given up. -/
theorem vacant (h : InStep (.start address timeout) es)
    (hl : ((Connection.start address timeout : Connection Listener).run es).attached = true)
    {t : Ticket} (ht : (replies es).length ≤ t) {o : Outcome}
    (ha : ((Connection.start address timeout : Connection Listener).run es).answer? t = some o) :
    o = .cancelled ∧ GivenUpBefore (.start address timeout : Connection Listener) es t := by
  have hi := (sound_run address timeout es).order
  have hw := hi.mem_waiting.2 ⟨(h.served_eq hl).symm ▸ ht, Connection.lt_of_answer? ha⟩
  obtain rfl := hi.vacant t hw o ha
  exact ⟨rfl, h.given t ha⟩

end InStep

/-- The replies and the commands of an orderly run keep step. -/
theorem inStep_run (address : Value × Value) (timeout : Timeout) {es : List (Event Listener)}
    (h : Orderly (.start address timeout) es) : InStep (.start address timeout) es := by
  induction es using List.reverseRec with
  | nil =>
    refine ⟨Nat.le_of_eq (by rw [replies_nil]; rfl), fun _ => by rw [replies_nil]; rfl, ?_, ?_⟩
    · intro t r ht
      rw [replies_nil] at ht
      cases ht
    · intro t ht
      simp [Connection.answer?, Connection.start] at ht
  | append_singleton es e ih =>
    obtain ⟨ho, hp⟩ := orderly_snoc.1 h
    -- only bytes bring replies, and those are permitted
    cases e with
    | deliver piece => exact (ih ho).snoc_deliver hp
    | submit | giveUp | abandon | expire | follow | enterBuffer | leaveBuffer | close | drop =>
      exact (ih ho).snoc_of_piece (by simp) rfl

/-! ## Matching -/

/-- The replies of a run and its commands, number by number. -/
structure Matched (c₀ : Connection Listener) (es : List (Event Listener)) : Prop where
  /-- The ticket of a command is its number. -/
  length_eq : (c₀.run es).exchanges.length = (requests c₀ es).length
  /-- The commands are on the wire in the order of their numbers. -/
  onWire : OnWire c₀ es
  /-- There are no more replies than commands. -/
  length_le : (replies es).length ≤ (requests c₀ es).length
  /-- The reply of a number goes into the place of that number, or the place was given up before
  and takes it in. -/
  answer : ∀ (t : Ticket) (r : Reply), (replies es)[t]? = some r →
    (c₀.run es).answer? t = some r.outcome ∨
      (c₀.run es).answer? t = some .cancelled ∧ GivenUpBefore c₀ es t
  /-- A command that is none of a transaction and that nobody gave up has ended with its reply,
  once nothing is due from it. -/
  outcome : ∀ (t : Ticket) (r : Reply), (replies es)[t]? = some r →
    (c₀.run es).role? t ≠ some .queued → .answered t r.outcome ∉ (c₀.run es).due →
      (∀ o, ¬ GivenUp c₀ es t o) → (c₀.run es).outcome? t = some r.outcome
  /-- As long as the transport is there, the commands whose reply has not come wait, in the order
  of their numbers. -/
  waiting : (c₀.run es).attached = true →
    (c₀.run es).waiting =
      List.range' (replies es).length ((requests c₀ es).length - (replies es).length)
  /-- As long as the transport is there, their places are open, or were given up. -/
  vacant : (c₀.run es).attached = true → ∀ t ≥ (replies es).length,
    (c₀.run es).answer? t = none ∨
      (c₀.run es).answer? t = some .cancelled ∧ GivenUpBefore c₀ es t
  /-- No command is given a second answer. -/
  sane : ∀ t, .answeredTwice t ∉ (c₀.run es).log

/-- In a run in which the server answers no more commands than there were, and blocks of gathered
commands lie apart, the reply of each number goes to the command of that number. -/
theorem matched_run (address : Value × Value) (timeout : Timeout) (es : List (Event Listener))
    (h : Orderly (.start address timeout) es) : Matched (.start address timeout) es := by
  have hs := sound_run address timeout es
  have hn := inStep_run address timeout h
  have hlen := length_requests address timeout es
  have hle : (replies es).length ≤ (requests (.start address timeout) es).length := by
    rw [hlen]
    exact Nat.le_trans hn.le_served (Nat.sub_le _ _)
  refine ⟨hlen.symm, onWire_run address timeout h, hle, ?answer, ?outcome, ?waiting, ?vacant,
    hs.order.sane⟩
  case answer =>
    intro t r ht
    exact (hn.held t r ht).imp_right fun hc => ⟨hc, hn.given t hc⟩
  case outcome =>
    intro t r ht hr hd hg
    exact hs.outcome?_of_own hr (hn.answer?_of_reply ht hg) hd hg
  case waiting =>
    intro hl
    -- the commands that wait are the last ones, as many as there are without a reply
    have hw := hs.order.waiting_eq
    have hll := hs.order.length_le
    have hcount : ((Connection.start address timeout : Connection Listener).run es).waiting.length =
        (requests (.start address timeout) es).length - (replies es).length := by
      rw [← hn.served_eq hl, hlen, Connection.served]
      omega
    rwa [hn.served_eq hl, hcount] at hw
  case vacant =>
    intro hl t ht
    cases ha : ((Connection.start address timeout : Connection Listener).run es).answer? t with
    | none => exact .inl rfl
    | some o =>
      obtain ⟨rfl, hg⟩ := hn.vacant hl ht ha
      exact .inr ⟨rfl, hg⟩

/-- Three commands, two of them gathered; the second one is given up before the replies come, and
these come in pieces. -/
def piecemeal : List (Event Unit) :=
  [.submit (.text (.ofString "PING")) [] (), .enterBuffer,
    .submit (.text (.ofString "ZCARD")) [.text (.ofString "k")] (),
    .submit (.text (.ofString "PING")) [] (), .leaveBuffer, .giveUp 1,
    .deliver (Bytes.ascii "+PONG\r\n:"), .follow, .deliver (Bytes.ascii "3\r\n+PO"), .follow,
    .deliver (Bytes.ascii "NG\r\n")]

/-- All three replies come, and each goes to the command of its number. -/
theorem matched_run_piecemeal :
    Orderly (.start (.none, .none) .none) piecemeal ∧ (replies piecemeal).length = 3 ∧
      Matched (.start (.none, .none) .none) piecemeal := by
  have h : Orderly (.start (.none, .none) .none) piecemeal := by decide +kernel
  exact ⟨h, by decide +kernel, matched_run (.none, .none) .none piecemeal h⟩

end SortedSets

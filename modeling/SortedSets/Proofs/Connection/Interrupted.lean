import SortedSets.Proofs.Connection.Block
import SortedSets.Proofs.Connection.Closed
import SortedSets.Proofs.Connection.Refused

/-!
# Transactions interrupted by the loss of the transport

The transport may be lost while a transaction is open. Its commands then fail in one of two ways.
One that the server has acknowledged waits for a slot that will never come, and fails as a command
of the transaction. One that still waits for its acknowledgement fails like any other command that
waits: with the error of the transport, or else with the reason of the last close, which may be a
fault in the stream.

## Main definitions

* `Event.reason?`, `reasons`: why the transport is told to close
* `Connection.interruption`: the error of a command whose transaction is interrupted
* `Interrupted`: a command that was refused, or was failed by the loss, until nothing is due

## Main results

* `Connection.cause_run`: the last reason is remembered
* `InOrder.answer?_drop`: the loss answers every command that waits
* `Interrupted.step`: what has happened to the command itself comes before the loss takes effect
* `queue_after_loss`: what the commands of an open transaction end with
-/

namespace SortedSets

variable {Listener : Type}

/-! ## Why the transport is closed -/

/-- The reason for which an event tells the transport to close, if it does. -/
def Event.reason? (c : Connection Listener) : Event Listener → Option Error
  | .close => if c.closing then none else some (.closed .forced)
  | .deliver piece => (c.reader.feed piece).2.fault.map Error.protocol
  | _ => none

/-- The reasons for which the transport is told to close in a run, in order. -/
def reasons (c : Connection Listener) : List (Event Listener) → List Error
  | [] => []
  | e :: es => (e.reason? c).toList ++ reasons (c.step e) es

namespace Connection

theorem cause_deliver (piece : Bytes) (c : Connection Listener) :
    (c.deliver piece).cause = ((c.reader.feed piece).2.fault.map Error.protocol <|> c.cause) := by
  unfold deliver
  dsimp only
  split
  · next f hf =>
    rw [hf]
    rfl
  · next hf =>
    rw [hf, assign_frame]
    rfl

/-- An event that gives a reason leaves it behind, and any other leaves the one before. -/
theorem cause_step (e : Event Listener) (c : Connection Listener) :
    (c.step e).cause = (e.reason? c <|> c.cause) := by
  cases e with
  | close =>
    rw [step, close, Event.reason?]
    split <;> rfl
  | deliver piece => exact cause_deliver piece c
  | drop e =>
    obtain ⟨e', he⟩ := drop_frame e c
    rw [step, he, failWaiting_frame]
    rfl
  | submit | giveUp | abandon | expire | follow | enterBuffer | leaveBuffer =>
    rw [step_frame rfl (by simp) c]
    rfl

/-- The last reason of a run is remembered. -/
theorem cause_run (c : Connection Listener) (es : List (Event Listener)) :
    (c.run es).cause = ((reasons c es).getLast? <|> c.cause) := by
  induction es generalizing c with
  | nil => rfl
  | cons e es ih =>
    rw [run_cons, ih, cause_step, reasons]
    cases e.reason? c with
    | none => rfl
    | some x =>
      -- a later reason stands behind the one of the event
      cases hr : (reasons (c.step e) es).getLast? <;> simp [List.getLast?_cons, hr]

theorem cause_run_start (address : Value × Value) (timeout : Timeout)
    (es : List (Event Listener)) :
    ((start address timeout).run es).cause = (reasons (start address timeout) es).getLast? := by
  rw [cause_run]
  cases (reasons (start address timeout) es).getLast? <;> rfl

end Connection

/-! ## Commands that wait when the transport is lost -/

namespace InOrder

variable {c : Connection Listener}

/-- Failures, no more than there are commands that wait, go into the first places without an
answer. -/
theorem answer?_failWaiting (h : InOrder c) (e : Error) {n : Nat} (hn : n ≤ c.waiting.length)
    (s : Ticket) :
    (c.failWaiting e n).answer? s =
      (c.answer? s <|> if c.served ≤ s ∧ s < c.served + n then some (.failed e) else none) := by
  -- Induction on the failures; the first of them goes into the place of number `c.served`.
  induction n generalizing c with
  | zero =>
    rw [Connection.failWaiting, if_neg (by grind)]
    cases c.answer? s <;> rfl
  | succ n ih =>
    have hw : c.waiting ≠ [] := by
      rintro hw
      rw [hw] at hn
      cases hn
    have hn' : n ≤ (c.answerNext (.failed e)).waiting.length := by
      rw [Connection.waiting_answerNext, List.length_tail]
      omega
    rw [Connection.failWaiting, ih (h.answerNext _) hn', h.answer?_answerNext hw,
      h.served_answerNext hw]
    by_cases hs : s = c.served
    · -- the place of the first failure
      have hfirst : c.served ≤ s ∧ s < c.served + (n + 1) := by grind
      have hrest : ¬ (c.served + 1 ≤ s ∧ s < c.served + 1 + n) := by grind
      rw [if_pos hs, if_pos hfirst, if_neg hrest]
      cases c.answer? s <;> rfl
    · have hrest : (c.served + 1 ≤ s ∧ s < c.served + 1 + n) =
          (c.served ≤ s ∧ s < c.served + (n + 1)) := by grind
      rw [if_neg hs]
      simp only [hrest]

/-- The loss of the transport answers every command that waits. -/
theorem answer?_drop (h : InOrder c) (e : Option Error) {s : Ticket}
    (hs : s < c.exchanges.length) :
    (c.drop e).answer? s =
      (c.answer? s <|> some (.failed ((e <|> c.cause).getD (.closed .byServer)))) := by
  refine (h.answer?_failWaiting ((e <|> c.cause).getD (.closed .byServer))
    (Nat.le_refl c.waiting.length) s).trans ?_
  have hl := h.length_le
  by_cases hw : c.served ≤ s
  · have hs' : s < c.served + c.waiting.length := by
      rw [Connection.served]
      grind
    rw [if_pos ⟨hw, hs'⟩]
  · -- a command in front of those that wait has its answer
    obtain ⟨a, ha⟩ := Option.ne_none_iff_exists'.1 (h.answered s (Nat.not_le.1 hw))
    rw [ha]
    rfl

end InOrder

namespace Connection

variable {c : Connection Listener}

/-- Only the loss of the transport makes its consequence due. -/
theorem lost_notMem_failWaiting (e : Error) (n : Nat) (h : .lost ∉ c.due) :
    .lost ∉ (c.failWaiting e n).due :=
  failWaiting_induction (P := fun c => .lost ∉ c.due) (fun _ h => lost_notMem_answerNext h _) n h

theorem roles_drop (e : Option Error) (c : Connection Listener) : (c.drop e).roles = c.roles := by
  obtain ⟨e', he⟩ := drop_frame e c
  rw [he]
  exact failWaiting_induction (P := fun d => d.roles = c.roles)
    (fun d h => (roles_answerNext _ d).trans h) _ rfl

/-- Of what is due after the loss of the transport, its own consequence comes last. -/
theorem lost_notMem_drop (e : Option Error) (h : .lost ∉ c.due) :
    .lost ∉ (c.drop e).due.dropLast := by
  have hf := lost_notMem_failWaiting ((e <|> c.cause).getD (.closed .byServer))
    c.waiting.length h
  rw [drop]
  split
  · simpa using hf
  · exact fun hm => hf (List.dropLast_subset _ hm)

/-- A closed connection takes no new command. -/
theorem roles_run_of_isClosed (h : c.isClosed = true) (es : List (Event Listener)) :
    (c.run es).roles = c.roles := by
  have hl : (c.run es).roles.length = c.roles.length := by
    rw [roles, roles, List.length_map, List.length_map, (unsent_run h es).length_eq]
  refine List.ext_getElem hl fun t ht ht' => ?_
  rw [← Option.some_inj, ← List.getElem?_eq_getElem ht, ← List.getElem?_eq_getElem ht',
    getElem?_roles, getElem?_roles]
  obtain ⟨r, hr⟩ := exists_role? (c := c) (t := t) (by simpa [roles] using ht')
  rw [hr, role?_run hr es]

/-- The loss of the transport and what follows it end no transaction. -/
theorem ended_run_drop (e : Option Error) (c : Connection Listener) (es : List (Event Listener)) :
    ((c.drop e).run es).ended = c.ended := by
  have hc : (c.drop e).isClosed = true := by simp [isClosed, drop]
  rw [ended, roles_run_of_isClosed hc, roles_drop, ended]

/-- Bytes that arrive when no command waits change no exchange. -/
theorem deliver_of_waiting_nil (h : c.waiting = []) (piece : Bytes) :
    (c.deliver piece).exchanges = c.exchanges ∧ (c.deliver piece).due = c.due := by
  have ha : ∀ rs : List Wire.Reply, ∀ d : Connection Listener, d.waiting = [] →
      (d.assign rs).exchanges = d.exchanges ∧ (d.assign rs).due = d.due := by
    intro rs d hd
    refine (assign_induction (P := fun d' => d'.waiting = [] ∧ d'.exchanges = d.exchanges ∧
      d'.due = d.due) (fun _ _ h => h) (fun d' r h => ?_) rs ⟨hd, rfl, rfl⟩).2
    rw [answerNext_nil h.1]
    exact h
  rw [deliver_frame]
  exact ha _ { c with reader := (c.reader.feed piece).2 } h

/-- What many outcomes leave was there before, or is one of them. -/
theorem eq_of_outcome?_settleAll {t : Ticket} {o : Outcome} {ps : List (Ticket × Outcome)}
    (h : (c.settleAll ps).1.outcome? t = some o) :
    c.outcome? t = some o ∨ c.outcome? t = none ∧ (t, o) ∈ ps := by
  induction ps generalizing c with
  | nil => exact .inl h
  | cons p ps ih =>
    rcases ih h with h | ⟨hn, hm⟩
    · refine (eq_of_outcome?_settle h).imp id fun ⟨hn, ht, ho⟩ => ⟨hn, ?_⟩
      rw [ht, ho]
      exact List.mem_cons_self
    · refine .inr ⟨?_, List.mem_cons_of_mem p hm⟩
      by_contra hc
      exact outcome?_settle_ne_none hc p.1 p.2 hn

end Connection

/-- A command of the open transaction is none of an ended one. -/
theorem Queues.notMem_ended {c : Connection Listener} (h : Queues c) {t : Ticket}
    (ht : t ∈ c.transaction.getD []) : t ∉ c.ended := by
  intro hm
  obtain ⟨e, discards, queue, he, htq⟩ := Connection.mem_ended.1 hm
  exact h.notMem_transaction he htq ht

/-! ## What follows the loss -/

/-- After the loss of the transport, a command of the transaction that it interrupted, whose own
answer is a failure. The command ends with this failure, since it takes effect before the loss
does. -/
structure Interrupted (given : Ticket → Outcome → Prop) (t : Ticket) (x : Error)
    (c : Connection Listener) : Prop where
  lost : c.attached = false
  last : .lost ∉ c.due.dropLast
  role : c.role? t = some .queued
  notMem : t ∉ c.ended
  answer : c.answer? t = some (.failed x)
  outcome : ∀ o, c.outcome? t = some o → given t o ∨ o = .failed x

namespace Sound

variable {given : Ticket → Outcome → Prop} {c : Connection Listener} {t : Ticket}

/-- The outcome of a command of no ended transaction is that of its caller, its own failure, or the
failure of the transaction. -/
theorem cause_of_notMem_ended (h : Sound given c) (hr : c.role? t = some .queued)
    (hm : t ∉ c.ended) {o : Outcome} (ho : c.outcome? t = some o) :
    given t o ∨ (∃ x, o = .failed x ∧ c.answer? t = some o) ∨
      c.attached = false ∧ o = .failed (.closed .insideTransaction) := by
  rcases h.course.justified t o ho with hg | ⟨s, a, hs, hp, -⟩ | ⟨hl, -, -, rfl⟩
  · exact .inl hg
  · obtain ⟨r, hrs⟩ := Connection.exists_role? (Connection.lt_of_answer? hs)
    rw [Connection.settlements_eq hrs] at hp
    rcases Role.mem_settlements hp with heq | ⟨discards, queue, rfl, hslot⟩
    · -- its own answer, which settles it only if it is a failure
      obtain ⟨rfl, rfl⟩ := Prod.mk.inj heq
      obtain rfl : r = .queued := Option.some.inj (hrs.symm.trans hr)
      cases o with
      | failed x => exact .inr (.inl ⟨x, rfl, hs⟩)
      | reply r => exact absurd hp List.not_mem_nil
      | cancelled => exact absurd hr (h.course.vacated t hs).1
    · exact absurd (Connection.mem_ended.2
        ⟨s, discards, queue, hrs, fst_mem_of_mem_slotOutcomes hslot⟩) hm
  · exact .inr (.inr ⟨hl, rfl⟩)

/-- After the loss of the transport no place can be given up any more. -/
theorem vacate_of_lost (h : Sound given c) (hl : c.attached = false) {d : Connection Listener}
    {s : Ticket} (ha : d.answer? s = c.answer? s)
    (hd : d.exchanges.length = c.exchanges.length) : d.vacate s = d := by
  by_cases hs : s < c.exchanges.length
  · obtain ⟨o, ho⟩ := h.answered_of_lost hl hs
    exact Connection.vacate_eq_self (ha.trans ho)
  · exact Connection.vacate_eq_self_of_le (hd ▸ Nat.not_lt.1 hs)

/-- Once nothing is due, every command of the interrupted transaction has an outcome. -/
theorem outcome?_ne_none_of_lost (h : Sound given c) (hl : c.attached = false) (hd : c.due = [])
    (hr : c.role? t = some .queued) (hm : t ∉ c.ended) : c.outcome? t ≠ none := by
  have htr : c.transaction = none := (h.course.lost hl).2.resolve_left (by simp [hd])
  refine h.course.left t hr ?_
  rwa [Connection.queues, htr, Option.getD_none, List.append_nil]

end Sound

namespace Interrupted

variable {given : Ticket → Outcome → Prop} {c d : Connection Listener} {t : Ticket} {x : Error}

theorem mono {given' : Ticket → Outcome → Prop} (h : Interrupted given t x c)
    (hg : ∀ o, given t o → given' t o) : Interrupted given' t x c :=
  ⟨h.lost, h.last, h.role, h.notMem, h.answer, fun o ho => (h.outcome o ho).imp_left (hg o)⟩

/-- Whatever happens, roles and answers stay; what is due and the outcome remain to be looked
at. -/
theorem of_step (h : Interrupted given t x c) (e : Event Listener)
    (hlast : .lost ∉ (c.step e).due.dropLast)
    (ho : ∀ o, (c.step e).outcome? t = some o → given t o ∨ o = .failed x) :
    Interrupted given t x (c.step e) := by
  have hc : c.isClosed = true := by simp [Connection.isClosed, h.lost]
  have hl : (c.step e).attached = false :=
    Bool.eq_false_iff.2 fun ht => Bool.eq_false_iff.1 h.lost (Connection.attached_of_step ht)
  refine ⟨hl, hlast, Connection.role?_run h.role [e], ?_, Connection.answer?_run h.answer [e], ho⟩
  have hroles := Connection.roles_run_of_isClosed hc [e]
  rw [Connection.run_cons, Connection.run_nil] at hroles
  rw [Connection.ended, hroles]
  exact h.notMem

/-- An event that leaves what is due and the outcomes alone, or gives an outcome to a command. -/
theorem settle (h : Interrupted given t x c) {e : Event Listener} {s : Ticket} {o : Outcome}
    (he : c.step e = (c.settle s o).1) (hg : s = t → t < c.exchanges.length → given t o) :
    Interrupted given t x (c.step e) := by
  refine h.of_step e ?_ fun a ha => ?_
  · rw [he]
    exact h.last
  · rw [he] at ha
    rcases Connection.eq_of_outcome?_settle ha with ha | ⟨-, hs, rfl⟩
    · exact h.outcome a ha
    · exact .inl (hg hs.symm (Connection.lt_of_role? h.role))

theorem follow (h : Interrupted given t x c) (hs : Sound given c) :
    Interrupted given t x (c.step .follow) := by
  refine h.of_step .follow ?_ fun o ho => ?_
  · rw [Connection.step, Connection.due_followNext, ← List.tail_dropLast]
    exact fun hm => h.last (List.mem_of_mem_tail hm)
  · rw [Connection.step] at ho
    rcases Connection.followNext_cases c with ⟨-, he⟩ | ⟨s, a, ds, hd, he⟩ | ⟨ds, hd, he⟩
    · exact h.outcome o (he ▸ ho)
    · -- only its own answer settles the command
      rw [he] at ho
      rcases Connection.eq_of_outcome?_settleAll (c := c) ho with ho | ⟨-, hm⟩
      · exact h.outcome o ho
      · have ha := hs.course.answered_of_due s a (hd ▸ List.mem_cons_self)
        obtain ⟨r, hr⟩ := Connection.exists_role? (Connection.lt_of_answer? ha)
        rw [Connection.settlements_eq hr] at hm
        rcases Role.mem_settlements hm with heq | ⟨discards, queue, rfl, hslot⟩
        · obtain ⟨rfl, rfl⟩ := Prod.mk.inj heq
          exact .inr (Option.some.inj (ha.symm.trans h.answer))
        · exact absurd (Connection.mem_ended.2
            ⟨s, discards, queue, hr, fst_mem_of_mem_slotOutcomes hslot⟩) h.notMem
    · -- the loss takes effect last, so that the own answer has settled the command before
      have hds : ds = [] := by
        by_contra hne
        refine h.last ?_
        rw [hd, List.dropLast_cons_of_ne_nil hne]
        exact List.mem_cons_self
      have hown : (t, .failed x) ∈ c.settlements t (.failed x) := by
        rw [Connection.settlements_eq h.role]
        exact List.mem_singleton_self _
      obtain ⟨a, ha⟩ := Option.ne_none_iff_exists'.1
        (hs.outcome?_ne_none h.answer (by simp [hd, hds]) hown)
      rw [he] at ho
      have hkept := Connection.outcome?_settleAll_of_some
        ((c.transaction.getD []).map fun t => (t, .failed (.closed .insideTransaction))) ha
      obtain rfl : a = o := Option.some.inj (hkept.symm.trans ho)
      exact h.outcome a ha

/-- Whatever happens after the loss, the command ends as its caller gives it up or with its own
failure. -/
theorem step (h : Interrupted given t x c) (hs : Sound given c) (e : Event Listener)
    (hg : ∀ o, e.GivesUp c t o → given t o) : Interrupted given t x (c.step e) := by
  have hsame (hx : (c.step e).exchanges = c.exchanges) (hd : (c.step e).due = c.due) :
      Interrupted given t x (c.step e) := by
    refine h.of_step e (by rw [hd]; exact h.last) fun o ho => h.outcome o ?_
    rwa [Connection.outcome?, hx] at ho
  have hw : c.waiting = [] := (hs.course.lost h.lost).1
  cases e with
  | submit name args l =>
    rcases c.submit_cases name args l with ⟨e, -, he, -⟩ | ⟨data, e, hd, -⟩ | ⟨data, verb, hd, -⟩
    · exact hsame (by rw [Connection.step, he]) (by rw [Connection.step, he])
    -- nothing is sent any more
    · exact absurd (Connection.attached_of_requestOf hd) (by simp [h.lost])
    · exact absurd (Connection.attached_of_requestOf hd) (by simp [h.lost])
  | giveUp s =>
    rcases c.giveUp_cases s with ⟨he, -⟩ | ⟨-, -, he⟩ | ⟨-, -, he⟩
    · exact hsame (by rw [Connection.step, he]) (by rw [Connection.step, he])
    · exact h.settle he fun hst ht => hg _ ⟨hst, ht, rfl⟩
    · rw [hs.vacate_of_lost h.lost rfl rfl] at he
      exact hsame (by rw [Connection.step, he]) (by rw [Connection.step, he])
  | abandon s => exact h.settle rfl fun hst ht => hg _ ⟨hst, ht, rfl⟩
  | expire s =>
    rcases c.expire_cases s with ⟨he, -⟩ | ⟨-, -, he⟩ | ⟨-, -, he⟩
    · exact hsame (by rw [Connection.step, he]) (by rw [Connection.step, he])
    · exact h.settle he fun hst ht => hg _ ⟨hst, ht, rfl⟩
    · rw [hs.vacate_of_lost h.lost (Connection.answer?_settle ..)
        (Connection.length_exchanges_settle ..)] at he
      exact h.settle he fun hst ht => hg _ ⟨hst, ht, rfl⟩
  | deliver piece =>
    obtain ⟨hx, hd⟩ := Connection.deliver_of_waiting_nil hw piece
    exact hsame hx hd
  | follow => exact h.follow hs
  | enterBuffer => exact hsame rfl rfl
  | leaveBuffer =>
    have hf := c.leaveBuffer_frame
    exact hsame (by rw [Connection.step, hf]) (by rw [Connection.step, hf])
  | close =>
    have hf := c.close_frame
    exact hsame (by rw [Connection.step, hf]) (by rw [Connection.step, hf])
  | drop e =>
    -- a transport is lost once
    exact hsame (by simp [Connection.step, Connection.drop, Connection.failWaiting, hw])
      (by simp [Connection.step, Connection.drop, Connection.failWaiting, hw, h.lost])

end Interrupted

/-! ## The whole queue -/

namespace Connection

/-- The error of a command of the open transaction when the transport is lost, and `reason` is the
failure of the commands that wait: its own refusal, or that of the transaction if the server has
acknowledged it. -/
def interruption (c : Connection Listener) (reason : Error) (t : Ticket) : Error :=
  match c.answer? t with
  | none => reason
  | some (.failed x) => x
  | some _ => .closed .insideTransaction

theorem Acknowledged.interruption_eq {c : Connection Listener} {t : Ticket}
    (h : c.Acknowledged t) (reason : Error) :
    c.interruption reason t = .closed .insideTransaction := by
  obtain ⟨r, hr⟩ := h
  rw [interruption, hr]

theorem interruption_of_unanswered {c : Connection Listener} {t : Ticket}
    (h : c.answer? t = none) (reason : Error) : c.interruption reason t = reason := by
  rw [interruption, h]

end Connection

/-- The first loss of the transport interrupts each command of the open transaction that was not
acknowledged. -/
theorem Sound.interrupted {given : Ticket → Outcome → Prop} {c : Connection Listener} {t : Ticket}
    (h : Sound given c) (hl : c.attached = true) (ht : t ∈ c.transaction.getD [])
    (hk : ¬ c.Acknowledged t) (e : Option Error) :
    Interrupted given t (c.interruption ((e <|> c.cause).getD (.closed .byServer)) t)
      (c.drop e) := by
  have hr : c.role? t = some .queued := h.queues.queued t (List.mem_append_right _ ht)
  have hm : t ∉ c.ended := h.queues.notMem_ended ht
  have ha := h.order.answer?_drop e (Connection.lt_of_role? hr)
  refine ⟨rfl, Connection.lost_notMem_drop e ?_, Connection.role?_run hr [.drop e],
    Connection.ended_run_drop e c [] ▸ hm, ?_, fun o ho => ?_⟩
  · intro hlost
    exact absurd (h.course.lost_of_due hlost) (by simp [hl])
  · rw [ha, Connection.interruption]
    cases hac : c.answer? t with
    | none => rfl
    | some a =>
      cases a with
      | failed x => rfl
      | reply r => exact absurd ⟨r, hac⟩ hk
      | cancelled => exact absurd hr (h.course.vacated t hac).1
  · rw [(Connection.ends_drop e c).kept t List.not_mem_nil] at ho
    rcases h.cause_of_notMem_ended hr hm ho with hg | ⟨x, rfl, hx⟩ | ⟨hf, -⟩
    · exact .inl hg
    · -- the command was refused, and knows it
      right
      rw [Connection.interruption, hx]
    · exact absurd hf (by simp [hl])

/-- The interruption of a command lasts, whatever happens after the loss. -/
theorem interrupted_run (address : Value × Value) (timeout : Timeout)
    {before : List (Event Listener)} {t : Ticket} {e : Option Error}
    (hl : ((Connection.start address timeout).run before).attached = true)
    (ht : t ∈ ((Connection.start address timeout).run before).transaction.getD [])
    (hk : ¬ ((Connection.start address timeout).run before).Acknowledged t)
    (after : List (Event Listener)) :
    let c := (Connection.start address timeout).run before
    Interrupted (GivenUp (.start address timeout) (before ++ .drop e :: after)) t
      (c.interruption ((e <|> c.cause).getD (.closed .byServer)) t)
      ((Connection.start address timeout).run (before ++ .drop e :: after)) := by
  intro c
  induction after using List.reverseRec with
  | nil =>
    have h := (sound_run address timeout before).mono
      fun t o hg => givenUp_snoc.2 (.inl hg : GivenUp _ before t o ∨ Event.GivesUp _ t o (.drop e))
    rw [Connection.run_append]
    exact h.interrupted hl ht hk e
  | append_singleton after x ih =>
    have hs := sound_run address timeout (before ++ .drop e :: after)
    rw [← List.cons_append, ← List.append_assoc, Connection.run_append]
    -- who gave up so far are those before and those who give up in the last event
    refine (ih.mono fun o h => givenUp_snoc.2 (.inl h)).step
      (hs.mono fun t o h => givenUp_snoc.2 (.inl h)) x fun o h => ?_
    exact givenUp_snoc.2 (.inr h)

/-- The transport is lost while a transaction is open, and all that is due follows. No transaction
is open then and no command waits, and every command of the transaction has an outcome: that with
which its caller gave it up; or a failure, which is its own refusal, the end of the transaction if
the server had acknowledged the command, and else the error of the transport or the last reason for
which the transport was told to close. -/
theorem queue_after_loss (address : Value × Value) (timeout : Timeout)
    (before after : List (Event Listener)) (e : Option Error) (queue : List Ticket) :
    let c₀ : Connection Listener := .start address timeout
    let es := before ++ .drop e :: after
    (c₀.run before).attached = true → (c₀.run before).transaction = some queue →
    (c₀.run es).due = [] →
      (c₀.run es).mode = .direct ∧ (c₀.run es).waiting = [] ∧
        ∀ t ∈ queue, ∃ o, (c₀.run es).outcome? t = some o ∧
          (GivenUp c₀ es t o ∨
            o = .failed ((c₀.run before).interruption
              ((e <|> (reasons c₀ before).getLast?).getD (.closed .byServer)) t)) := by
  intro c₀ es hl htr hd
  have hs : Sound (GivenUp c₀ before) (c₀.run before) := sound_run address timeout before
  have h : Sound (GivenUp c₀ es) (c₀.run es) := sound_run address timeout es
  have hrun : c₀.run es = ((c₀.run before).drop e).run after := Connection.run_append ..
  have hlost : (c₀.run es).attached = false := by
    rw [hrun]
    exact Bool.eq_false_iff.2 fun ht => Bool.eq_false_iff.1 rfl (Connection.attached_of_run ht)
  obtain ⟨hw, hnone⟩ := h.course.lost hlost
  replace hnone : (c₀.run es).transaction = none := hnone.resolve_left (by simp [hd])
  refine ⟨by simp [Connection.mode, Connection.inTransaction, hnone], hw, fun t ht => ?_⟩
  replace ht : t ∈ (c₀.run before).transaction.getD [] := by rwa [htr]
  have hr : (c₀.run es).role? t = some .queued := by
    rw [Connection.run_append]
    exact Connection.role?_run (hs.queues.queued t (List.mem_append_right _ ht)) _
  have hm : t ∉ (c₀.run es).ended := by
    rw [hrun, Connection.ended_run_drop]
    exact hs.queues.notMem_ended ht
  obtain ⟨o, ho⟩ := Option.ne_none_iff_exists'.1 (h.outcome?_ne_none_of_lost hlost hd hr hm)
  refine ⟨o, ho, ?_⟩
  by_cases hk : (c₀.run before).Acknowledged t
  · -- an acknowledgement settles nothing, so that the transaction does
    rw [hk.interruption_eq]
    obtain ⟨r, hack⟩ := hk
    refine (h.cause_of_notMem_ended hr hm ho).imp id fun hc => hc.elim ?_ And.right
    rintro ⟨x, rfl, hx⟩
    have hans := Connection.answer?_run hack (.drop e :: after)
    rw [← Connection.run_append] at hans
    cases hans.symm.trans hx
  · have hi := (interrupted_run address timeout hl ht hk after).outcome o ho
    rwa [Connection.cause_run_start] at hi

/-- A transaction of two commands, of which the first one was acknowledged. -/
def halfAcknowledged : List (Event Unit) :=
  [.submit (.text (.ofString "MULTI")) [] (),
    .submit (.text (.ofString "ZCARD")) [.text (.ofString "k")] (),
    .submit (.text (.ofString "ZCARD")) [.text (.ofString "k")] (),
    .deliver (Bytes.ascii "+OK\r\n+QUEUED\r\n")]

/-- The error of a transport that is lost. -/
def reset : Error :=
  .transport (.ofString "reset")

/-- The two commands fail with different errors when the transport is lost. -/
theorem queue_after_loss_of_halfAcknowledged :
    let c : Connection Unit := (Connection.start (.none, .none) .none).run
      (halfAcknowledged ++ [.drop (some reset), .follow, .follow, .follow, .follow])
    c.mode = .direct ∧ c.outcome? 1 = some (.failed (.closed .insideTransaction)) ∧
      c.outcome? 2 = some (.failed reset) := by
  intro c
  obtain ⟨hmode, -, hq⟩ := queue_after_loss (.none, .none) .none halfAcknowledged
    [.follow, .follow, .follow, .follow] (some reset) [1, 2] (by decide +kernel)
    (by decide +kernel) (List.isEmpty_iff.1 (by decide +kernel))
  have hspared (t : Ticket) (o : Outcome) : ¬ GivenUp (.start (.none, .none) .none)
      (halfAcknowledged ++ [.drop (some reset), .follow, .follow, .follow, .follow]) t o :=
    not_givenUp_of_spares rfl (by simp [halfAcknowledged, Event.spares]) o
  have hack : ((Connection.start (.none, .none) .none).run halfAcknowledged).Acknowledged 1 := by
    have h : (((Connection.start (.none, .none) .none).run halfAcknowledged).answer? 1).any
      Outcome.isReply = true := by decide +kernel
    exact (Connection.mem_accepted.1 (List.mem_filter.2 ⟨List.mem_singleton_self 1, h⟩)).2
  have hopen : ((Connection.start (.none, .none) .none).run halfAcknowledged).answer? 2 = none :=
    Option.isNone_iff_eq_none.1 (by decide +kernel)
  refine ⟨hmode, ?_, ?_⟩
  · obtain ⟨o, ho, h⟩ := hq 1 (by decide)
    rw [ho, h.resolve_left (hspared 1 o), hack.interruption_eq]
  · obtain ⟨o, ho, h⟩ := hq 2 (by decide)
    rw [ho, h.resolve_left (hspared 2 o), Connection.interruption_of_unanswered hopen]
    rfl

/-- The class of the error with which a command failed, if it is one of the library's own. -/
def Outcome.class? : Outcome → Option ErrorClass
  | .failed x => x.class?
  | _ => none

/-- Not all commands of an open transaction fail because the connection was closed. -/
theorem not_uniform_after_loss :
    ¬ ∀ (es : List (Event Unit)) (e : Option Error) (queue : List Ticket),
      let c := (Connection.start (.none, .none) .none).run es
      c.attached = true → c.transaction = some queue →
        ∀ t ∈ queue, c.outcome? t = none →
          (((c.drop e).followAll.1.outcome? t).bind Outcome.class?).any
            (fun k => k.isBelow .connectionClosed) = true := by
  intro h
  exact absurd (h halfAcknowledged (some reset) [1, 2] (by decide +kernel) (by decide +kernel) 2
    (by decide) (by decide +kernel)) (by decide +kernel)

end SortedSets

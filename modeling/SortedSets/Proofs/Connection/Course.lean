import SortedSets.Proofs.Connection.Order
import SortedSets.Proofs.Connection.Queues

/-!
# The course of exchanges

Every outcome has a cause, and every answer has its effect. A command ends because its caller gave
it up, because an answer settled it, or because the transport was lost while its transaction was
open; of several answers that settle a command the first one counts, save that the place of the end
of a transaction may be given up at any time. What an answer settles has an outcome as soon as the
answer is no longer due.

## Main definitions

* `Consequence.InTurn`: answers are due in the order of their commands
* `Connection.First`, `Justified`: the causes of an outcome
* `Course`: every outcome has a cause, and every answer its effect

## Main results

* `Course.settle`, `Course.answer`, `Course.enlist`: outcomes with a cause, answers in order, and
  new commands keep the course
* `Course.followNext`: so does what is due, since no earlier answer settles what it settles
* `Course.detach`: so does the loss of the transport, once no command waits
-/

namespace SortedSets

variable {Listener : Type}

/-- Of two answers, neither of which is that the place was given up, the one for the earlier
command comes first. -/
def Consequence.InTurn : Consequence → Consequence → Prop
  | .answered t o, .answered s a => o ≠ .cancelled → a ≠ .cancelled → t < s
  | _, _ => True

/-- No answer to a command in front of `s` settles `t`. -/
def Connection.First (c : Connection Listener) (t s : Ticket) : Prop :=
  ∀ s' < s, ∀ a, c.answer? s' = some a → a ≠ .cancelled → ∀ p ∈ c.settlements s' a, p.1 ≠ t

/-- The causes of an outcome: the caller, in the way that `given` says; the first answer that
settles the command, or that a place was given up; or the loss of the transport. -/
def Justified (given : Ticket → Outcome → Prop) (c : Connection Listener) (t : Ticket)
    (o : Outcome) : Prop :=
  given t o ∨
    (∃ s a, c.answer? s = some a ∧ (t, o) ∈ c.settlements s a ∧
      (a ≠ .cancelled → c.First t s)) ∨
    (c.attached = false ∧ c.role? t = some .queued ∧ t ∉ c.ended ∧
      o = .failed (.closed .insideTransaction))

/-- Every outcome has a cause and every answer has its effect, or is due. -/
structure Course (given : Ticket → Outcome → Prop) (c : Connection Listener) : Prop where
  answered_of_due : ∀ t o, .answered t o ∈ c.due → c.answer? t = some o
  due_sorted : c.due.Pairwise Consequence.InTurn
  concluded : ∀ t o, c.answer? t = some o →
    .answered t o ∈ c.due ∨ ∀ p ∈ c.settlements t o, c.outcome? p.1 ≠ none
  justified : ∀ t o, c.outcome? t = some o → Justified given c t o
  vacated : ∀ t, c.answer? t = some .cancelled → c.role? t ≠ some .queued ∧ ∃ o, given t o
  left : ∀ t, c.role? t = some .queued → t ∉ c.queues → c.outcome? t ≠ none
  lost : c.attached = false → c.waiting = [] ∧ (.lost ∈ c.due ∨ c.transaction = none)
  lost_of_due : .lost ∈ c.due → c.attached = false

theorem Justified.mono {given given' : Ticket → Outcome → Prop} {c : Connection Listener}
    {t : Ticket} {o : Outcome} (hg : given t o → given' t o) (h : Justified given c t o) :
    Justified given' c t o :=
  h.imp_left hg

/-- A cause stays one if roles, given answers and the loss of the transport stay, and new answers
in front of old ones are only that places were given up. -/
theorem Justified.congr {given : Ticket → Outcome → Prop} {c d : Connection Listener}
    (hr : ∀ t < c.exchanges.length, d.role? t = c.role? t)
    (ha : ∀ t a, c.answer? t = some a → d.answer? t = some a)
    (hn : ∀ s a, c.answer? s = some a → a ≠ .cancelled → ∀ t < s, ∀ b, d.answer? t = some b →
      b ≠ .cancelled → c.answer? t = some b)
    (hl : c.attached = false → d.attached = false ∧ d.ended = c.ended) {t : Ticket} {o : Outcome}
    (h : Justified given c t o) : Justified given d t o := by
  rcases h with hg | ⟨s, a, hs, hm, hf⟩ | ⟨hc, hq, he, ho⟩
  · -- the caller gave the command up
    exact .inl hg
  · -- an answer settles it, and is still the first one that does
    refine .inr (.inl ⟨s, a, ha s a hs, ?_, fun hc s' hlt b hb hbc => ?_⟩)
    · rwa [Connection.settlements_congr (hr s (Connection.lt_of_answer? hs))]
    · have hb' := hn s a hs hc s' hlt b hb hbc
      rw [Connection.settlements_congr (hr s' (Connection.lt_of_answer? hb'))]
      exact hf hc s' hlt b hb' hbc
  · -- the transport was lost while its transaction was open
    obtain ⟨hd, hde⟩ := hl hc
    exact .inr (.inr ⟨hd, by rwa [hr t (Connection.lt_of_role? hq)], hde ▸ he, ho⟩)

namespace Course

variable {given given' : Ticket → Outcome → Prop} {c : Connection Listener}

theorem start (address : Value × Value) (timeout : Timeout) :
    Course given (.start address timeout : Connection Listener) where
  answered_of_due _ _ h := absurd h List.not_mem_nil
  due_sorted := .nil
  concluded _ _ h := by simp [Connection.answer?, Connection.start] at h
  justified _ _ h := by simp [Connection.outcome?, Connection.start] at h
  vacated _ h := by simp [Connection.answer?, Connection.start] at h
  left _ h := by simp [Connection.role?, Connection.start] at h
  lost h := by simp [Connection.start] at h
  lost_of_due h := absurd h List.not_mem_nil

theorem mono (h : Course given c) (hg : ∀ t o, given t o → given' t o) : Course given' c where
  answered_of_due := h.answered_of_due
  due_sorted := h.due_sorted
  concluded := h.concluded
  justified t o ho := (h.justified t o ho).mono (hg t o)
  vacated t ht := ⟨(h.vacated t ht).1, (h.vacated t ht).2.imp fun o => hg t o⟩
  left := h.left
  lost := h.lost
  lost_of_due := h.lost_of_due

/-- Bytes sent, the reader, reports, and whether more can be sent are of no concern. -/
theorem congr {d : Connection Listener} (h : Course given c) (hd : d = { c with
    reader := d.reader
    buffer := d.buffer
    closing := d.closing
    cause := d.cause
    writes := d.writes
    closes := d.closes
    log := d.log }) : Course given d := by
  rw [hd]
  exact ⟨h.answered_of_due, h.due_sorted, h.concluded, h.justified, h.vacated, h.left, h.lost,
    h.lost_of_due⟩

/-! ## Settling -/

/-- What an outcome is caused by depends on no other outcome. -/
theorem justified_settle {t s : Ticket} {o a : Outcome} :
    Justified given (c.settle s a).1 t o ↔ Justified given c t o := by
  have he := (Connection.quiet_settle s a c).ended_eq
  simp only [Justified, Connection.First, Connection.settlements, Connection.role?_settle,
    Connection.answer?_settle, he]
  exact Iff.rfl

/-- An outcome that has a cause. -/
theorem settle (h : Course given c) {t : Ticket} {o : Outcome}
    (hj : c.outcome? t = none → Justified given c t o) : Course given (c.settle t o).1 := by
  have q := Connection.quiet_settle t o c
  refine ⟨?answered_of_due, h.due_sorted, ?concluded, ?justified, ?vacated, ?left, h.lost,
    h.lost_of_due⟩
  case answered_of_due =>
    intro s a hs
    rw [Connection.answer?_settle]
    exact h.answered_of_due s a hs
  case concluded =>
    intro s a hs
    rw [Connection.answer?_settle] at hs
    rw [q.settlements_eq]
    refine (h.concluded s a hs).imp_right fun hp p hm => ?_
    exact Connection.outcome?_settle_ne_none (hp p hm) t o
  case justified =>
    intro s a hs
    rw [justified_settle]
    rcases Connection.eq_of_outcome?_settle hs with hs | ⟨hn, rfl, rfl⟩
    · exact h.justified s a hs
    · exact hj hn
  case vacated =>
    intro s hs
    rw [Connection.answer?_settle] at hs
    rw [Connection.role?_settle]
    exact h.vacated s hs
  case left =>
    intro s hs hm
    rw [Connection.role?_settle] at hs
    rw [q.queues_eq rfl] at hm
    exact Connection.outcome?_settle_ne_none (h.left s hs hm) t o

/-- Outcomes that have a cause. -/
theorem settleAll (h : Course given c) {ps : List (Ticket × Outcome)}
    (hj : ∀ p ∈ ps, c.outcome? p.1 = none → Justified given c p.1 p.2) :
    Course given (c.settleAll ps).1 := by
  induction ps generalizing c with
  | nil => exact h
  | cons p ps ih =>
    rw [Connection.settleAll_cons]
    refine ih (h.settle (hj p List.mem_cons_self)) fun q hq hn => ?_
    rw [justified_settle]
    refine hj q (List.mem_cons_of_mem p hq) ?_
    -- an outcome that is still missing was missing before
    cases ho : c.outcome? q.1 with
    | none => rfl
    | some a => rw [Connection.outcome?_settle_of_some ho] at hn; cases hn

/-! ## Answers -/

/-- An outcome keeps its cause when another answer comes: that a place was given up, or an answer
behind all others. -/
theorem justified_answer {t s : Ticket} {o a : Outcome} (ht : t < c.exchanges.length)
    (hn : c.answer? t = none)
    (hf : o ≠ .cancelled → ∀ r b, c.answer? r = some b → b ≠ .cancelled → r < t)
    (h : Justified given c s a) : Justified given (c.answer t o) s a := by
  have q := Connection.quiet_answer ht (by simp [hn]) o
  refine h.congr (fun r _ => q.role?_eq r)
    (fun r b hr => Connection.answer?_answer_of_some hr t o) ?_
    fun hl => ⟨q.attached_eq.trans hl, q.ended_eq⟩
  intro r b hr hbc r' hlt b' hb' hbc'
  rw [Connection.answer?_answer ht hn] at hb'
  split at hb'
  · -- the new answer would stand in front of an old one
    next hrt =>
    cases hb'
    exact absurd (hf hbc' r b hr hbc) (by rw [← hrt]; exact Nat.lt_asymm hlt)
  · exact hb'

/-- An answer into an open place: that the place was given up, or an answer behind all others. -/
theorem answer (h : Course given c) {t : Ticket} {o : Outcome} (ht : t < c.exchanges.length)
    (hn : c.answer? t = none)
    (hv : o = .cancelled → c.role? t ≠ some .queued ∧ ∃ a, given t a)
    (hf : o ≠ .cancelled → ∀ s a, c.answer? s = some a → a ≠ .cancelled → s < t) :
    Course given (c.answer t o) := by
  have q := Connection.quiet_answer ht (by simp [hn]) o
  have ha := Connection.answer?_answer ht hn o
  have ho (s : Ticket) := Connection.outcome?_answer t s o c
  have he := Connection.answer_eq ht hn o
  have hdue : (c.answer t o).due = c.due ++ [.answered t o] := by rw [he]
  refine ⟨?answered_of_due, ?due_sorted, ?concluded, ?justified, ?vacated, ?left, ?lost,
    ?lost_of_due⟩
  case answered_of_due =>
    intro s a hs
    rw [hdue] at hs
    rcases List.mem_append.1 hs with hs | hs
    · exact Connection.answer?_answer_of_some (h.answered_of_due s a hs) t o
    · cases List.mem_singleton.1 hs
      rw [ha, if_pos rfl]
  case due_sorted =>
    rw [hdue, List.pairwise_append]
    refine ⟨h.due_sorted, List.pairwise_singleton _ _, ?_⟩
    rintro d hd e he'
    rw [List.mem_singleton.1 he']
    cases d with
    | lost => trivial
    | answered s a => exact fun hac hoc => hf hoc s a (h.answered_of_due s a hd) hac
  case concluded =>
    intro s a hs
    rw [hdue]
    rw [ha] at hs
    split at hs
    · -- the new answer is due
      next hst =>
      cases hs
      rw [hst]
      exact .inl (List.mem_append_right _ List.mem_cons_self)
    · refine (h.concluded s a hs).imp (List.mem_append_left _) fun hp p hm => ?_
      rw [q.settlements_eq] at hm
      rw [ho]
      exact hp p hm
  case justified =>
    intro s a hs
    rw [ho] at hs
    exact justified_answer ht hn hf (h.justified s a hs)
  case vacated =>
    intro s hs
    rw [q.role?_eq]
    rw [ha] at hs
    split at hs
    · next hst =>
      rw [hst]
      exact hv (Option.some.inj hs)
    · exact h.vacated s hs
  case left =>
    intro s hs hm
    rw [q.role?_eq] at hs
    rw [q.queues_eq (Connection.transaction_answer t o c)] at hm
    rw [ho]
    exact h.left s hs hm
  case lost =>
    intro hl
    rw [q.attached_eq] at hl
    rw [q.waiting_eq, hdue, Connection.transaction_answer]
    exact (h.lost hl).imp id fun hd => hd.imp (List.mem_append_left _) id
  case lost_of_due =>
    intro hd
    rw [hdue] at hd
    rw [q.attached_eq]
    exact h.lost_of_due (by simpa using hd)

/-- A place that its caller gave up, of a command that is none of a transaction. -/
theorem vacate (h : Course given c) {t : Ticket} (hr : c.role? t ≠ some .queued)
    (hg : ∃ o, given t o) : Course given (c.vacate t) := by
  by_cases ht : t < c.exchanges.length
  · cases hn : c.answer? t with
    | some o =>
      rw [Connection.vacate_eq_self hn]
      exact h
    | none =>
      rw [Connection.vacate_eq_answer ht hn]
      exact h.answer ht hn (fun _ => ⟨hr, hg⟩) fun hc => absurd rfl hc
  · rw [Connection.vacate_eq_self_of_le (Nat.not_lt.1 ht)]
    exact h

/-- The next answer, which is behind all others since answers come in order. -/
theorem answerNext (h : Course given c) (hi : InOrder c) {o : Outcome} (hc : o ≠ .cancelled) :
    Course given (c.answerNext o) := by
  cases hw : c.waiting with
  | nil =>
    rw [Connection.answerNext_nil hw]
    exact h
  | cons t ws =>
    obtain ⟨hs, ht, hv⟩ := hi.next hw
    -- the transport is still there, since a command waits
    have hl : c.attached ≠ false := fun hl => by
      rw [(h.lost hl).1] at hw
      cases hw
    have h' : Course given { c with waiting := ws } :=
      ⟨h.answered_of_due, h.due_sorted, h.concluded, h.justified, h.vacated, h.left,
        fun hf => absurd hf hl, h.lost_of_due⟩
    rw [Connection.answerNext_cons hw]
    cases hn : c.answer? t with
    | some a =>
      -- the place was given up, and takes the answer in
      cases hv a hn
      rw [Connection.answer_eq_self (c := { c with waiting := ws }) hn]
      exact h'
    | none =>
      -- the place is open, and all replies so far are in front of it
      refine h'.answer ht hn (fun he => absurd he hc) fun _ s a hsa hac => ?_
      rw [hs]
      exact hi.lt_served hsa hac

/-! ## Giving up -/

/-- A command that its caller gives up. -/
theorem giveUp (h : Course given c) {t : Ticket}
    (hg : t < c.exchanges.length → given t .cancelled) : Course given (c.giveUp t).1 := by
  by_cases ht : t < c.exchanges.length
  · rcases Connection.giveUp_cases t c with ⟨he, -⟩ | ⟨-, -, he⟩ | ⟨-, hr, he⟩
    · rw [he]
      exact h
    · -- a command of a transaction ends, and keeps its place
      rw [he]
      exact h.settle fun _ => .inl (hg ht)
    · -- any other command has its place given up, and ends when that is understood
      rw [he]
      exact h.vacate hr ⟨_, hg ht⟩
  · have he : c.exchanges[t]? = none := List.getElem?_eq_none (Nat.not_lt.1 ht)
    rw [Connection.giveUp, he]
    exact h

/-- What was handed out for a command given up. -/
theorem abandon (h : Course given c) {t : Ticket}
    (hg : t < c.exchanges.length → given t .cancelled) : Course given (c.abandon t).1 := by
  by_cases ht : t < c.exchanges.length
  · exact h.settle fun _ => .inl (hg ht)
  · rw [Connection.abandon, Connection.settle_eq_self_of_le (Nat.not_lt.1 ht)]
    exact h

/-- A command whose timeout expires. -/
theorem expire (h : Course given c) {t : Ticket}
    (hg : t < c.exchanges.length → given t (.failed .timedOut)) :
    Course given (c.expire t).1 := by
  by_cases ht : t < c.exchanges.length
  · rcases Connection.expire_cases t c with ⟨he, -⟩ | ⟨-, -, he⟩ | ⟨-, hr, he⟩
    · rw [he]
      exact h
    · rw [he]
      exact h.settle fun _ => .inl (hg ht)
    · rw [he]
      refine (h.settle fun _ => .inl (hg ht)).vacate ?_ ⟨_, hg ht⟩
      rwa [Connection.role?_settle]
  · have he : c.exchanges[t]? = none := List.getElem?_eq_none (Nat.not_lt.1 ht)
    rw [Connection.expire, he]
    exact h

/-- A command whose timeout starts, and may end it at once. -/
theorem startTimeout (h : Course given c) {t : Ticket}
    (hg : ∀ e, c.timeout.atOnce? = some e → given t (.failed e)) :
    Course given (c.startTimeout t).1 := by
  unfold Connection.startTimeout
  split
  · next ht => exact h.expire fun _ => hg .timedOut (by rw [ht]; rfl)
  · next e ht => exact h.settle fun _ => .inl (hg e (by rw [ht]; rfl))
  · exact h

/-! ## What is due -/

/-- What an answer settles that has no outcome yet is settled by no answer in front of it. -/
theorem justified_of_due (h : Course given c) {t : Ticket} {o : Outcome} {ds : List Consequence}
    (hd : c.due = .answered t o :: ds) {p : Ticket × Outcome} (hp : p ∈ c.settlements t o)
    (hn : c.outcome? p.1 = none) : Justified given c p.1 p.2 := by
  have hs := h.due_sorted
  rw [hd, List.pairwise_cons] at hs
  refine .inr (.inl ⟨t, o, h.answered_of_due t o (hd ▸ List.mem_cons_self), hp, ?_⟩)
  intro hc s hst a ha hac r hr hrp
  -- an answer in front of it would be due behind it, or has had its effect
  rcases h.concluded s a ha with hm | hm
  · rw [hd] at hm
    rcases List.mem_cons.1 hm with hm | hm
    · cases hm
      exact Nat.lt_irrefl _ hst
    · exact Nat.lt_asymm hst (hs.1 _ hm hc hac)
  · exact hm r hr (hrp ▸ hn)

/-- The effect of an answer, which is due no longer. -/
theorem settled_of_due (h : Course given c) (hq : Queues c) {t : Ticket} {o : Outcome}
    {ds : List Consequence} (hd : c.due = .answered t o :: ds) :
    Course given { (c.settleAll (c.settlements t o)).1 with due := ds } := by
  have h' := h.settleAll fun p hp hn => h.justified_of_due hd hp hn
  have q := Connection.quiet_settleAll (c.settlements t o) c
  have hdue : (c.settleAll (c.settlements t o)).1.due = .answered t o :: ds := by
    rw [Connection.settleAll_eq]
    exact hd
  have hs := h'.due_sorted
  rw [hdue] at hs
  refine ⟨?answered_of_due, hs.of_cons, ?concluded, h'.justified, h'.vacated, h'.left, ?lost,
    ?lost_of_due⟩
  case answered_of_due =>
    intro s a hm
    exact h'.answered_of_due s a (hdue ▸ List.mem_cons_of_mem _ hm)
  case concluded =>
    intro s a ha
    rcases h'.concluded s a ha with hm | hm
    · rw [hdue] at hm
      rcases List.mem_cons.1 hm with hm | hm
      · -- the answer that was the oldest one has its effect now
        cases hm
        refine .inr fun p hp => ?_
        replace hp : p ∈ c.settlements t o := q.settlements_eq t o ▸ hp
        exact Connection.outcome?_settleAll_ne_none hp (hq.settlement_lt hp)
      · exact .inl hm
    · exact .inr hm
  case lost =>
    intro hl
    refine (h'.lost hl).imp id fun hm => hm.imp (fun hm => ?_) id
    rw [hdue] at hm
    simpa using hm
  case lost_of_due =>
    intro hm
    exact h'.lost_of_due (hdue ▸ List.mem_cons_of_mem _ hm)

/-- The failure of the open transaction, whose end cannot be sent any more. -/
theorem failed_of_due (h : Course given c) (hq : Queues c) {ds : List Consequence}
    (hd : c.due = .lost :: ds) :
    Course given
      { (c.settleAll ((c.transaction.getD []).map fun t =>
          (t, .failed (.closed .insideTransaction)))).1 with
        due := ds
        transaction := none } := by
  set ps : List (Ticket × Outcome) :=
    (c.transaction.getD []).map fun t => (t, .failed (.closed .insideTransaction)) with hps
  have hl : c.attached = false := h.lost_of_due (hd ▸ List.mem_cons_self)
  have h' : Course given (c.settleAll ps).1 := by
    refine h.settleAll fun p hp _ => ?_
    obtain ⟨t, ht, rfl⟩ := List.mem_map.1 hp
    refine .inr (.inr ⟨hl, hq.queued t (List.mem_append_right _ ht), fun he => ?_, rfl⟩)
    obtain ⟨e, discards, queue, he, hm⟩ := Connection.mem_ended.1 he
    exact hq.notMem_transaction he hm ht
  have q := Connection.quiet_settleAll ps c
  have hdue : (c.settleAll ps).1.due = .lost :: ds := by
    rw [Connection.settleAll_eq]
    exact hd
  have hs := h'.due_sorted
  rw [hdue] at hs
  refine ⟨?answered_of_due, hs.of_cons, ?concluded, h'.justified, h'.vacated, ?left, ?lost,
    fun _ => q.attached_eq.trans hl⟩
  case answered_of_due =>
    intro s a hm
    exact h'.answered_of_due s a (hdue ▸ List.mem_cons_of_mem _ hm)
  case concluded =>
    intro s a ha
    refine (h'.concluded s a ha).imp (fun hm => ?_) id
    rw [hdue] at hm
    simpa using hm
  case left =>
    intro s hs hm
    by_cases hms : s ∈ c.transaction.getD []
    · -- the open transaction is given up, and all its commands have failed
      have hp : (s, Outcome.failed (.closed .insideTransaction)) ∈ ps := List.mem_map_of_mem hms
      refine Connection.outcome?_settleAll_ne_none hp ?_
      exact hq.lt_length (List.mem_append_right _ hms)
    · -- the commands of ended transactions stay in their queues
      refine h'.left s hs fun hm' => hm (List.mem_append_left _ ?_)
      rw [q.queues_eq (by rw [Connection.settleAll_eq])] at hm'
      have he : s ∈ c.ended := (List.mem_append.1 hm').resolve_right hms
      exact q.ended_eq.symm ▸ he
  case lost =>
    intro hf
    exact ⟨(h'.lost hf).1, .inr rfl⟩

/-- What is due happens. -/
theorem followNext (h : Course given c) (hq : Queues c) : Course given c.followNext.1 := by
  rcases Connection.followNext_cases c with ⟨-, he⟩ | ⟨t, o, ds, hd, he⟩ | ⟨ds, hd, he⟩
  · rw [he]
    exact h
  · rw [he]
    exact h.settled_of_due hq hd
  · rw [he]
    exact h.failed_of_due hq hd

/-! ## New commands -/

/-- A new command, which is in a queue if it is one of a transaction, while all queues stay. -/
theorem enlist (h : Course given c) {role : Role} {l : Option Listener}
    (transaction : Option (List Ticket)) (hl : c.attached = true)
    (hq : ∀ s ∈ c.queues,
      s ∈ ({ c.enlist role l with transaction := transaction } : Connection Listener).queues)
    (hn : role = .queued → c.exchanges.length ∈
      ({ c.enlist role l with transaction := transaction } : Connection Listener).queues) :
    Course given { c.enlist role l with transaction := transaction } := by
  have hr (s : Ticket) (hs : s < c.exchanges.length) : (c.enlist role l).role? s = c.role? s := by
    rw [Connection.role?_enlist, if_neg (Nat.ne_of_lt hs)]
  have ha := Connection.answer?_enlist role l c
  have ho := Connection.outcome?_enlist role l c
  -- the transport is there, so no outcome has its loss as a cause
  have hnl : c.attached ≠ false := fun hf => by
    rw [hl] at hf
    cases hf
  refine ⟨?answered_of_due, h.due_sorted, ?concluded, ?justified, ?vacated, ?left,
    fun hf => absurd hf hnl, h.lost_of_due⟩
  case answered_of_due =>
    intro s a hm
    exact (ha s).trans (h.answered_of_due s a hm)
  case concluded =>
    intro s a hs
    replace hs : c.answer? s = some a := (ha s).symm.trans hs
    refine (h.concluded s a hs).imp id fun hp p hm => ?_
    replace hm : p ∈ c.settlements s a :=
      Connection.settlements_congr (hr s (Connection.lt_of_answer? hs)) a ▸ hm
    exact fun hp' => hp p hm ((ho p.1).symm.trans hp')
  case justified =>
    intro s a hs
    replace hs : c.outcome? s = some a := (ho s).symm.trans hs
    refine (h.justified s a hs).congr hr (fun s a hs => (ha s).trans hs) ?_
      fun hf => absurd hf hnl
    intro _ _ _ _ t _ b hb _
    exact (ha t).symm.trans hb
  case vacated =>
    intro s hs
    replace hs : c.answer? s = some .cancelled := (ha s).symm.trans hs
    obtain ⟨hq, hg⟩ := h.vacated s hs
    exact ⟨fun hr' => hq ((hr s (Connection.lt_of_answer? hs)).symm.trans hr'), hg⟩
  case left =>
    intro s hs hm
    change (c.enlist role l).role? s = _ at hs
    change (c.enlist role l).outcome? s ≠ none
    rw [Connection.role?_enlist] at hs
    rw [ho]
    split at hs
    · next hsn => exact absurd (hsn ▸ hn (Option.some.inj hs)) hm
    · exact h.left s hs fun hm' => hm (hq s hm')

/-- A command without a role in a transaction. -/
theorem enlist_plain (h : Course given c) (hl : c.attached = true) (l : Option Listener) :
    Course given (c.enlist .plain l) := by
  refine h.enlist c.transaction hl (fun s hs => ?_) nofun
  exact (Connection.queues_enlist_plain l c).symm ▸ hs

/-- A command of a known verb, which may join the open transaction or end it. -/
theorem enrol (h : Course given c) (hl : c.attached = true) (verb : Verb) (l : Listener) :
    Course given (c.enrol verb l) := by
  refine h.enlist (c.nextTransaction verb) hl (fun s hs => ?_) fun hr => ?_
  · rcases Connection.queues_enrol verb l c with ⟨-, hq⟩ | ⟨-, hq⟩
    · exact hq.symm ▸ hs
    · exact hq.symm ▸ List.mem_append_left _ hs
  · rcases Connection.queues_enrol verb l c with ⟨hn, -⟩ | ⟨-, hq⟩
    · exact absurd hr hn
    · exact hq.symm ▸ List.mem_append_right _ List.mem_cons_self

/-- The loss of the transport, when no command waits any more. -/
theorem detach (h : Course given c) (hw : c.waiting = []) {due : List Consequence}
    (hd : due = c.due ++ [.lost] ∨ due = c.due ∧ c.attached = false) :
    Course given { c with attached := false, due := due } := by
  have hsub : ∀ d ∈ c.due, d ∈ due := by
    rcases hd with rfl | ⟨rfl, -⟩
    · exact fun d => List.mem_append_left _
    · exact fun d => id
  refine ⟨?answered_of_due, ?due_sorted, ?concluded, ?justified, h.vacated, h.left, ?lost,
    fun _ => rfl⟩
  case answered_of_due =>
    intro t o hm
    refine h.answered_of_due t o ?_
    rcases hd with rfl | ⟨rfl, -⟩
    · simpa using hm
    · exact hm
  case due_sorted =>
    rcases hd with rfl | ⟨rfl, -⟩
    · refine List.pairwise_append.2 ⟨h.due_sorted, List.pairwise_singleton _ _, ?_⟩
      intro d _ e he
      rw [List.mem_singleton.1 he]
      cases d <;> trivial
    · exact h.due_sorted
  case concluded =>
    intro t o ha
    exact (h.concluded t o ha).imp (hsub _) id
  case justified =>
    intro t o ho
    exact Justified.congr (c := c) (d := { c with attached := false, due := due })
      (fun _ _ => rfl) (fun _ _ => id) (fun _ _ _ _ _ _ _ hb _ => hb) (fun _ => ⟨rfl, rfl⟩)
      (h.justified t o ho)
  case lost =>
    intro _
    refine ⟨hw, ?_⟩
    rcases hd with rfl | ⟨rfl, hl⟩
    · exact .inl (List.mem_append_right _ List.mem_cons_self)
    · -- a transport that was lost before has let the open transaction fail, or will
      exact (h.lost hl).2

end Course

end SortedSets

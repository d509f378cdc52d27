import SortedSets.Proofs.Connection.Event
import SortedSets.Proofs.Connection.Operations

/-!
# The order of answers

The commands that wait are always the last ones that were sent, in the order of sending, and the
oldest of them takes the next reply. Hence no place is answered twice, and if the server answers
only what was written, the reply of a number goes to the command of that number.

## Main definitions

* `Connection.served`: how many commands have been answered
* `InOrder`: the commands that wait are the last ones, and their places are open or given up

## Main results

* `InOrder.next`: the command that waits longest is the first one without an answer
* `InOrder.vacate`, `InOrder.enlist`, `InOrder.answerNext`: places that are given up, new commands
  and answers keep the order
* `InOrder.assign_spec`, `InOrder.deliver_spec`: which places the replies of a piece go into
-/

namespace SortedSets

open Wire (Reply Reader)

variable {Listener : Type}

/-- How many commands have been answered. -/
def Connection.served (c : Connection Listener) : Nat :=
  c.exchanges.length - c.waiting.length

theorem Connection.served_enlist (role : Role) (l : Option Listener) (c : Connection Listener) :
    (c.enlist role l).served = c.served := by
  simp [served, enlist]

theorem Connection.Quiet.served_eq {c d : Connection Listener} (q : Quiet c d) :
    d.served = c.served := by
  rw [served, served, q.waiting_eq, q.length_eq]

/-- The commands that wait are the last ones, in the order of sending. Every place in front of
them was answered, and theirs are open or were given up. -/
structure InOrder (c : Connection Listener) : Prop where
  length_le : c.waiting.length ≤ c.exchanges.length
  waiting_eq : c.waiting = List.range' c.served c.waiting.length
  answered : ∀ t < c.served, c.answer? t ≠ none
  vacant : ∀ t ∈ c.waiting, ∀ o, c.answer? t = some o → o = .cancelled
  sane : ∀ t, LogEntry.answeredTwice t ∉ c.log

namespace InOrder

variable {c d : Connection Listener}

theorem start (address : Value × Value) (timeout : Timeout) :
    InOrder (.start address timeout : Connection Listener) where
  length_le := Nat.le_refl 0
  waiting_eq := rfl
  answered _ h := absurd h (Nat.not_lt_zero _)
  vacant _ h := absurd h List.not_mem_nil
  sane _ := List.not_mem_nil

theorem mem_waiting (h : InOrder c) {t : Ticket} :
    t ∈ c.waiting ↔ c.served ≤ t ∧ t < c.exchanges.length := by
  have hl := h.length_le
  rw [h.waiting_eq, List.mem_range'_1, Connection.served]
  grind

/-- A reply or a failure stands in front of all commands that wait. -/
theorem lt_served (h : InOrder c) {t : Ticket} {o : Outcome} (ha : c.answer? t = some o)
    (ho : o ≠ .cancelled) : t < c.served := by
  refine Nat.lt_of_not_le fun ht => ho ?_
  exact h.vacant t (h.mem_waiting.2 ⟨ht, Connection.lt_of_answer? ha⟩) o ha

/-- Whatever keeps the commands, the places and the log keeps the order. -/
theorem congr (h : InOrder c) (hw : d.waiting = c.waiting)
    (hl : d.exchanges.length = c.exchanges.length) (ha : ∀ t, d.answer? t = c.answer? t)
    (hlog : d.log = c.log) : InOrder d := by
  have hs : d.served = c.served := by rw [Connection.served, Connection.served, hw, hl]
  refine ⟨by rw [hw, hl]; exact h.length_le, by rw [hw, hs]; exact h.waiting_eq, ?answered, ?vacant,
    by rw [hlog]; exact h.sane⟩
  case answered =>
    intro t ht
    rw [ha]
    exact h.answered t (hs ▸ ht)
  case vacant =>
    intro t ht o
    rw [ha]
    exact h.vacant t (hw ▸ ht) o

theorem settle (h : InOrder c) (t : Ticket) (o : Outcome) : InOrder (c.settle t o).1 :=
  h.congr rfl (Connection.length_exchanges_settle t o c)
    (fun s => Connection.answer?_settle t s o c) rfl

/-- A place that is given up has no answer, or has one already. -/
theorem vacate (h : InOrder c) (t : Ticket) : InOrder (c.vacate t) := by
  have q := Connection.quiet_vacate t c
  refine ⟨?length_le, ?waiting_eq, ?answered, ?vacant, ?sane⟩
  case length_le =>
    rw [q.waiting_eq, q.length_eq]
    exact h.length_le
  case waiting_eq =>
    rw [q.waiting_eq, q.served_eq]
    exact h.waiting_eq
  case answered =>
    intro s hlt
    rw [q.served_eq] at hlt
    obtain ⟨a, ha⟩ := Option.ne_none_iff_exists'.1 (h.answered s hlt)
    rw [Connection.answer?_vacate, ha]
    split <;> exact Option.some_ne_none a
  case vacant =>
    intro s hw o ho
    rw [q.waiting_eq] at hw
    rw [Connection.answer?_vacate] at ho
    split at ho
    · -- the place that is given up was open, or holds what it was given before
      cases hc : c.answer? s with
      | none =>
        rw [hc] at ho
        exact (Option.some.inj ho).symm
      | some a =>
        rw [hc] at ho
        exact h.vacant s hw o (hc.trans ho)
    · exact h.vacant s hw o ho
  case sane =>
    rw [q.log_eq]
    exact h.sane

/-- A command that is given up keeps its place, or has it given up. -/
theorem giveUp (h : InOrder c) (t : Ticket) : InOrder (c.giveUp t).1 := by
  rcases Connection.giveUp_cases t c with ⟨he, -⟩ | ⟨-, -, he⟩ | ⟨-, -, he⟩
  · rw [he]
    exact h
  · rw [he]
    exact h.settle t .cancelled
  · rw [he]
    exact h.vacate t

theorem expire (h : InOrder c) (t : Ticket) : InOrder (c.expire t).1 := by
  rcases Connection.expire_cases t c with ⟨he, -⟩ | ⟨-, -, he⟩ | ⟨-, -, he⟩
  · rw [he]
    exact h
  · rw [he]
    exact h.settle t _
  · rw [he]
    exact (h.settle t _).vacate t

theorem startTimeout (h : InOrder c) (t : Ticket) : InOrder (c.startTimeout t).1 := by
  unfold Connection.startTimeout
  split
  · exact h.expire t
  · exact h.settle t _
  · exact h

/-- A new command waits behind all others. -/
theorem enlist (h : InOrder c) (role : Role) (l : Option Listener) :
    InOrder (c.enlist role l) := by
  have hl := h.length_le
  have hs := Connection.served_enlist role l c
  refine ⟨by simp [Connection.enlist, hl], ?waiting_eq, ?answered, ?vacant, h.sane⟩
  case waiting_eq =>
    -- its ticket comes behind those that wait
    have hn : c.served + c.waiting.length = c.exchanges.length := by
      rw [Connection.served]
      omega
    rw [hs, Connection.enlist]
    simp only [List.length_append, List.length_singleton, List.range'_concat, Nat.one_mul]
    rw [← h.waiting_eq, hn]
  case answered =>
    intro t ht
    rw [Connection.answer?_enlist]
    exact h.answered t (hs ▸ ht)
  case vacant =>
    intro t ht o
    rw [Connection.answer?_enlist]
    intro ho
    rcases List.mem_append.1 ht with ht | ht
    · exact h.vacant t ht o ho
    · -- the new command has no answer yet
      have hlt := Connection.lt_of_answer? ho
      rw [List.mem_singleton.1 ht] at hlt
      exact absurd hlt (Nat.lt_irrefl _)

/-- The command that waits longest is the first one without an answer, and its place can take
one. -/
theorem next (h : InOrder c) {t : Ticket} {ws : List Ticket} (hw : c.waiting = t :: ws) :
    t = c.served ∧ t < c.exchanges.length ∧ ∀ a, c.answer? t = some a → a = .cancelled := by
  have ht : t ∈ c.waiting := hw ▸ List.mem_cons_self
  have hs : t = c.served := by
    have heq := h.waiting_eq
    rw [hw, List.length_cons, List.range'_succ] at heq
    exact (List.cons.inj heq).1
  exact ⟨hs, (h.mem_waiting.1 ht).2, h.vacant t ht⟩

/-- The next answer goes into the first place without one. -/
theorem answer?_answerNext (h : InOrder c) (hw : c.waiting ≠ []) (o : Outcome) (s : Ticket) :
    (c.answerNext o).answer? s =
      if s = c.served then c.answer? s <|> some o else c.answer? s := by
  obtain ⟨t, ws, hw⟩ := List.exists_cons_of_ne_nil hw
  obtain ⟨rfl, ht, hv⟩ := h.next hw
  exact Connection.answer?_answerNext ht hv hw s

/-- The next answer serves one more command. -/
theorem served_answerNext (h : InOrder c) (hw : c.waiting ≠ []) (o : Outcome) :
    (c.answerNext o).served = c.served + 1 := by
  obtain ⟨t, ws, hw⟩ := List.exists_cons_of_ne_nil hw
  have hl := h.length_le
  rw [Connection.served, Connection.served, Connection.waiting_answerNext,
    Connection.length_exchanges_answerNext, hw, List.tail_cons]
  rw [hw] at hl
  rw [List.length_cons] at hl ⊢
  omega

/-- The next answer keeps the order. -/
theorem answerNext (h : InOrder c) (o : Outcome) : InOrder (c.answerNext o) := by
  cases hw : c.waiting with
  | nil =>
    rw [Connection.answerNext_nil hw]
    exact h
  | cons t ws =>
    obtain ⟨hs, ht, hv⟩ := h.next hw
    have hne : c.waiting ≠ [] := by simp [hw]
    have hs' : (c.answerNext o).served = t + 1 := hs ▸ h.served_answerNext hne o
    have hws : (c.answerNext o).waiting = ws := by
      rw [Connection.waiting_answerNext, hw, List.tail_cons]
    refine ⟨?length_le, ?waiting_eq, ?answered, ?vacant, ?sane⟩
    case length_le =>
      rw [hws, Connection.length_exchanges_answerNext]
      have hl := h.length_le
      rw [hw, List.length_cons] at hl
      exact Nat.le_of_succ_le hl
    case waiting_eq =>
      have heq := h.waiting_eq
      rw [hw, List.length_cons, List.range'_succ, ← hs] at heq
      rw [hs', hws]
      exact (List.cons.inj heq).2
    case answered =>
      intro s hlt
      rw [h.answer?_answerNext hne]
      split
      · -- the place that takes the answer
        cases c.answer? s <;> simp
      · -- a place in front of it
        next hn =>
        rw [hs'] at hlt
        exact h.answered s (Nat.lt_of_le_of_ne (hs ▸ Nat.le_of_lt_succ hlt) hn)
    case vacant =>
      intro s hsw a ha
      rw [hws] at hsw
      -- the command that took the answer waits no longer
      have hn : s ≠ c.served := by
        rintro rfl
        have hn : c.waiting.Nodup := by
          rw [h.waiting_eq]
          exact List.nodup_range'
        rw [hw, hs] at hn
        exact (List.nodup_cons.1 hn).1 hsw
      rw [h.answer?_answerNext hne, if_neg hn] at ha
      exact h.vacant s (hw ▸ List.mem_cons_of_mem t hsw) a ha
    case sane =>
      rw [Connection.log_answerNext ht hv hw]
      exact h.sane

/-- An answer that stands for a reply gives no place up. -/
theorem cancelled_of_answerNext (h : InOrder c) {o : Outcome} (ho : o ≠ .cancelled) {s : Ticket}
    (hs : (c.answerNext o).answer? s = some .cancelled) : c.answer? s = some .cancelled := by
  by_cases hw : c.waiting = []
  · rwa [Connection.answerNext_nil hw] at hs
  · rw [h.answer?_answerNext hw] at hs
    split at hs
    · cases ha : c.answer? s with
      | none =>
        rw [ha] at hs
        exact absurd (Option.some.inj hs) ho
      | some a =>
        rw [ha] at hs
        exact hs
    · exact hs

/-- Replies, no more than there are commands that wait, go into the first places without an
answer, in order. -/
theorem assign_spec (h : InOrder c) {rs : List Reply} (hl : rs.length ≤ c.waiting.length) :
    (c.assign rs).served = c.served + rs.length ∧
      ∀ s, (c.assign rs).answer? s = (c.answer? s <|> rs[s - c.served]?.map Reply.outcome) := by
  -- Induction on the replies; the first of them goes into the place of number `c.served`.
  induction rs generalizing c with
  | nil =>
    refine ⟨rfl, fun s => ?_⟩
    cases hs : c.answer? s <;> simp [Connection.assign, hs]
  | cons r rs ih =>
    have hw : c.waiting ≠ [] := by
      rintro hw
      rw [hw] at hl
      cases hl
    have hl' : rs.length ≤ (c.answerNext r.outcome).waiting.length := by
      rw [Connection.waiting_answerNext, List.length_tail]
      rw [List.length_cons] at hl
      omega
    obtain ⟨hserved, hanswer⟩ := ih (h.answerNext r.outcome) hl'
    rw [Connection.assign, if_neg (by simpa using hw)]
    refine ⟨?_, fun s => ?_⟩
    · rw [hserved, h.served_answerNext hw, List.length_cons]
      omega
    · rw [hanswer, h.answer?_answerNext hw, h.served_answerNext hw]
      rcases Nat.lt_trichotomy s c.served with hlt | rfl | hlt
      · -- a place in front has its answer already
        obtain ⟨a, ha⟩ := Option.ne_none_iff_exists'.1 (h.answered s hlt)
        rw [if_neg (Nat.ne_of_lt hlt), ha]
        rfl
      · -- the place of the first reply
        rw [if_pos rfl, Nat.sub_self]
        cases c.answer? c.served <;> rfl
      · -- a place behind it, for one of the other replies
        have hsub : s - c.served = s - (c.served + 1) + 1 := by
          rw [← Nat.sub_sub, Nat.sub_add_cancel (Nat.sub_pos_of_lt hlt)]
        rw [if_neg (Nat.ne_of_gt hlt), hsub, List.getElem?_cons_succ]

/-- A piece whose replies are no more than there are commands that wait. -/
theorem deliver_spec (h : InOrder c) {piece : Bytes}
    (hl : (c.reader.feed piece).1.length ≤ c.waiting.length) :
    (c.deliver piece).served = c.served + (c.reader.feed piece).1.length ∧
      ∀ s, (c.deliver piece).answer? s =
        (c.answer? s <|> (c.reader.feed piece).1[s - c.served]?.map Reply.outcome) := by
  have hr : InOrder { c with reader := (c.reader.feed piece).2 } :=
    h.congr rfl rfl (fun _ => rfl) rfl
  rw [Connection.deliver_frame]
  exact hr.assign_spec hl

/-- What is due changes outcomes only. -/
theorem followNext (h : InOrder c) : InOrder c.followNext.1 := by
  have q := Connection.quiet_followNext c
  exact h.congr q.waiting_eq q.length_eq (fun s => Connection.answer?_followNext s c) q.log_eq

/-- An entry in the log that reports something else. -/
theorem logged (h : InOrder c) {entry : LogEntry} (he : ∀ t, entry ≠ .answeredTwice t) :
    InOrder { c with log := c.log ++ [entry] } := by
  refine ⟨h.length_le, h.waiting_eq, h.answered, h.vacant, fun t ht => ?_⟩
  rcases List.mem_append.1 ht with ht | ht
  · exact h.sane t ht
  · exact he t (List.mem_singleton.1 ht).symm

end InOrder

end SortedSets

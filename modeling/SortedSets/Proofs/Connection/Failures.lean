import SortedSets.Proofs.Connection.Refused

/-!
# Commands that end without a reply

Only bytes that arrive bring replies. A command may be given up, it may expire as soon as it is sent,
and the transport may be lost: whoever is told something then is told of a failure, or that the
command was given up.

## Main definitions

* `Connection.Unreplied`: nothing that is due follows from a reply

## Main results

* `Connection.outcome_cancel`, `Connection.isReply_execute`, `Connection.isReply_lose`: what is told
  when a command is given up, when one is sent, and when the transport is lost
-/

namespace SortedSets

variable {Listener : Type} {c : Connection Listener} {t : Ticket} {n : Notice Listener}

namespace Connection

/-! ## What is settled -/

theorem outcome_settle {o : Outcome} (hn : n ∈ (c.settle t o).2) : n.outcome = o := by
  unfold settle at hn
  dsimp only at hn
  split at hn
  · rw [List.mem_singleton.1 hn]
  · cases hn

theorem outcome_settleAll {ps : List (Ticket × Outcome)} {P : Outcome → Prop}
    (ho : ∀ p ∈ ps, P p.2) (hn : n ∈ (c.settleAll ps).2) : P n.outcome := by
  induction ps generalizing c with
  | nil => cases hn
  | cons p ps ih =>
    rw [settleAll] at hn
    rcases List.mem_append.1 hn with hn | hn
    · rw [outcome_settle hn]
      exact ho p List.mem_cons_self
    · exact ih (fun q hq => ho q (List.mem_cons_of_mem p hq)) hn

theorem due_vacate (t : Ticket) (c : Connection Listener) :
    (c.vacate t).due = c.due ∨ (c.vacate t).due = c.due ++ [.answered t .cancelled] := by
  unfold vacate
  split
  · exact .inl rfl
  · split
    · exact .inl rfl
    · rcases answer_cases t .cancelled c with ⟨h, -⟩ | ⟨-, -, h⟩ | ⟨a, -, -, h⟩
      · exact .inl (by rw [h])
      · exact .inr (by rw [h])
      · exact .inl (by rw [h])

/-! ## Commands that are given up -/

/-- A place that was given up settles whatever hangs on it as given up. -/
theorem settlements_cancelled {role : Role} {p : Ticket × Outcome}
    (hp : p ∈ role.settlements t .cancelled) : p.2 = .cancelled := by
  cases role with
  | plain | queued => rw [List.mem_singleton.1 hp]
  | ending discards queue =>
    rcases List.mem_append.1 hp with hp | hp
    · cases discards <;>
      · obtain ⟨u, -, rfl⟩ := List.mem_map.1 hp
        rfl
    · rw [List.mem_singleton.1 hp]

theorem outcome_giveUp (hn : n ∈ (c.giveUp t).2) : n.outcome = .cancelled := by
  unfold giveUp at hn
  split at hn
  · cases hn
  · split at hn
    · cases hn
    · split at hn
      · exact outcome_settle hn
      · cases hn

/-- Nothing is due after a command was given up, or what follows from its place. -/
theorem due_giveUp (hd : c.due = []) (t : Ticket) :
    (c.giveUp t).1.due = [] ∨ (c.giveUp t).1.due = [.answered t .cancelled] := by
  rcases giveUp_cases t c with ⟨h, -⟩ | ⟨-, -, h⟩ | ⟨-, -, h⟩
  · exact .inl (by rw [h, hd])
  · exact .inl (by rw [h]; exact hd)
  · rw [h]
    simpa [hd] using due_vacate t c

/-- When a command is given up, nothing else is told than that. -/
theorem outcome_cancel (hd : c.due = []) (hn : n ∈ (c.cancel t).2) : n.outcome = .cancelled := by
  have hcancel : (c.cancel t).2 = (c.giveUp t).2 ++ (c.giveUp t).1.followAll.2 := rfl
  rw [hcancel] at hn
  rcases List.mem_append.1 hn with hn | hn
  · exact outcome_giveUp hn
  · rcases due_giveUp hd t with h | h
    · simp [followAll, followMany, h] at hn
    · simp only [followAll, followMany, followNext, h, List.length_singleton, List.append_nil,
        follow, conclude] at hn
      split at hn
      · cases hn
      · exact outcome_settleAll (P := (· = .cancelled)) (fun p => settlements_cancelled) hn

/-! ## Commands that fail -/

/-- A failure settles nothing by a reply. -/
theorem isReply_settlements {o : Outcome} (ho : o.isReply = false) {role : Role}
    {p : Ticket × Outcome} (hp : p ∈ role.settlements t o) : p.2.isReply = false := by
  cases o with
  | reply r => cases ho
  | cancelled => rw [settlements_cancelled hp]; rfl
  | failed e =>
    cases role with
    | plain | queued => rw [List.mem_singleton.1 hp]; rfl
    | ending discards queue =>
      rcases List.mem_append.1 hp with hp | hp
      · cases discards <;>
        · obtain ⟨u, -, rfl⟩ := List.mem_map.1 hp
          rfl
      · rw [List.mem_singleton.1 hp]
        rfl

/-- Nothing that is due follows from a reply. -/
def Unreplied (c : Connection Listener) : Prop :=
  ∀ t o, .answered t o ∈ c.due → o.isReply = false

theorem Unreplied.of_due (hd : c.due = []) : c.Unreplied := by
  intro t o ho
  rw [hd] at ho
  cases ho

theorem isReply_followNext (h : c.Unreplied) (hn : n ∈ c.followNext.2) :
    n.outcome.isReply = false := by
  unfold followNext at hn
  split at hn
  · cases hn
  · next d ds hd =>
    cases d with
    | answered t o =>
      -- what is due is no reply, and settles nobody with one
      have ho := h t o (hd ▸ List.mem_cons_self)
      simp only [follow, conclude] at hn
      split at hn
      · cases hn
      · exact outcome_settleAll (P := (·.isReply = false)) (fun p => isReply_settlements ho) hn
    | lost =>
      refine outcome_settleAll (P := (·.isReply = false)) (fun p hp => ?_) hn
      obtain ⟨t, -, rfl⟩ := List.mem_map.1 hp
      rfl

theorem Unreplied.followNext (h : c.Unreplied) : c.followNext.1.Unreplied := by
  intro t o ho
  rw [due_followNext] at ho
  exact h t o (List.mem_of_mem_tail ho)

theorem isReply_followMany (h : c.Unreplied) (k : Nat) (hn : n ∈ (c.followMany k).2) :
    n.outcome.isReply = false := by
  induction k generalizing c with
  | zero => cases hn
  | succ k ih =>
    rcases List.mem_append.1 hn with hn | hn
    · exact isReply_followNext h hn
    · exact ih h.followNext hn

theorem isReply_startTimeout (hn : n ∈ (c.startTimeout t).2) : n.outcome.isReply = false := by
  unfold startTimeout at hn
  split at hn
  · unfold expire at hn
    split at hn
    · cases hn
    · split at hn
      · cases hn
      · rw [outcome_settle hn]
        rfl
  · rw [outcome_settle hn]
    rfl
  · cases hn

theorem Unreplied.startTimeout (h : c.Unreplied) (t : Ticket) : (c.startTimeout t).1.Unreplied := by
  have hsettle (o : Outcome) : (c.settle t o).1.Unreplied := h
  unfold Connection.startTimeout
  split
  · rcases expire_cases t c with ⟨he, -⟩ | ⟨-, -, he⟩ | ⟨-, -, he⟩
    · rw [he]
      exact h
    · rw [he]
      exact hsettle _
    · rw [he]
      intro u o ho
      -- all that can have become due is that the place was given up
      rcases due_vacate t (c.settle t (.failed .timedOut)).1 with hd | hd
      · rw [hd] at ho
        exact hsettle _ u o ho
      · rw [hd] at ho
        rcases List.mem_append.1 ho with ho | ho
        · exact hsettle _ u o ho
        · cases List.mem_singleton.1 ho
          rfl
  · exact hsettle _
  · exact h

/-- Sending a command brings nobody a reply. -/
theorem isReply_execute (hd : c.due = []) {name : Value} {args : List Value} {l : Listener}
    (hn : n ∈ (c.execute name args l).notices) : n.outcome.isReply = false := by
  -- nothing is due while the command is sent, and what its timeout brings is no reply
  have hsubmit : (∀ m ∈ (c.submit name args l).notices, m.outcome.isReply = false) ∧
      (c.submit name args l).connection.Unreplied := by
    unfold submit
    split
    · exact ⟨by simp, .of_due hd⟩
    · dsimp only
      split
      · refine ⟨by simp, .of_due ?_⟩
        rw [emit_frame]
        exact hd
      · refine ⟨fun m hm => isReply_startTimeout hm, Unreplied.startTimeout (.of_due ?_) _⟩
        rw [enrol_eq, emit_frame]
        exact hd
  rcases List.mem_append.1 hn with hn | hn
  · exact hsubmit.1 n hn
  · exact isReply_followMany hsubmit.2 _ hn

/-- The loss of the transport brings nobody a reply. -/
theorem isReply_lose (hd : c.due = []) {e : Option Error} (hn : n ∈ (c.lose e).2) :
    n.outcome.isReply = false := by
  -- whoever waits is given a failure, one after the other
  have hfail (e : Error) (k : Nat) : (c.failWaiting e k).Unreplied := by
    refine failWaiting_induction (P := Unreplied) (fun d h => ?_) k (.of_due hd)
    unfold answerNext
    split
    · exact h
    · next t waiting _ =>
      rcases answer_cases t (.failed e) { d with waiting := waiting } with
        ⟨he, -⟩ | ⟨-, -, he⟩ | ⟨a, -, -, he⟩
      · rw [he]
        exact h
      · rw [he]
        intro u o ho
        rcases List.mem_append.1 ho with ho | ho
        · exact h u o ho
        · cases List.mem_singleton.1 ho
          rfl
      · rw [he]
        exact h
  refine isReply_followMany ?_ _ hn
  intro u o ho
  unfold drop at ho
  dsimp only at ho
  split at ho
  · rcases List.mem_append.1 ho with ho | ho
    · exact hfail _ _ u o ho
    · cases List.mem_singleton.1 ho
  · exact hfail _ _ u o ho

end Connection

end SortedSets

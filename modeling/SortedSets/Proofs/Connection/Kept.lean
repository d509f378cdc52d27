import SortedSets.Proofs.Connection.Event
import SortedSets.Proofs.Connection.Operations

/-!
# What stays in a run

Whatever happens to a connection is made of four steps: an outcome, an answer, a new command, and
changes that leave the exchanges alone. A property of the exchanges that these keep is kept by
every run.

## Main definitions

* `Connection.Kept`: a property that the four steps keep

## Main results

* `Connection.Kept.run`: such a property is kept by every run
* `Connection.role?_run`, `Connection.answer?_run`, `Connection.outcome?_run`: the role, the first
  answer and the first outcome of a command stay
-/

namespace SortedSets

open Wire (Reply)

variable {Listener : Type}

namespace Connection

/-- A property of the exchanges that outcomes, answers and new commands keep. -/
structure Kept (P : Connection Listener → Prop) : Prop where
  congr : ∀ {c d}, P c → d.exchanges = c.exchanges → P d
  settle : ∀ {c} t o, P c → P (c.settle t o).1
  answer : ∀ {c} t o, P c → P (c.answer t o)
  enlist : ∀ {c} role l, P c → P (c.enlist role l)

namespace Kept

variable {P : Connection Listener → Prop} {c : Connection Listener}

theorem settleAll (k : Kept P) (ps : List (Ticket × Outcome)) (h : P c) :
    P (c.settleAll ps).1 := by
  induction ps generalizing c with
  | nil => exact h
  | cons p ps ih => exact ih (k.settle p.1 p.2 h)

theorem vacate (k : Kept P) (t : Ticket) (h : P c) : P (c.vacate t) := by
  unfold Connection.vacate
  split
  · exact h
  · split
    · exact h
    · exact k.answer t .cancelled h

theorem giveUp (k : Kept P) (t : Ticket) (h : P c) : P (c.giveUp t).1 := by
  rcases giveUp_cases t c with ⟨he, -⟩ | ⟨-, -, he⟩ | ⟨-, -, he⟩
  · -- the command has ended already
    rwa [he]
  · -- a command of a transaction: an outcome
    rw [he]
    exact k.settle t .cancelled h
  · -- another command: an answer
    rw [he]
    exact k.vacate t h

theorem expire (k : Kept P) (t : Ticket) (h : P c) : P (c.expire t).1 := by
  rcases expire_cases t c with ⟨he, -⟩ | ⟨-, -, he⟩ | ⟨-, -, he⟩
  · rwa [he]
  · rw [he]
    exact k.settle t _ h
  · rw [he]
    exact k.vacate t (k.settle t _ h)

theorem submit (k : Kept P) (name : Value) (args : List Value) (l : Listener) (h : P c) :
    P (c.submit name args l).connection := by
  have he (data : Bytes) : P (c.emit data) := k.congr h (by rw [emit_frame])
  rcases submit_cases name args l c with ⟨e, -, hs, -⟩ | ⟨data, e, -, -, hs, -⟩ |
    ⟨data, verb, -, -, hs, -⟩
  · -- the command is refused
    rwa [hs]
  · -- a new command that nobody listens to
    rw [hs]
    exact k.enlist .plain none (he data)
  · -- a new command, which its timeout may end at once
    rw [hs]
    have hn : P ((c.emit data).enrol verb l) :=
      k.congr (k.enlist (nextRole verb (c.emit data)) (some l) (he data)) rfl
    unfold startTimeout
    split
    · exact k.expire _ hn
    · exact k.settle _ _ hn
    · exact hn

theorem answerNext (k : Kept P) (o : Outcome) (h : P c) : P (c.answerNext o) := by
  unfold Connection.answerNext
  split
  · exact h
  · exact k.answer _ o (k.congr h rfl)

theorem deliver (k : Kept P) (piece : Bytes) (h : P c) : P (c.deliver piece) := by
  have hr : P { c with reader := (c.reader.feed piece).2 } := k.congr h rfl
  -- replies are strays, which leave the exchanges alone, or answers
  rw [deliver_frame]
  refine k.congr (assign_induction ?_ ?_ (c.reader.feed piece).1 hr) rfl
  · exact fun _ _ h => k.congr h rfl
  · exact fun _ r h => k.answerNext r.outcome h

theorem follow (k : Kept P) (h : P c) : P c.followNext.1 := by
  rcases followNext_cases c with ⟨-, he⟩ | ⟨t, o, ds, -, he⟩ | ⟨ds, -, he⟩
  · rwa [he]
  · rw [he]
    exact k.congr (k.settleAll (c.settlements t o) h) rfl
  · rw [he]
    exact k.congr (k.settleAll _ h) rfl

theorem step (k : Kept P) (e : Event Listener) (h : P c) : P (c.step e) := by
  cases e with
  | submit name args l => exact k.submit name args l h
  | giveUp t => exact k.giveUp t h
  | abandon t => exact k.settle t .cancelled h
  | expire t => exact k.expire t h
  | deliver piece => exact k.deliver piece h
  | follow => exact k.follow h
  | enterBuffer => exact k.congr h rfl
  | leaveBuffer => exact k.congr h (by rw [Connection.step, leaveBuffer_frame])
  | close => exact k.congr h (by rw [Connection.step, close_frame])
  | drop e =>
    -- the failure of each command that waits is an answer
    obtain ⟨e', he⟩ := drop_frame e c
    rw [Connection.step, he]
    exact k.congr (failWaiting_induction (fun _ h => k.answerNext _ h) _ h) rfl

/-- What the elementary steps keep is kept by every run. -/
theorem run (k : Kept P) (es : List (Event Listener)) (h : P c) : P (c.run es) := by
  -- Induction on the events, from the connection that each of them leaves.
  induction es generalizing c with
  | nil => exact h
  | cons e es ih => exact ih (k.step e h)

end Kept

variable {c : Connection Listener} {t : Ticket}

/-- The role of a command stays. -/
theorem role?_run {r : Role} (h : c.role? t = some r) (es : List (Event Listener)) :
    (c.run es).role? t = some r := by
  refine Kept.run (P := fun c => c.role? t = some r) ⟨?_, ?_, ?_, ?_⟩ es h
  · intro c d hc he
    rwa [role?, he]
  · intro c s o hc
    rwa [role?_settle]
  · intro c s o hc
    rwa [role?_answer]
  · -- the new command is another one
    intro c role l hc
    rwa [role?_enlist, if_neg (Nat.ne_of_lt (lt_of_role? hc))]

/-- The first answer to a command stays. -/
theorem answer?_run {o : Outcome} (h : c.answer? t = some o) (es : List (Event Listener)) :
    (c.run es).answer? t = some o := by
  refine Kept.run (P := fun c => c.answer? t = some o) ⟨?_, ?_, ?_, ?_⟩ es h
  · intro c d hc he
    rwa [answer?, he]
  · intro c s a hc
    rwa [answer?_settle]
  · intro c s a hc
    exact answer?_answer_of_some hc s a
  · intro c role l hc
    rwa [answer?_enlist]

/-- The first outcome of a command stays. -/
theorem outcome?_run {o : Outcome} (h : c.outcome? t = some o) (es : List (Event Listener)) :
    (c.run es).outcome? t = some o := by
  refine Kept.run (P := fun c => c.outcome? t = some o) ⟨?_, ?_, ?_, ?_⟩ es h
  · intro c d hc he
    rwa [outcome?, he]
  · intro c s a hc
    exact outcome?_settle_of_some hc s a
  · intro c s a hc
    rwa [outcome?_answer]
  · intro c role l hc
    rwa [outcome?_enlist]

theorem outcome?_run_ne_none (h : c.outcome? t ≠ none) (es : List (Event Listener)) :
    (c.run es).outcome? t ≠ none := by
  obtain ⟨o, ho⟩ := Option.ne_none_iff_exists'.1 h
  rw [outcome?_run ho]
  exact Option.some_ne_none o

end Connection

end SortedSets

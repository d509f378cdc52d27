import SortedSets.Proofs.Connection.Exchanges

/-!
# The operations of a connection

What each operation does, said once: what follows from an answer, where the next answer goes, what
the replies of a piece change, and what becomes of a command that is handed over. What an operation
leaves alone is said by an equation between the connection after it and the one before it.

## Main definitions

* `Connection.nextRole`, `Connection.nextTransaction`: what the next command is

## Main results

* `Connection.followNext_answered`, `Connection.followNext_lost`: what is due happens
* `Connection.assign_induction`, `Connection.failWaiting_induction`: many answers are made of
  single ones
* `Connection.deliver_frame`, `Connection.drop_frame`, `Connection.leaveBuffer_frame`,
  `Connection.close_frame`, `Connection.emit_frame`: what the other operations leave alone
* `Connection.submit_cases`: what becomes of a command that is handed over
-/

namespace SortedSets

open Wire (Reply)

variable {Listener : Type}

namespace Connection

/-! ## What is due -/

theorem followNext_nil {c : Connection Listener} (h : c.due = []) : c.followNext.1 = c := by
  simp [followNext, h]

/-- From an answer it follows that what it settles is settled. -/
theorem followNext_answered {c : Connection Listener} {t : Ticket} {o : Outcome}
    {ds : List Consequence} (h : c.due = .answered t o :: ds) :
    c.followNext.1 = { (c.settleAll (c.settlements t o)).1 with due := ds } := by
  simp only [followNext, h, follow, conclude]
  cases hx : c.exchanges[t]? with
  | none =>
    have hs : c.settlements t o = [] := by simp [settlements, role?, hx]
    rw [hs]
    rfl
  | some x =>
    have hs : c.settlements t o = x.role.settlements t o := by simp [settlements, role?, hx]
    rw [hs]
    exact settleAll_comm (f := fun c => { c with due := ds }) (fun _ _ _ => rfl) _ c

/-- From the loss of the transport it follows that the open transaction fails. -/
theorem followNext_lost {c : Connection Listener} {ds : List Consequence}
    (h : c.due = .lost :: ds) :
    c.followNext.1 =
      { (c.settleAll ((c.transaction.getD []).map fun t =>
          (t, .failed (.closed .insideTransaction)))).1 with
        due := ds
        transaction := none } := by
  simp only [followNext, h, follow, failTransaction]
  exact settleAll_comm (f := fun c => { c with due := ds, transaction := none })
    (fun _ _ _ => rfl) _ c

/-- What the oldest of what is due does. -/
theorem followNext_cases (c : Connection Listener) :
    (c.due = [] ∧ c.followNext.1 = c) ∨
      (∃ t o ds, c.due = .answered t o :: ds ∧
        c.followNext.1 = { (c.settleAll (c.settlements t o)).1 with due := ds }) ∨
      ∃ ds, c.due = .lost :: ds ∧
        c.followNext.1 =
          { (c.settleAll ((c.transaction.getD []).map fun t =>
              (t, .failed (.closed .insideTransaction)))).1 with
            due := ds
            transaction := none } := by
  cases hd : c.due with
  | nil => exact .inl ⟨rfl, followNext_nil hd⟩
  | cons d ds =>
    cases d with
    | answered t o => exact .inr (.inl ⟨t, o, ds, rfl, followNext_answered hd⟩)
    | lost => exact .inr (.inr ⟨ds, rfl, followNext_lost hd⟩)

/-- What is due gives no answers. -/
@[simp] theorem answer?_followNext (s : Ticket) (c : Connection Listener) :
    c.followNext.1.answer? s = c.answer? s := by
  rcases followNext_cases c with ⟨-, h⟩ | ⟨t, o, ds, -, h⟩ | ⟨ds, -, h⟩
  · rw [h]
  · rw [h]
    exact answer?_settleAll _ s c
  · rw [h]
    exact answer?_settleAll _ s c

/-- What is due happens one after the other. -/
theorem due_followNext (c : Connection Listener) : c.followNext.1.due = c.due.tail := by
  rcases followNext_cases c with ⟨hd, h⟩ | ⟨t, o, ds, hd, h⟩ | ⟨ds, hd, h⟩
  · rw [h, hd, List.tail_nil]
  · rw [h, hd, List.tail_cons]
  · rw [h, hd, List.tail_cons]

/-! ## The next answer -/

/-- An answer changes neither what was sent nor whether more can be sent. -/
theorem answer_frame (t : Ticket) (o : Outcome) (c : Connection Listener) :
    c.answer t o =
      { c with
        exchanges := (c.answer t o).exchanges
        due := (c.answer t o).due
        log := (c.answer t o).log } := by
  rcases answer_cases t o c with ⟨h, -⟩ | ⟨-, -, h⟩ | ⟨-, -, -, h⟩ <;> rw [h]

theorem answerNext_nil {c : Connection Listener} (h : c.waiting = []) (o : Outcome) :
    c.answerNext o = c := by
  simp [answerNext, h]

theorem answerNext_cons {c : Connection Listener} {t : Ticket} {ws : List Ticket}
    (h : c.waiting = t :: ws) (o : Outcome) :
    c.answerNext o = { c with waiting := ws }.answer t o := by
  simp [answerNext, h]

/-- Whoever takes the next answer waits no longer. -/
theorem answerNext_frame (o : Outcome) (c : Connection Listener) :
    c.answerNext o =
      { c with
        waiting := c.waiting.tail
        exchanges := (c.answerNext o).exchanges
        due := (c.answerNext o).due
        log := (c.answerNext o).log } := by
  cases hw : c.waiting with
  | nil =>
    rw [answerNext_nil hw, List.tail_nil, ← hw]
  | cons t ws =>
    rw [answerNext_cons hw, answer_frame]
    rfl

theorem waiting_answerNext (o : Outcome) (c : Connection Listener) :
    (c.answerNext o).waiting = c.waiting.tail := by
  rw [answerNext_frame]

@[simp] theorem length_exchanges_answerNext (o : Outcome) (c : Connection Listener) :
    (c.answerNext o).exchanges.length = c.exchanges.length := by
  unfold answerNext
  split
  · rfl
  · exact length_exchanges_answer ..

@[simp] theorem role?_answerNext (s : Ticket) (o : Outcome) (c : Connection Listener) :
    (c.answerNext o).role? s = c.role? s := by
  unfold answerNext
  split
  · rfl
  · exact role?_answer ..

section Vacant

variable {c : Connection Listener} {t : Ticket} {ws : List Ticket} {o : Outcome}
  (ht : t < c.exchanges.length) (hv : ∀ a, c.answer? t = some a → a = .cancelled)
  (hw : c.waiting = t :: ws)

include ht hv hw

/-- The next answer is not reported if the place of the command can take it. -/
theorem log_answerNext : (c.answerNext o).log = c.log := by
  rw [answerNext_cons hw]
  exact (quiet_answer (c := { c with waiting := ws }) ht hv o).log_eq

theorem answer?_answerNext (s : Ticket) :
    (c.answerNext o).answer? s = if s = t then c.answer? s <|> some o else c.answer? s := by
  rw [answerNext_cons hw]
  exact answer?_answer_of_vacant (c := { c with waiting := ws }) ht hv o s

end Vacant

/-! ## Many answers -/

/-- Replies are strays or next answers. -/
theorem assign_induction {P : Connection Listener → Prop}
    (hs : ∀ c r, P c → P { c with log := c.log ++ [.stray r] })
    (ha : ∀ c r, P c → P (c.answerNext (Reply.outcome r))) (rs : List Reply)
    {c : Connection Listener} (h : P c) : P (c.assign rs) := by
  induction rs generalizing c with
  | nil => exact h
  | cons r rs ih =>
    rw [assign]
    split
    · exact ih (hs c r h)
    · exact ih (ha c r h)

/-- The failure of those that wait is made of next answers. -/
theorem failWaiting_induction {P : Connection Listener → Prop}
    {e : Error} (ha : ∀ c, P c → P (c.answerNext (.failed e))) (n : Nat)
    {c : Connection Listener} (h : P c) : P (c.failWaiting e n) := by
  induction n generalizing c with
  | zero => exact h
  | succ n ih => exact ih (ha c h)

/-- So many answers are taken by so many of the commands that wait. -/
theorem failWaiting_frame (e : Error) (n : Nat) (c : Connection Listener) :
    c.failWaiting e n =
      { c with
        waiting := c.waiting.drop n
        exchanges := (c.failWaiting e n).exchanges
        due := (c.failWaiting e n).due
        log := (c.failWaiting e n).log } := by
  induction n generalizing c with
  | zero => rfl
  | succ n ih =>
    rw [failWaiting, ih, answerNext_frame]
    simp

theorem assign_frame (rs : List Reply) (c : Connection Listener) :
    c.assign rs =
      { c with
        waiting := c.waiting.drop rs.length
        exchanges := (c.assign rs).exchanges
        due := (c.assign rs).due
        log := (c.assign rs).log } := by
  induction rs generalizing c with
  | nil => rfl
  | cons r rs ih =>
    rw [assign]
    split
    · next hw =>
      rw [ih]
      simp [List.isEmpty_iff.1 hw]
    · rw [ih, answerNext_frame]
      simp

/-- Bytes that arrive change what the replies in them change, and besides only what is reported of
the stream. -/
theorem deliver_frame (piece : Bytes) (c : Connection Listener) :
    c.deliver piece =
      { ({ c with reader := (c.reader.feed piece).2 } : Connection Listener).assign
          (c.reader.feed piece).1 with
        log := (c.deliver piece).log
        cause := (c.deliver piece).cause
        closes := (c.deliver piece).closes } := by
  unfold deliver
  dsimp only
  split <;> rfl

/-- The loss of the transport fails the commands that wait. -/
theorem drop_frame (e : Option Error) (c : Connection Listener) :
    ∃ e', c.drop e =
      { c.failWaiting e' c.waiting.length with
        attached := false
        due := (c.drop e).due } :=
  ⟨_, rfl⟩

/-! ## Closing -/

theorem leaveBuffer_frame (c : Connection Listener) :
    c.leaveBuffer =
      { c with buffer := none, writes := c.leaveBuffer.writes } := by
  unfold leaveBuffer
  dsimp only
  split <;> rfl

theorem close_frame (c : Connection Listener) :
    c.close = { c with closing := true, cause := c.close.cause, closes := c.close.closes } := by
  unfold close
  split
  · next h => rw [← h]
  · rfl

/-! ## The open transaction -/

@[simp] theorem transaction_answer (t : Ticket) (o : Outcome) (c : Connection Listener) :
    (c.answer t o).transaction = c.transaction := by
  rw [answer_frame]

@[simp] theorem transaction_vacate (t : Ticket) (c : Connection Listener) :
    (c.vacate t).transaction = c.transaction := by
  unfold vacate
  split
  · rfl
  · split
    · rfl
    · exact transaction_answer ..

theorem transaction_giveUp (t : Ticket) (c : Connection Listener) :
    (c.giveUp t).1.transaction = c.transaction := by
  rcases giveUp_cases t c with ⟨h, -⟩ | ⟨-, -, h⟩ | ⟨-, -, h⟩
  · rw [h]
  · rw [h]
    rfl
  · rw [h, transaction_vacate]

theorem transaction_expire (t : Ticket) (c : Connection Listener) :
    (c.expire t).1.transaction = c.transaction := by
  rcases expire_cases t c with ⟨h, -⟩ | ⟨-, -, h⟩ | ⟨-, -, h⟩
  · rw [h]
  · rw [h]
    rfl
  · rw [h, transaction_vacate]
    rfl

theorem transaction_startTimeout (t : Ticket) (c : Connection Listener) :
    (c.startTimeout t).1.transaction = c.transaction := by
  unfold startTimeout
  split
  · exact transaction_expire t c
  · rfl
  · rfl

/-- What is due may give up the open transaction. -/
theorem transaction_followNext (c : Connection Listener) :
    c.followNext.1.transaction = c.transaction ∨ c.followNext.1.transaction = none := by
  rcases followNext_cases c with ⟨-, h⟩ | ⟨t, o, ds, -, h⟩ | ⟨ds, -, h⟩
  · exact .inl (by rw [h])
  · exact .inl (by rw [h, settleAll_eq])
  · exact .inr (by rw [h])

/-- An answer makes no loss of the transport due. -/
theorem lost_notMem_answerNext {c : Connection Listener} (h : .lost ∉ c.due) (o : Outcome) :
    .lost ∉ (c.answerNext o).due := by
  unfold answerNext
  split
  · exact h
  · next t ws _ =>
    rcases answer_cases t o { c with waiting := ws } with ⟨he, -⟩ | ⟨-, -, he⟩ | ⟨a, -, -, he⟩
    · rwa [he]
    · rw [he]
      simpa using h
    · rwa [he]

theorem transaction_followMany {c : Connection Listener} (h : .lost ∉ c.due) (n : Nat) :
    (c.followMany n).1.transaction = c.transaction := by
  induction n generalizing c with
  | zero => rfl
  | succ n ih =>
    have hnext : .lost ∉ c.followNext.1.due := by
      rw [due_followNext]
      exact fun hm => h (List.mem_of_mem_tail hm)
    refine (ih hnext).trans ?_
    rcases followNext_cases c with ⟨-, he⟩ | ⟨t, o, ds, -, he⟩ | ⟨ds, hd, -⟩
    · rw [he]
    · rw [he, settleAll_eq]
    · exact absurd (hd ▸ List.mem_cons_self) h

/-- Bytes that arrive leave the transaction open. -/
theorem transaction_receive {c : Connection Listener} (h : c.due = []) (piece : Bytes) :
    (c.receive piece).1.transaction = c.transaction := by
  have hassigned : .lost ∉ (({ c with reader := (c.reader.feed piece).2 } :
      Connection Listener).assign (c.reader.feed piece).1).due := by
    refine assign_induction (P := fun d => .lost ∉ d.due) ?_ ?_ _ ?_
    · exact fun _ _ hd => hd
    · exact fun _ r hd => lost_notMem_answerNext hd r.outcome
    · rw [h]
      exact List.not_mem_nil
  have hdelivered : .lost ∉ (c.deliver piece).due := by
    rw [deliver_frame]
    exact hassigned
  refine (transaction_followMany hdelivered _).trans ?_
  rw [deliver_frame, assign_frame]

/-! ## New commands -/

section Enlisted

variable (role : Role) (l : Option Listener) (c : Connection Listener)

@[simp] theorem length_exchanges_enlist :
    (c.enlist role l).exchanges.length = c.exchanges.length + 1 := by
  simp [enlist]

theorem role?_enlist (s : Ticket) :
    (c.enlist role l).role? s = if s = c.exchanges.length then some role else c.role? s := by
  simp only [role?, enlist, List.getElem?_append]
  split
  · next hs => rw [if_neg (Nat.ne_of_lt hs)]
  · next hs =>
    split
    · next he => simp [he, Exchange.fresh]
    · next he =>
      have h₁ : c.exchanges[s]? = none := List.getElem?_eq_none (Nat.not_lt.1 hs)
      have h₂ : s - c.exchanges.length ≠ 0 := by grind
      simp [h₁, h₂]

theorem answer?_enlist (s : Ticket) : (c.enlist role l).answer? s = c.answer? s :=
  bind_getElem?_concat rfl c.exchanges s

theorem outcome?_enlist (s : Ticket) : (c.enlist role l).outcome? s = c.outcome? s :=
  bind_getElem?_concat rfl c.exchanges s

end Enlisted

/-- The role of the next command. -/
def nextRole (verb : Verb) (c : Connection Listener) : Role :=
  (classify verb c.transaction c.exchanges.length).1

/-- The transaction after the next command. -/
def nextTransaction (verb : Verb) (c : Connection Listener) : Option (List Ticket) :=
  (classify verb c.transaction c.exchanges.length).2

theorem enrol_eq (verb : Verb) (l : Listener) (c : Connection Listener) :
    c.enrol verb l =
      { c.enlist (c.nextRole verb) (some l) with transaction := c.nextTransaction verb } := rfl

theorem emit_frame (data : Bytes) (c : Connection Listener) :
    c.emit data = { c with buffer := (c.emit data).buffer, writes := (c.emit data).writes } := by
  unfold emit
  split <;> rfl

/-- A command that was enrolled has the next ticket. -/
theorem lt_length_exchanges_enrol (verb : Verb) (l : Listener) (c : Connection Listener)
    (data : Bytes) : c.exchanges.length < ((c.emit data).enrol verb l).exchanges.length := by
  rw [enrol_eq, emit_frame]
  exact Nat.lt_of_lt_of_eq (Nat.lt_succ_self _) (length_exchanges_enlist ..).symm

theorem isNone_of_isWord {name : Value}
    (h : name.text?.isSome = true ∨ name.bytes?.isSome = true) :
    (name.text?.isNone && name.bytes?.isNone) = false := by
  rw [← Option.not_isSome, ← Option.not_isSome]
  rcases h with h | h
  · rw [h]
    rfl
  · rw [h]
    exact Bool.and_false _

/-- Over an open connection a command with a name is sent if it can be encoded. -/
theorem requestOf_of_open {name : Value} {args : List Value} {c : Connection Listener}
    (hn : name.text?.isSome = true ∨ name.bytes?.isSome = true) (ho : c.isClosed = false) :
    c.requestOf name args = Wire.encode (name :: args) := by
  simp only [requestOf, isNone_of_isWord hn, ho]
  rfl

/-- Over a closed one it is refused. -/
theorem requestOf_of_isClosed {name : Value} {c : Connection Listener}
    (hn : name.text?.isSome = true ∨ name.bytes?.isSome = true) (h : c.isClosed = true)
    (args : List Value) : c.requestOf name args = .error (.closed .before) := by
  simp only [requestOf, isNone_of_isWord hn, h]
  rfl

/-- A command is sent if its name is a text or a byte string, the connection is open, and it can be
encoded. -/
theorem requestOf_eq_ok_iff {name : Value} {args : List Value} {c : Connection Listener}
    {data : Bytes} :
    c.requestOf name args = .ok data ↔
      (name.text?.isSome = true ∨ name.bytes?.isSome = true) ∧ c.isClosed = false ∧
        Wire.encode (name :: args) = .ok data := by
  by_cases hn : name.text?.isSome = true ∨ name.bytes?.isSome = true
  · cases ho : c.isClosed with
    | true =>
      rw [requestOf_of_isClosed hn ho]
      exact iff_of_false nofun nofun
    | false =>
      rw [requestOf_of_open hn ho]
      simp only [hn, true_and]
  · refine iff_of_false (fun h => ?_) fun h => hn h.1
    have hnone : (name.text?.isNone && name.bytes?.isNone) = true := by
      simpa [Option.isNone_iff_eq_none] using hn
    simp only [requestOf, hnone] at h
    cases h

/-- A command is sent only while the connection is open. -/
theorem isClosed_of_requestOf {name : Value} {args : List Value} {c : Connection Listener}
    {data : Bytes} (h : c.requestOf name args = .ok data) : c.isClosed = false :=
  (requestOf_eq_ok_iff.1 h).2.1

/-- A command is sent only while the transport is there. -/
theorem attached_of_requestOf {name : Value} {args : List Value} {c : Connection Listener}
    {data : Bytes} (h : c.requestOf name args = .ok data) : c.attached = true := by
  have hc := isClosed_of_requestOf h
  rw [isClosed, Bool.or_eq_false_iff] at hc
  simpa using hc.2

/-- A command is refused, or leaves an exchange behind without a role in a transaction, or is
enrolled under the next ticket and its timeout starts. -/
theorem submit_cases (name : Value) (args : List Value) (l : Listener) (c : Connection Listener) :
    (∃ e, c.requestOf name args = .error e ∧ (c.submit name args l).connection = c ∧
        (c.submit name args l).ticket = .error e) ∨
      (∃ data e, c.requestOf name args = .ok data ∧ Verb.ofWord name = .error e ∧
        (c.submit name args l).connection = (c.emit data).enlist .plain none ∧
        (c.submit name args l).ticket = .error e) ∨
      ∃ data verb, c.requestOf name args = .ok data ∧ Verb.ofWord name = .ok verb ∧
        (c.submit name args l).connection =
          (((c.emit data).enrol verb l).startTimeout c.exchanges.length).1 ∧
        (c.submit name args l).ticket = .ok c.exchanges.length := by
  cases hd : c.requestOf name args with
  | error e => exact .inl ⟨e, rfl, by simp [submit, hd], by simp [submit, hd]⟩
  | ok data =>
    refine .inr ?_
    cases hv : Verb.ofWord name with
    | error e => exact .inl ⟨data, e, rfl, rfl, by simp [submit, hd, hv], by simp [submit, hd, hv]⟩
    | ok verb =>
      have hl : (c.emit data).exchanges.length = c.exchanges.length := by rw [emit_frame]
      refine .inr ⟨data, verb, rfl, rfl, ?_, ?_⟩
      · simp [submit, hd, hv, hl]
      · simp [submit, hd, hv, hl]

end Connection

end SortedSets

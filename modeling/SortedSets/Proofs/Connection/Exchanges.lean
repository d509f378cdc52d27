import Mathlib.Tactic.Common
import SortedSets.Connection.Basic

/-!
# The exchanges of a connection

How the operations on outcomes and answers change the exchanges of a connection: what each
command is, how its place was answered, and how it ended for its caller.

## Main definitions

* `Connection.role?`, `Connection.answer?`, `Connection.outcome?`: what is known of a command
* `Connection.settlements`: what the answer to a command settles
* `Connection.Quiet`: a connection that came from another one by operations that neither send nor
  receive

## Main results

* `Connection.outcome?_settle`: the first outcome of a command stays
* `Connection.outcome?_settleAll_ne_none`: what is settled has an outcome
* `Connection.answer_cases`: an answer goes into an open place, and what follows from it is due
* `Connection.giveUp_cases`, `Connection.expire_cases`: what becomes of a command that is given up
-/

namespace SortedSets

open Wire (Reply)

variable {Listener : Type}

namespace Connection

/-! ## What is known of a command -/

/-- What the reply to a command means. -/
def role? (c : Connection Listener) (t : Ticket) : Option Role :=
  c.exchanges[t]?.map Exchange.role

/-- What the place of a command was given. -/
def answer? (c : Connection Listener) (t : Ticket) : Option Outcome :=
  c.exchanges[t]?.bind Exchange.answer

/-- How a command ended for its caller. -/
def outcome? (c : Connection Listener) (t : Ticket) : Option Outcome :=
  c.exchanges[t]?.bind Exchange.outcome

/-- What the answer to a command settles. -/
def settlements (c : Connection Listener) (t : Ticket) (o : Outcome) : List (Ticket × Outcome) :=
  match c.role? t with
  | some role => role.settlements t o
  | none => []

theorem lt_of_role? {c : Connection Listener} {t : Ticket} {r : Role} (h : c.role? t = some r) :
    t < c.exchanges.length := by
  obtain ⟨x, hx, -⟩ := Option.map_eq_some_iff.1 h
  exact (List.getElem?_eq_some_iff.1 hx).1

theorem lt_of_answer? {c : Connection Listener} {t : Ticket} {o : Outcome}
    (h : c.answer? t = some o) : t < c.exchanges.length := by
  obtain ⟨x, hx, -⟩ := Option.bind_eq_some_iff.1 h
  exact (List.getElem?_eq_some_iff.1 hx).1

theorem exists_role? {c : Connection Listener} {t : Ticket} (h : t < c.exchanges.length) :
    ∃ r, c.role? t = some r :=
  ⟨c.exchanges[t].role, by simp [role?, h]⟩

/-! ## Outcomes -/

/-- What a change of entries leaves alone is the same at every place. -/
theorem bind_getElem?_modify {α β : Type} {f : α → α} {g : α → Option β}
    (h : ∀ x, g (f x) = g x) (xs : List α) (t s : Nat) :
    (xs.modify t f)[s]?.bind g = xs[s]?.bind g := by
  rw [List.getElem?_modify]
  cases xs[s]? with
  | none => rfl
  | some x => split <;> simp [h]

/-- What a new entry does not have is the same at every place. -/
theorem bind_getElem?_concat {α β : Type} {x : α} {g : α → Option β} (h : g x = none)
    (xs : List α) (s : Nat) : (xs ++ [x])[s]?.bind g = xs[s]?.bind g := by
  rw [List.getElem?_append]
  split
  · rfl
  · next hs =>
    rw [List.getElem?_eq_none (Nat.not_lt.1 hs), List.getElem?_singleton]
    split <;> simp [h]

@[simp] theorem role?_settle (t s : Ticket) (o : Outcome) (c : Connection Listener) :
    (c.settle t o).1.role? s = c.role? s := by
  simp only [role?, Option.map_eq_bind]
  exact bind_getElem?_modify (f := Exchange.settled o) (fun _ => rfl) c.exchanges t s

@[simp] theorem answer?_settle (t s : Ticket) (o : Outcome) (c : Connection Listener) :
    (c.settle t o).1.answer? s = c.answer? s :=
  bind_getElem?_modify (f := Exchange.settled o) (fun _ => rfl) c.exchanges t s

@[simp] theorem length_exchanges_settle (t : Ticket) (o : Outcome) (c : Connection Listener) :
    (c.settle t o).1.exchanges.length = c.exchanges.length :=
  List.length_modify ..

/-- Nobody can be settled who was not sent. -/
theorem settle_eq_self_of_le {t : Ticket} {c : Connection Listener}
    (h : c.exchanges.length ≤ t) (o : Outcome) : (c.settle t o).1 = c := by
  rw [settle, List.modify_eq_self h]

/-- The first outcome of a command stays. -/
theorem outcome?_settle (t s : Ticket) (o : Outcome) (c : Connection Listener) :
    (c.settle t o).1.outcome? s =
      if t = s ∧ s < c.exchanges.length then c.outcome? s <|> some o else c.outcome? s := by
  simp only [outcome?, settle, List.getElem?_modify]
  by_cases h : s < c.exchanges.length
  · by_cases ht : t = s <;> simp [h, ht, Exchange.settled]
  · simp [h]

/-- What is settled has an outcome. -/
theorem outcome?_settle_self {t : Ticket} (c : Connection Listener)
    (h : t < c.exchanges.length) (o : Outcome) : (c.settle t o).1.outcome? t ≠ none := by
  rw [outcome?_settle, if_pos ⟨rfl, h⟩]
  cases c.outcome? t <;> simp

/-- An outcome stays. -/
theorem outcome?_settle_of_some {s : Ticket} {a : Outcome} {c : Connection Listener}
    (h : c.outcome? s = some a) (t : Ticket) (o : Outcome) :
    (c.settle t o).1.outcome? s = some a := by
  rw [outcome?_settle, h]
  simp

theorem outcome?_settle_ne_none {s : Ticket} {c : Connection Listener} (h : c.outcome? s ≠ none)
    (t : Ticket) (o : Outcome) : (c.settle t o).1.outcome? s ≠ none := by
  obtain ⟨a, ha⟩ := Option.ne_none_iff_exists'.1 h
  rw [outcome?_settle_of_some ha]
  exact Option.some_ne_none a

/-- An outcome was there before or is the new one. -/
theorem eq_of_outcome?_settle {t s : Ticket} {o a : Outcome} {c : Connection Listener}
    (h : (c.settle t o).1.outcome? s = some a) :
    c.outcome? s = some a ∨ (c.outcome? s = none ∧ s = t ∧ a = o) := by
  rw [outcome?_settle] at h
  split at h
  · -- the command itself, which may have had an outcome before
    next ht =>
    cases hs : c.outcome? s with
    | none =>
      rw [hs] at h
      exact .inr ⟨rfl, ht.1.symm, (Option.some.inj h).symm⟩
    | some b =>
      rw [hs] at h
      exact .inl h
  · exact .inl h

theorem settleAll_cons (p : Ticket × Outcome) (ps : List (Ticket × Outcome))
    (c : Connection Listener) :
    (c.settleAll (p :: ps)).1 = ((c.settle p.1 p.2).1.settleAll ps).1 := rfl

/-- Outcomes change nothing but the exchanges. -/
theorem settleAll_eq (ps : List (Ticket × Outcome)) (c : Connection Listener) :
    (c.settleAll ps).1 = { c with exchanges := (c.settleAll ps).1.exchanges } := by
  induction ps generalizing c with
  | nil => rfl
  | cons p ps ih =>
    rw [settleAll_cons, ih]
    rfl

theorem answer?_settleAll (ps : List (Ticket × Outcome)) (s : Ticket)
    (c : Connection Listener) : (c.settleAll ps).1.answer? s = c.answer? s := by
  induction ps generalizing c with
  | nil => rfl
  | cons p ps ih => rw [settleAll_cons, ih, answer?_settle]

/-- Later outcomes leave an outcome as it is. -/
theorem outcome?_settleAll_of_some {s : Ticket} {a : Outcome} (ps : List (Ticket × Outcome))
    {c : Connection Listener} (h : c.outcome? s = some a) :
    (c.settleAll ps).1.outcome? s = some a := by
  induction ps generalizing c with
  | nil => exact h
  | cons p ps ih =>
    rw [settleAll_cons]
    exact ih (outcome?_settle_of_some h p.1 p.2)

/-- What is settled has an outcome. -/
theorem outcome?_settleAll_ne_none {p : Ticket × Outcome} {ps : List (Ticket × Outcome)}
    (hp : p ∈ ps) {c : Connection Listener} (h : p.1 < c.exchanges.length) :
    (c.settleAll ps).1.outcome? p.1 ≠ none := by
  induction ps generalizing c with
  | nil => simp at hp
  | cons q ps ih =>
    rw [settleAll_cons]
    rcases List.mem_cons.1 hp with rfl | hp
    · -- what comes later leaves the outcome that it has now
      obtain ⟨a, ha⟩ := Option.ne_none_iff_exists'.1 (outcome?_settle_self c h p.2)
      rw [outcome?_settleAll_of_some ps ha]
      simp
    · exact ih hp (by simpa using h)

/-- Outcomes come to the same before and after a change that leaves the exchanges alone. -/
theorem settleAll_comm {f : Connection Listener → Connection Listener}
    (h : ∀ t o c, ((f c).settle t o).1 = f (c.settle t o).1) (ps : List (Ticket × Outcome))
    (c : Connection Listener) : ((f c).settleAll ps).1 = f (c.settleAll ps).1 := by
  induction ps generalizing c with
  | nil => rfl
  | cons p ps ih => rw [settleAll_cons, settleAll_cons, h, ih]

/-! ## Answers -/

/-- An answer goes into an open place, and what follows from it is due. -/
theorem answer_eq {t : Ticket} {c : Connection Listener} (ht : t < c.exchanges.length)
    (h : c.answer? t = none) (o : Outcome) :
    c.answer t o =
      { c with
        exchanges := c.exchanges.modify t (Exchange.answered o)
        due := c.due ++ [.answered t o] } := by
  have hx : c.exchanges[t]? = some c.exchanges[t] := List.getElem?_eq_getElem ht
  have ha : c.exchanges[t].answer = none := by simpa [answer?, hx] using h
  simp [answer, hx, ha]

/-- A place that was given up takes the answer in, and nothing follows. -/
theorem answer_eq_self {t : Ticket} {c : Connection Listener}
    (h : c.answer? t = some .cancelled) (o : Outcome) : c.answer t o = c := by
  obtain ⟨x, hx, ha⟩ := Option.bind_eq_some_iff.1 h
  simp [answer, hx, ha]

/-- A place is given up once. -/
theorem vacate_eq_self {t : Ticket} {c : Connection Listener} {o : Outcome}
    (h : c.answer? t = some o) : c.vacate t = c := by
  obtain ⟨x, hx, ha⟩ := Option.bind_eq_some_iff.1 h
  simp [vacate, hx, ha]

/-- An open place that is given up is answered so. -/
theorem vacate_eq_answer {t : Ticket} {c : Connection Listener} (ht : t < c.exchanges.length)
    (h : c.answer? t = none) : c.vacate t = c.answer t .cancelled := by
  have hx : c.exchanges[t]? = some c.exchanges[t] := List.getElem?_eq_getElem ht
  have ha : c.exchanges[t].answer = none := by simpa [answer?, hx] using h
  simp [vacate, hx, ha]

theorem vacate_eq_self_of_le {t : Ticket} {c : Connection Listener}
    (h : c.exchanges.length ≤ t) : c.vacate t = c := by
  simp [vacate, List.getElem?_eq_none h]

/-- An answer is taken in by a place that was given up, goes into an open one, or is reported. -/
theorem answer_cases (t : Ticket) (o : Outcome) (c : Connection Listener) :
    c.answer t o = c ∧ (c.exchanges.length ≤ t ∨ c.answer? t = some .cancelled) ∨
      (t < c.exchanges.length ∧ c.answer? t = none ∧
        c.answer t o =
          { c with
            exchanges := c.exchanges.modify t (Exchange.answered o)
            due := c.due ++ [.answered t o] }) ∨
      ∃ a, c.answer? t = some a ∧ a ≠ .cancelled ∧
        c.answer t o = { c with log := c.log ++ [.answeredTwice t] } := by
  by_cases ht : t < c.exchanges.length
  · have hx : c.exchanges[t]? = some c.exchanges[t] := List.getElem?_eq_getElem ht
    cases ha : c.answer? t with
    | none => exact .inr (.inl ⟨ht, rfl, answer_eq ht ha o⟩)
    | some a =>
      replace hx : c.exchanges[t].answer = some a := by simpa [answer?, hx] using ha
      cases a with
      | cancelled => exact .inl ⟨answer_eq_self ha o, .inr rfl⟩
      | reply | failed => exact .inr (.inr ⟨_, rfl, nofun, by simp [answer, ht, hx]⟩)
  · refine .inl ⟨?_, .inl (Nat.not_lt.1 ht)⟩
    simp [answer, List.getElem?_eq_none (Nat.not_lt.1 ht)]

@[simp] theorem length_exchanges_answer (t : Ticket) (o : Outcome) (c : Connection Listener) :
    (c.answer t o).exchanges.length = c.exchanges.length := by
  rcases answer_cases t o c with ⟨h, -⟩ | ⟨-, -, h⟩ | ⟨-, -, -, h⟩
  · rw [h]
  · rw [h]
    exact List.length_modify ..
  · rw [h]

@[simp] theorem role?_answer (t s : Ticket) (o : Outcome) (c : Connection Listener) :
    (c.answer t o).role? s = c.role? s := by
  rcases answer_cases t o c with ⟨h, -⟩ | ⟨-, -, h⟩ | ⟨-, -, -, h⟩
  · rw [h]
  · rw [h]
    simp only [role?, Option.map_eq_bind]
    exact bind_getElem?_modify (f := Exchange.answered o) (fun _ => rfl) c.exchanges t s
  · rw [h]
    rfl

@[simp] theorem outcome?_answer (t s : Ticket) (o : Outcome) (c : Connection Listener) :
    (c.answer t o).outcome? s = c.outcome? s := by
  rcases answer_cases t o c with ⟨h, -⟩ | ⟨-, -, h⟩ | ⟨-, -, -, h⟩
  · rw [h]
  · rw [h]
    exact bind_getElem?_modify (f := Exchange.answered o) (fun _ => rfl) c.exchanges t s
  · rw [h]
    rfl

/-- An answer goes into its own place. -/
theorem answer?_answer {c : Connection Listener} {t : Ticket} (ht : t < c.exchanges.length)
    (h : c.answer? t = none) (o : Outcome) (s : Ticket) :
    (c.answer t o).answer? s = if s = t then some o else c.answer? s := by
  rw [answer_eq ht h]
  simp only [answer?, List.getElem?_modify]
  by_cases hs : t = s
  · subst hs
    simp [ht, Exchange.answered]
  · simp [hs, Ne.symm hs]

/-- An answer stays. -/
theorem answer?_answer_of_some {c : Connection Listener} {s : Ticket} {a : Outcome}
    (h : c.answer? s = some a) (t : Ticket) (o : Outcome) :
    (c.answer t o).answer? s = some a := by
  rcases answer_cases t o c with ⟨he, -⟩ | ⟨ht, hn, -⟩ | ⟨-, -, -, he⟩
  · rwa [he]
  · -- the place that takes the answer was open, so it is another one
    have hst : s ≠ t := by
      rintro rfl
      rw [hn] at h
      cases h
    rwa [answer?_answer ht hn, if_neg hst]
  · rwa [he]

/-- A place that is given up has no other answer. -/
theorem answer?_vacate (t s : Ticket) (c : Connection Listener) :
    (c.vacate t).answer? s =
      if s = t ∧ t < c.exchanges.length then c.answer? s <|> some .cancelled
      else c.answer? s := by
  by_cases ht : t < c.exchanges.length
  · cases ha : c.answer? t with
    | none =>
      -- an open place takes it as its answer
      rw [vacate_eq_answer ht ha, answer?_answer ht ha]
      by_cases hs : s = t
      · simp [hs, ht, ha]
      · simp [hs]
    | some o =>
      -- any other place has its answer already
      rw [vacate_eq_self ha]
      by_cases hs : s = t
      · simp [hs, ha]
      · simp [hs]
  · rw [vacate_eq_self_of_le (Nat.not_lt.1 ht), if_neg fun h => ht h.2]

@[simp] theorem outcome?_vacate (t s : Ticket) (c : Connection Listener) :
    (c.vacate t).outcome? s = c.outcome? s := by
  unfold vacate
  split
  · rfl
  · split
    · rfl
    · exact outcome?_answer ..

/-! ## Giving up -/

/-- A command that is given up is settled at once if it is one of a transaction, and else its
place is given up. -/
theorem giveUp_cases (t : Ticket) (c : Connection Listener) :
    (c.giveUp t).1 = c ∧ (c.outcome? t ≠ none ∨ c.exchanges.length ≤ t) ∨
      c.outcome? t = none ∧ c.role? t = some .queued ∧
        (c.giveUp t).1 = (c.settle t .cancelled).1 ∨
      c.outcome? t = none ∧ c.role? t ≠ some .queued ∧ (c.giveUp t).1 = c.vacate t := by
  cases hx : c.exchanges[t]? with
  | none => exact .inl ⟨by simp [giveUp, hx], .inr (List.getElem?_eq_none_iff.1 hx)⟩
  | some x =>
    have ho : c.outcome? t = x.outcome := by simp [outcome?, hx]
    have hr : c.role? t = some x.role := by simp [role?, hx]
    cases hxo : x.outcome with
    | some o => exact .inl ⟨by simp [giveUp, hx, hxo], .inl (by simp [ho, hxo])⟩
    | none =>
      -- without an outcome, the role decides
      refine .inr ?_
      by_cases hq : x.role = .queued
      · exact .inl ⟨ho.trans hxo, by rw [hr, hq], by simp [giveUp, hx, hxo, hq]⟩
      · exact .inr ⟨ho.trans hxo, by simpa [hr] using hq, by simp [giveUp, hx, hxo, hq]⟩

/-- A command whose timeout expires is settled at once, and its place is given up unless it is one
of a transaction. -/
theorem expire_cases (t : Ticket) (c : Connection Listener) :
    (c.expire t).1 = c ∧ (c.outcome? t ≠ none ∨ c.exchanges.length ≤ t) ∨
      c.outcome? t = none ∧ c.role? t = some .queued ∧
        (c.expire t).1 = (c.settle t (.failed .timedOut)).1 ∨
      c.outcome? t = none ∧ c.role? t ≠ some .queued ∧
        (c.expire t).1 = (c.settle t (.failed .timedOut)).1.vacate t := by
  cases hx : c.exchanges[t]? with
  | none => exact .inl ⟨by simp [expire, hx], .inr (List.getElem?_eq_none_iff.1 hx)⟩
  | some x =>
    have ho : c.outcome? t = x.outcome := by simp [outcome?, hx]
    have hr : c.role? t = some x.role := by simp [role?, hx]
    cases hxo : x.outcome with
    | some o => exact .inl ⟨by simp [expire, hx, hxo], .inl (by simp [ho, hxo])⟩
    | none =>
      refine .inr ?_
      by_cases hq : x.role = .queued
      · exact .inl ⟨ho.trans hxo, by rw [hr, hq], by simp [expire, hx, hxo, hq]⟩
      · exact .inr ⟨ho.trans hxo, by simpa [hr] using hq, by simp [expire, hx, hxo, hq]⟩

/-- A command whose timeout has expired has an outcome. -/
theorem outcome?_expire {t : Ticket} (c : Connection Listener) (h : t < c.exchanges.length) :
    (c.expire t).1.outcome? t ≠ none := by
  rcases expire_cases t c with ⟨he, ho⟩ | ⟨-, -, he⟩ | ⟨-, -, he⟩
  · rw [he]
    exact ho.resolve_right (Nat.not_le.2 h)
  · rw [he]
    exact outcome?_settle_self c h _
  · rw [he, outcome?_vacate]
    exact outcome?_settle_self c h _

/-! ## Quiet operations -/

/-- A connection that came from another one by operations that neither send nor receive: only the
course of its exchanges differs. -/
structure Quiet (c d : Connection Listener) : Prop where
  eq : d = { c with exchanges := d.exchanges, due := d.due, transaction := d.transaction }
  length_eq : d.exchanges.length = c.exchanges.length
  role?_eq : ∀ t, d.role? t = c.role? t

namespace Quiet

variable {c d e : Connection Listener}

theorem refl (c : Connection Listener) : Quiet c c := ⟨rfl, rfl, fun _ => rfl⟩

theorem trans (h : Quiet c d) (h' : Quiet d e) : Quiet c e := by
  refine ⟨?_, h'.length_eq.trans h.length_eq, fun t => (h'.role?_eq t).trans (h.role?_eq t)⟩
  rw [h'.eq, h.eq]

theorem waiting_eq (h : Quiet c d) : d.waiting = c.waiting := by rw [h.eq]

theorem reader_eq (h : Quiet c d) : d.reader = c.reader := by rw [h.eq]

theorem log_eq (h : Quiet c d) : d.log = c.log := by rw [h.eq]

theorem writes_eq (h : Quiet c d) : d.writes = c.writes := by rw [h.eq]

theorem buffer_eq (h : Quiet c d) : d.buffer = c.buffer := by rw [h.eq]

theorem attached_eq (h : Quiet c d) : d.attached = c.attached := by rw [h.eq]

theorem timeout_eq (h : Quiet c d) : d.timeout = c.timeout := by rw [h.eq]

end Quiet

theorem quiet_settle (t : Ticket) (o : Outcome) (c : Connection Listener) :
    Quiet c (c.settle t o).1 :=
  ⟨rfl, length_exchanges_settle t o c, fun s => role?_settle t s o c⟩

theorem quiet_settleAll (ps : List (Ticket × Outcome)) (c : Connection Listener) :
    Quiet c (c.settleAll ps).1 := by
  induction ps generalizing c with
  | nil => exact .refl c
  | cons p ps ih => exact (quiet_settle p.1 p.2 c).trans (ih _)

section Vacant

variable {c : Connection Listener} {t : Ticket} (ht : t < c.exchanges.length)
  (h : ∀ a, c.answer? t = some a → a = .cancelled) (o : Outcome)

include ht h

/-- A place that is open or was given up keeps its first answer. -/
theorem answer?_answer_of_vacant (s : Ticket) :
    (c.answer t o).answer? s = if s = t then c.answer? s <|> some o else c.answer? s := by
  cases ha : c.answer? t with
  | none =>
    rw [answer?_answer ht ha]
    by_cases hs : s = t
    · simp [hs, ha]
    · simp [hs]
  | some a =>
    obtain rfl := h a ha
    rw [answer_eq_self ha]
    by_cases hs : s = t
    · simp [hs, ha]
    · simp [hs]

/-- Such a place takes an answer without a report. -/
theorem quiet_answer : Quiet c (c.answer t o) := by
  cases ha : c.answer? t with
  | none =>
    refine ⟨?_, length_exchanges_answer t o c, fun s => role?_answer t s o c⟩
    rw [answer_eq ht ha]
  | some a =>
    obtain rfl := h a ha
    rw [answer_eq_self ha]
    exact .refl c

end Vacant

theorem quiet_vacate (t : Ticket) (c : Connection Listener) : Quiet c (c.vacate t) := by
  cases ha : c.answer? t with
  | some o => rw [vacate_eq_self ha]; exact .refl c
  | none =>
    by_cases ht : t < c.exchanges.length
    · rw [vacate_eq_answer ht ha]
      exact quiet_answer ht (by simp [ha]) .cancelled
    · rw [vacate_eq_self_of_le (Nat.not_lt.1 ht)]
      exact .refl c

theorem quiet_giveUp (t : Ticket) (c : Connection Listener) : Quiet c (c.giveUp t).1 := by
  unfold giveUp
  split
  · exact .refl c
  · split
    · exact .refl c
    · split
      · exact quiet_settle t .cancelled c
      · exact quiet_vacate t c

theorem quiet_expire (t : Ticket) (c : Connection Listener) : Quiet c (c.expire t).1 := by
  unfold expire
  split
  · exact .refl c
  · split
    · exact .refl c
    · dsimp only
      split
      · exact quiet_settle t _ c
      · exact (quiet_settle t _ c).trans (quiet_vacate t _)

theorem quiet_startTimeout (t : Ticket) (c : Connection Listener) :
    Quiet c (c.startTimeout t).1 := by
  unfold startTimeout
  split
  · exact quiet_expire t c
  · exact quiet_settle t _ c
  · exact .refl c

theorem quiet_follow (d : Consequence) (c : Connection Listener) : Quiet c (c.follow d).1 := by
  cases d with
  | answered t o =>
    simp only [follow, conclude]
    split
    · exact .refl c
    · exact quiet_settleAll _ c
  | lost =>
    have h : Quiet c { c with transaction := none } := ⟨rfl, rfl, fun _ => rfl⟩
    exact h.trans (quiet_settleAll _ _)

theorem quiet_followNext (c : Connection Listener) : Quiet c c.followNext.1 := by
  unfold followNext
  split
  · exact .refl c
  · next d ds hd =>
    have h : Quiet c { c with due := ds } := ⟨rfl, rfl, fun _ => rfl⟩
    exact h.trans (quiet_follow d _)

theorem settlements_eq {c : Connection Listener} {t : Ticket} {r : Role} (h : c.role? t = some r)
    (o : Outcome) : c.settlements t o = r.settlements t o := by
  rw [settlements, h]

theorem settlements_congr {c d : Connection Listener} {t : Ticket} (h : d.role? t = c.role? t)
    (o : Outcome) : d.settlements t o = c.settlements t o := by
  rw [settlements, settlements, h]

theorem Quiet.settlements_eq {c d : Connection Listener} (h : Quiet c d) (t : Ticket)
    (o : Outcome) : d.settlements t o = c.settlements t o :=
  settlements_congr (h.role?_eq t) o

end Connection

end SortedSets

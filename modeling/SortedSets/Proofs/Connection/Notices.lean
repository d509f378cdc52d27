import Mathlib.Data.List.Nodup
import SortedSets.Proofs.Connection.Loss

/-!
# Who is told what

Every operation of a connection returns notices. They are those of the commands that ended in it:
a command that ends tells its listener its outcome, once.

## Main definitions

* `Connection.listener?`: who listens to a command
* `Connection.Ends`: which commands ended from one connection to another
* `Connection.Reports`: an operation returned the notices of the commands that ended in it
* `Connection.AllTold`: nobody is left to be told anything

## Main results

* `Connection.reports_cancel`, `Connection.reports_receive`, `Connection.reports_lose`: the
  operations report what ended
* `Connection.Reports.of_allTold`, `Connection.Reports.of_sole`: what is told if nobody is left to be
  told, and if one is
* `Connection.reports_execute`, `Connection.execute_error`: so does a command that is sent, after it
  has its exchange; one that is not sent tells nobody anything
-/

namespace SortedSets

open Wire (Reply)

variable {Listener : Type}

namespace Connection

/-- Who listens to a command. -/
def listener? (c : Connection Listener) (t : Ticket) : Option Listener :=
  c.exchanges[t]?.bind Exchange.listener

/-- The notices of outcomes, for those who listen. -/
def notices (c : Connection Listener) (ps : List (Ticket × Outcome)) : List (Notice Listener) :=
  ps.filterMap fun p => (c.listener? p.1).map fun l => ⟨l, p.2⟩

/-- From one connection to another the commands `ps` ended, each with its outcome, and no
others. -/
structure Ends (c d : Connection Listener) (ps : List (Ticket × Outcome)) : Prop where
  length_eq : d.exchanges.length = c.exchanges.length
  listener?_eq : ∀ t, d.listener? t = c.listener? t
  nodup : (ps.map Prod.fst).Nodup
  ended : ∀ p ∈ ps, c.outcome? p.1 = none ∧ d.outcome? p.1 = some p.2
  kept : ∀ t, t ∉ ps.map Prod.fst → d.outcome? t = c.outcome? t

/-- An operation returned the notices of the commands that ended in it. -/
def Reports (c : Connection Listener) (r : Connection Listener × List (Notice Listener)) : Prop :=
  ∃ ps, Ends c r.1 ps ∧ r.2 = c.notices ps

variable {c d : Connection Listener}

namespace Ends

/-- Whatever leaves the outcomes and the listeners alone ends no command. -/
theorem of_eq (hl : d.exchanges.length = c.exchanges.length)
    (hs : ∀ t, d.listener? t = c.listener? t) (ho : ∀ t, d.outcome? t = c.outcome? t) :
    Ends c d [] where
  length_eq := hl
  listener?_eq := hs
  nodup := List.nodup_nil
  ended _ hp := absurd hp List.not_mem_nil
  kept t _ := ho t

theorem of_exchanges (h : d.exchanges = c.exchanges) : Ends c d [] :=
  of_eq (by rw [h]) (fun t => by rw [listener?, h, listener?]) fun t => by rw [outcome?, h, outcome?]

/-- A command that ended does not end again. -/
theorem not_mem_of_mem {e : Connection Listener} {ps qs : List (Ticket × Outcome)}
    (h : Ends c d ps) (h' : Ends d e qs) {t : Ticket} (hp : t ∈ ps.map Prod.fst) :
    t ∉ qs.map Prod.fst := by
  intro hq
  obtain ⟨p, hps, rfl⟩ := List.mem_map.1 hp
  obtain ⟨q, hqs, he⟩ := List.mem_map.1 hq
  have hn := (h'.ended q hqs).1
  rw [he, (h.ended p hps).2] at hn
  cases hn

theorem trans {e : Connection Listener} {ps qs : List (Ticket × Outcome)} (h : Ends c d ps)
    (h' : Ends d e qs) : Ends c e (ps ++ qs) where
  length_eq := h'.length_eq.trans h.length_eq
  listener?_eq t := (h'.listener?_eq t).trans (h.listener?_eq t)
  nodup := by
    rw [List.map_append, List.nodup_append]
    refine ⟨h.nodup, h'.nodup, ?_⟩
    rintro t hp _ hq rfl
    exact h.not_mem_of_mem h' hp hq
  ended p hp := by
    rcases List.mem_append.1 hp with hp | hp
    · -- an outcome that is there stays
      refine ⟨(h.ended p hp).1, ?_⟩
      rw [h'.kept _ (h.not_mem_of_mem h' (List.mem_map_of_mem hp)), (h.ended p hp).2]
    · refine ⟨?_, (h'.ended p hp).2⟩
      have hn := (h'.ended p hp).1
      rwa [h.kept] at hn
      exact fun hm => h.not_mem_of_mem h' hm (List.mem_map_of_mem hp)
  kept t ht := by
    rw [List.map_append, List.mem_append, not_or] at ht
    exact (h'.kept t ht.2).trans (h.kept t ht.1)

/-- The listeners are the same before and after. -/
theorem notices_eq {ps : List (Ticket × Outcome)} (h : Ends c d ps)
    (qs : List (Ticket × Outcome)) : d.notices qs = c.notices qs := by
  simp only [notices, h.listener?_eq]

end Ends

theorem notices_append (c : Connection Listener) (ps qs : List (Ticket × Outcome)) :
    c.notices (ps ++ qs) = c.notices ps ++ c.notices qs := List.filterMap_append

/-- Notices depend on the listeners of what ended only. -/
theorem notices_congr {ps : List (Ticket × Outcome)}
    (h : ∀ p ∈ ps, d.listener? p.1 = c.listener? p.1) : d.notices ps = c.notices ps := by
  induction ps with
  | nil => rfl
  | cons p ps ih =>
    simp only [notices, List.filterMap_cons, h p List.mem_cons_self] at ih ⊢
    rw [ih fun q hq => h q (List.mem_cons_of_mem p hq)]

namespace Reports

/-- An operation that ends no command. -/
theorem of_ends (h : Ends c d []) : Reports c (d, []) := ⟨[], h, rfl⟩

theorem trans {ns ms : List (Notice Listener)} {e : Connection Listener}
    (h : Reports c (d, ns)) (h' : Reports d (e, ms)) : Reports c (e, ns ++ ms) := by
  obtain ⟨ps, hp, rfl⟩ := h
  obtain ⟨qs, hq, rfl⟩ := h'
  exact ⟨ps ++ qs, hp.trans hq, by rw [notices_append, hp.notices_eq]⟩

/-- A change before an operation that ends no command. -/
theorem of_before {r : Connection Listener × List (Notice Listener)} (h : Ends c d [])
    (hr : Reports d r) : Reports c r :=
  trans (of_ends h) hr

end Reports

/-! ## Who was told -/

/-- Everybody who listens to a command was told its outcome. -/
def AllTold (c : Connection Listener) : Prop :=
  ∀ t, c.listener? t ≠ none → c.outcome? t ≠ none

theorem AllTold.of_exchanges (h : c.AllTold) (he : d.exchanges = c.exchanges) :
    d.AllTold := by
  intro t ht
  rw [listener?, he] at ht
  rw [outcome?, he]
  exact h t ht

theorem notices_of_notMem {t : Ticket} (ha : ∀ s, s ≠ t → c.listener? s = none)
    {ps : List (Ticket × Outcome)} (hm : t ∉ ps.map Prod.fst) : c.notices ps = [] := by
  refine List.filterMap_eq_nil_iff.2 fun p hp => ?_
  have hne : p.1 ≠ t := fun heq => hm (heq ▸ List.mem_map_of_mem hp)
  rw [ha p.1 hne]
  rfl

namespace Reports

variable {r : Connection Listener × List (Notice Listener)}

/-- Where everybody was told, nobody is told anything more. -/
theorem of_allTold (h : Reports c r) (ht : c.AllTold) : r.2 = [] ∧ r.1.AllTold := by
  obtain ⟨ps, he, hr⟩ := h
  constructor
  · rw [hr]
    refine List.filterMap_eq_nil_iff.2 fun p hp => ?_
    -- what ended now had no outcome before, and so no listener
    by_cases hl : c.listener? p.1 = none
    · rw [hl]
      rfl
    · exact absurd (he.ended p hp).1 (ht p.1 hl)
  · intro t hl
    rw [he.listener?_eq] at hl
    rw [he.kept]
    · exact ht t hl
    · intro hm
      obtain ⟨p, hp, rfl⟩ := List.mem_map.1 hm
      exact ht p.1 hl (he.ended p hp).1

variable {t : Ticket} {l : Listener}

/-- If there is one listener, it is told the outcome of its command, and nothing else is told. -/
theorem of_sole (h : Reports c r) (ha : ∀ s, s ≠ t → c.listener? s = none)
    (hl : c.listener? t = some l) (hn : c.outcome? t = none) :
    r.2 = ((r.1.outcome? t).map fun o => ⟨l, o⟩).toList := by
  obtain ⟨ps, he, hr⟩ := h
  rw [hr]
  by_cases hm : t ∈ ps.map Prod.fst
  · obtain ⟨⟨t, o⟩, hp, rfl⟩ := List.mem_map.1 hm
    obtain ⟨as, bs, rfl⟩ := List.append_of_mem hp
    -- it ended once
    have hnodup := he.nodup
    rw [List.map_append, List.map_cons, List.nodup_middle, List.nodup_cons, List.mem_append,
      not_or] at hnodup
    rw [(he.ended _ hp).2, notices_append, notices_of_notMem ha hnodup.1.1, List.nil_append,
      ← List.singleton_append, notices_append, notices_of_notMem ha hnodup.1.2]
    simp [notices, hl]
  · rw [he.kept t hm, hn, notices_of_notMem ha hm]
    rfl

theorem allTold_of_sole (h : Reports c r) (ha : ∀ s, s ≠ t → c.listener? s = none)
    (hn : r.1.outcome? t ≠ none) : r.1.AllTold := by
  obtain ⟨ps, he, -⟩ := h
  intro s hs
  rw [he.listener?_eq] at hs
  by_cases hst : s = t
  · rwa [hst]
  · exact absurd (ha s hst) hs

end Reports

/-! ## Outcomes -/

@[simp] theorem listener?_settle (t s : Ticket) (o : Outcome) (c : Connection Listener) :
    (c.settle t o).1.listener? s = c.listener? s :=
  bind_getElem?_modify (f := Exchange.settled o) (fun _ => rfl) c.exchanges t s

theorem reports_settle (t : Ticket) (o : Outcome) (c : Connection Listener) :
    Reports c (c.settle t o) := by
  have hl := length_exchanges_settle t o c
  have hs (s : Ticket) := listener?_settle t s o c
  by_cases ht : t < c.exchanges.length ∧ c.outcome? t = none
  · -- the command ends now
    obtain ⟨ht, hn⟩ := ht
    refine ⟨[(t, o)], ⟨hl, hs, by simp, ?ended, ?kept⟩, ?notices⟩
    case ended =>
      intro p hp
      obtain rfl := List.mem_singleton.1 hp
      refine ⟨hn, ?_⟩
      rw [outcome?_settle, if_pos ⟨rfl, ht⟩, hn]
      rfl
    case kept =>
      intro s hs
      rw [outcome?_settle, if_neg]
      rintro ⟨rfl, -⟩
      exact hs List.mem_cons_self
    case notices =>
      have hx : c.exchanges[t]? = some c.exchanges[t] := List.getElem?_eq_getElem ht
      cases hg : c.exchanges[t] with
      | mk role answer outcome listener =>
        rw [hg] at hx
        rw [outcome?, hx] at hn
        obtain rfl : outcome = none := hn
        simp only [settle, hx, notices, listener?]
        cases listener <;> simp [hx]
  · -- it is not there, or has ended before
    refine ⟨[], .of_eq hl hs fun s => ?_, ?_⟩
    · rw [outcome?_settle]
      split
      · next he =>
        obtain ⟨rfl, hlt⟩ := he
        obtain ⟨a, ha⟩ := Option.ne_none_iff_exists'.1 fun hn => ht ⟨hlt, hn⟩
        rw [ha]
        rfl
      · rfl
    · rw [settle]
      cases hx : c.exchanges[t]? with
      | none => rfl
      | some x =>
        have hlt : t < c.exchanges.length := (List.getElem?_eq_some_iff.1 hx).1
        obtain ⟨role, answer, outcome, listener⟩ := x
        cases outcome with
        | some a => rfl
        | none => exact absurd ⟨hlt, by rw [outcome?, hx]; rfl⟩ ht

theorem reports_settleAll (ps : List (Ticket × Outcome)) (c : Connection Listener) :
    Reports c (c.settleAll ps) := by
  induction ps generalizing c with
  | nil => exact .of_ends (.of_exchanges rfl)
  | cons p ps ih => exact (reports_settle p.1 p.2 c).trans (ih _)

/-! ## What is due -/

theorem reports_follow (d : Consequence) (c : Connection Listener) : Reports c (c.follow d) := by
  cases d with
  | answered t o =>
    simp only [follow, conclude]
    split
    · exact .of_ends (.of_exchanges rfl)
    · exact reports_settleAll _ c
  | lost =>
    exact .of_before (d := { c with transaction := none }) (.of_exchanges rfl)
      (reports_settleAll _ _)

theorem reports_followNext (c : Connection Listener) : Reports c c.followNext := by
  unfold followNext
  split
  · exact .of_ends (.of_exchanges rfl)
  · next d ds _ =>
    exact .of_before (d := { c with due := ds }) (.of_exchanges rfl) (reports_follow d _)

theorem reports_followMany (n : Nat) (c : Connection Listener) : Reports c (c.followMany n) := by
  induction n generalizing c with
  | zero => exact .of_ends (.of_exchanges rfl)
  | succ n ih => exact (reports_followNext c).trans (ih _)

theorem reports_followAll (c : Connection Listener) : Reports c c.followAll :=
  reports_followMany c.due.length c

/-! ## Answers -/

@[simp] theorem listener?_answer (t s : Ticket) (o : Outcome) (c : Connection Listener) :
    (c.answer t o).listener? s = c.listener? s := by
  rcases answer_cases t o c with ⟨h, -⟩ | ⟨-, -, h⟩ | ⟨-, -, -, h⟩
  · rw [h]
  · rw [h]
    exact bind_getElem?_modify (f := Exchange.answered o) (fun _ => rfl) c.exchanges t s
  · rw [h]
    rfl

/-- An answer alone ends no command. -/
theorem ends_answer (t : Ticket) (o : Outcome) (c : Connection Listener) :
    Ends c (c.answer t o) [] :=
  .of_eq (length_exchanges_answer t o c) (fun s => listener?_answer t s o c)
    fun s => outcome?_answer t s o c

theorem ends_answerNext (o : Outcome) (c : Connection Listener) : Ends c (c.answerNext o) [] := by
  unfold answerNext
  split
  · exact .of_exchanges rfl
  · next t ws _ =>
    have hw : Ends c { c with waiting := ws } [] := .of_exchanges rfl
    exact hw.trans (ends_answer t o _)

theorem ends_deliver (piece : Bytes) (c : Connection Listener) : Ends c (c.deliver piece) [] := by
  have h : Ends c (({ c with reader := (c.reader.feed piece).2 } : Connection Listener).assign
      (c.reader.feed piece).1) [] :=
    assign_induction (P := fun d => Ends c d []) (fun _ _ h => h.trans (.of_exchanges rfl))
      (fun _ r h => h.trans (ends_answerNext (Reply.outcome r) _)) _ (.of_exchanges rfl)
  rw [deliver_frame]
  exact h.trans (.of_exchanges rfl)

theorem ends_drop (e : Option Error) (c : Connection Listener) : Ends c (c.drop e) [] := by
  obtain ⟨x, hx⟩ := drop_frame e c
  have h : Ends c (c.failWaiting x c.waiting.length) [] :=
    failWaiting_induction (P := fun d => Ends c d [])
      (fun _ h => h.trans (ends_answerNext (.failed x) _)) _ (.of_exchanges rfl)
  rw [hx]
  exact h.trans (.of_exchanges rfl)

/-! ## Operations with all that follows -/

theorem ends_vacate (t : Ticket) (c : Connection Listener) : Ends c (c.vacate t) [] := by
  unfold vacate
  split
  · exact .of_exchanges rfl
  · split
    · exact .of_exchanges rfl
    · exact ends_answer t .cancelled c

theorem reports_giveUp (t : Ticket) (c : Connection Listener) : Reports c (c.giveUp t) := by
  unfold giveUp
  split
  · exact .of_ends (.of_exchanges rfl)
  · split
    · exact .of_ends (.of_exchanges rfl)
    · split
      · exact reports_settle t .cancelled c
      · exact .of_ends (ends_vacate t c)

theorem reports_cancel (t : Ticket) (c : Connection Listener) : Reports c (c.cancel t) :=
  (reports_giveUp t c).trans (reports_followAll _)

theorem reports_receive (piece : Bytes) (c : Connection Listener) :
    Reports c (c.receive piece) :=
  .of_before (ends_deliver piece c) (reports_followAll _)

theorem reports_lose (e : Option Error) (c : Connection Listener) : Reports c (c.lose e) :=
  .of_before (ends_drop e c) (reports_followAll _)

theorem reports_expire (t : Ticket) (c : Connection Listener) : Reports c (c.expire t) := by
  unfold expire
  split
  · exact .of_ends (.of_exchanges rfl)
  · split
    · exact .of_ends (.of_exchanges rfl)
    · have hs := reports_settle t (.failed .timedOut) c
      dsimp only
      split
      · exact hs
      · -- giving up the place as well tells nobody more
        rw [← List.append_nil (c.settle t (.failed .timedOut)).2]
        exact hs.trans (.of_ends (ends_vacate t _))

theorem reports_startTimeout (t : Ticket) (c : Connection Listener) :
    Reports c (c.startTimeout t) := by
  unfold startTimeout
  split
  · exact reports_expire t c
  · exact reports_settle t _ c
  · exact .of_ends (.of_exchanges rfl)

/-! ## Sending -/

/-- A connection with one more command, which has not ended. -/
def Enlisted (c : Connection Listener) (l : Option Listener) (d : Connection Listener) : Prop :=
  ∃ role, d.exchanges = c.exchanges ++ [.fresh role l]

namespace Enlisted

variable {l : Option Listener}

theorem length_eq (h : Enlisted c l d) : d.exchanges.length = c.exchanges.length + 1 := by
  obtain ⟨role, h⟩ := h
  simp [h]

theorem outcome?_eq (h : Enlisted c l d) (t : Ticket) : d.outcome? t = c.outcome? t := by
  obtain ⟨role, h⟩ := h
  rw [outcome?, h]
  exact bind_getElem?_concat rfl c.exchanges t

theorem listener?_eq (h : Enlisted c l d) (t : Ticket) :
    d.listener? t = if t = c.exchanges.length then l else c.listener? t := by
  obtain ⟨role, h⟩ := h
  rw [listener?, h]
  split
  · next ht => simp [ht, Exchange.fresh]
  · next ht =>
    rw [List.getElem?_append]
    split
    · rfl
    · next hlt =>
      have hle := Nat.not_lt.1 hlt
      rw [listener?, List.getElem?_eq_none hle, List.getElem?_eq_none]
      exact Nat.sub_pos_of_lt (Nat.lt_of_le_of_ne hle (Ne.symm ht))

end Enlisted

/-- A command that is not sent tells nobody anything, as long as nothing is due. -/
theorem execute_error {name : Value} {args : List Value} {l : Listener} {c : Connection Listener}
    (hd : c.due = []) {e : Error} (h : (c.execute name args l).ticket = .error e) :
    (c.execute name args l).notices = [] ∧
      ((c.execute name args l).connection = c ∨
        Enlisted c none (c.execute name args l).connection) := by
  have hnone {d : Connection Listener} (hd : d.due = []) : d.followAll = (d, []) := by
    simp [followAll, hd, followMany]
  unfold execute submit at h ⊢
  cases hr : c.requestOf name args with
  | error e => simp [hnone hd]
  | ok data =>
    cases hv : Verb.ofWord name with
    | error e =>
      -- the request is out before its name turns out to be unreadable
      have hx : (c.emit data).exchanges = c.exchanges := by rw [emit_frame]
      have hd' : ((c.emit data).enlist .plain (none : Option Listener)).due = [] := by
        rw [emit_frame]
        exact hd
      simp only [hnone hd', List.append_nil, true_and]
      exact .inr ⟨.plain, by rw [enlist, hx]⟩
    | ok verb => simp [hr, hv] at h

/-- A command that is sent has its exchange before anything is told. -/
theorem reports_execute {name : Value} {args : List Value} {l : Listener} {c : Connection Listener}
    (hd : c.due = []) {t : Ticket} (h : (c.execute name args l).ticket = .ok t) :
    t = c.exchanges.length ∧ ∃ d, Enlisted c (some l) d ∧ d.due = [] ∧
      Reports d ((c.execute name args l).connection, (c.execute name args l).notices) := by
  unfold execute submit at h ⊢
  cases hr : c.requestOf name args with
  | error e => simp [hr] at h
  | ok data =>
    have hx : (c.emit data).exchanges = c.exchanges := by rw [emit_frame]
    cases hv : Verb.ofWord name with
    | error e => simp [hr, hv] at h
    | ok verb =>
      simp only [hr, hv, Except.ok.injEq] at h ⊢
      -- first the exchange, then what its timeout and what is due have to tell
      refine ⟨h.symm.trans (by rw [hx]), (c.emit data).enrol verb l,
        ⟨(c.emit data).nextRole verb, ?_⟩, ?_, ?_⟩
      · rw [enrol_eq, enlist, hx]
      · rw [enrol_eq, emit_frame]
        exact hd
      · exact (reports_startTimeout _ _).trans (reports_followAll _)

end Connection

end SortedSets

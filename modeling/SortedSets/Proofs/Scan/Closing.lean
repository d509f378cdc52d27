import SortedSets.Proofs.Scan.Steps

/-!
# A cursor that is closed stays closed

Several steps of one cursor may be under way at the same time, and the cursor may be closed between
any two events. Once it is closed it asks for no page, moves no more and hands nothing on: a step
under way fails when its answer arrives, and a later one fails at once.

## Main definitions

* `CursorEvent`: a step begins, a request is answered, the cursor is closed
* `Stage`, `CursorRun`: a cursor with all steps that were begun on it
* `Stage.settled`: what becomes of a step when the cursor is closed

## Main results

* `CursorRun.run_of_closed`: what happens to a closed cursor
* `CursorRun.closed_for_good`: the first closing of a cursor, and all that follows it
* `Script.exists_run`: a step over prepared answers is such a run
-/

namespace SortedSets

variable {Options : Type}

/-! ## Steps under way -/

/-- What happens to a cursor. Leaving the block that a cursor manages closes it. Whatever is done
while a closing is reported comes after the closing, and a request that is given up fails. -/
inductive CursorEvent where
  | start (step : Step)
  /-- The request of the `k`-th step is answered. -/
  | answer (k : Nat) (r : Except Error (Value × Value))
  | close

/-- How far a step has come. -/
inductive Stage where
  | waiting (step : Step)
  | ended (r : Except Error Delivery)

/-- A cursor, the requests made for it, the steps begun on it in their order, and how often it
reported that it was closed. -/
structure CursorRun (Options : Type) where
  cursor : Cursor Options
  requests : List (Int × Options)
  steps : List Stage
  closings : Nat

/-- The cursor that a step leaves so far. -/
def Progress.cursor : Progress Options → Cursor Options
  | fetch c | ended c _ => c

namespace CursorRun

/-- A cursor on which no step was begun. -/
def ofCursor (c : Cursor Options) : CursorRun Options where
  cursor := c
  requests := []
  steps := []
  closings := 0

/-- A step goes on up to its next request or to its end; `place` says where the stages note it. -/
def proceed (place : Stage → List Stage) (step : Step) (s : CursorRun Options) :
    Progress Options → CursorRun Options
  | .fetch c =>
    { s with
      cursor := c, requests := s.requests ++ [(c.id, c.options)], steps := place (.waiting step) }
  | .ended c r => { s with cursor := c, steps := place (.ended r) }

/-- What an event does. An answer to a step that waits for none does nothing. -/
def event (decode : Value → Except Error (List Value)) (s : CursorRun Options) :
    CursorEvent → CursorRun Options
  | .start step => s.proceed (fun g => s.steps ++ [g]) step (s.cursor.begin step)
  | .answer k r =>
    match s.steps[k]? with
    | some (.waiting step) =>
      s.proceed (fun g => s.steps.set k g) step (s.cursor.resume decode step r)
    | _ => s
  | .close =>
    if s.cursor.state = .closed then s
    else { s with cursor := s.cursor.close, closings := s.closings + 1 }

/-- What events do. -/
def run (decode : Value → Except Error (List Value)) (events : List CursorEvent)
    (s : CursorRun Options) : CursorRun Options :=
  events.foldl (event decode) s

end CursorRun

/-! ## An open cursor -/

namespace Cursor

theorem request_cursor (c : Cursor Options) : c.request.cursor = c := by
  unfold request
  split <;> rfl

theorem take_state (c : Cursor Options) : c.take.cursor.state = c.state := by
  unfold take
  split
  · rfl
  · rw [request_cursor]

theorem begin_state (step : Step) (c : Cursor Options) : (c.begin step).cursor.state = c.state := by
  cases step with
  | page => exact congrArg state c.request_cursor
  | item => exact c.take_state

/-- No answer closes a cursor. -/
theorem resume_state_ne_closed {c : Cursor Options} (hc : c.state ≠ .closed)
    (decode : Value → Except Error (List Value)) (step : Step)
    (r : Except Error (Value × Value)) : (c.resume decode step r).cursor.state ≠ .closed := by
  rw [resume_of_open hc]
  split
  · exact hc
  · exact hc
  · exact state_turn_ne_closed hc _
  · rw [take_state]
    exact state_turn_ne_closed hc _

end Cursor

namespace CursorRun

variable (decode : Value → Except Error (List Value)) {s : CursorRun Options}

theorem run_append (before after : List CursorEvent) (s : CursorRun Options) :
    s.run decode (before ++ after) = (s.run decode before).run decode after :=
  List.foldl_append

theorem proceed_cursor (place : Stage → List Stage) (step : Step) (s : CursorRun Options)
    (p : Progress Options) : (s.proceed place step p).cursor = p.cursor := by
  cases p <;> rfl

theorem proceed_closings (place : Stage → List Stage) (step : Step) (s : CursorRun Options)
    (p : Progress Options) : (s.proceed place step p).closings = s.closings := by
  cases p <;> rfl

/-- Nothing but a closing closes a cursor. -/
theorem event_of_open (hs : s.cursor.state ≠ .closed) {a : CursorEvent} (ha : a ≠ .close) :
    (s.event decode a).cursor.state ≠ .closed ∧ (s.event decode a).closings = s.closings := by
  cases a with
  | close => exact absurd rfl ha
  | start step =>
    rw [event, proceed_cursor, proceed_closings, Cursor.begin_state]
    exact ⟨hs, rfl⟩
  | answer k r =>
    rw [event]
    split
    · rw [proceed_cursor, proceed_closings]
      exact ⟨Cursor.resume_state_ne_closed hs decode _ r, rfl⟩
    · exact ⟨hs, rfl⟩

theorem run_of_open (hs : s.cursor.state ≠ .closed) {events : List CursorEvent}
    (he : .close ∉ events) : (s.run decode events).cursor.state ≠ .closed ∧
      (s.run decode events).closings = s.closings := by
  induction events generalizing s with
  | nil => exact ⟨hs, rfl⟩
  | cons a rest ih =>
    simp only [List.mem_cons, not_or] at he
    obtain ⟨ha, hrest⟩ := he
    obtain ⟨hs', hc⟩ := event_of_open decode hs (Ne.symm ha)
    obtain ⟨hopen, hclosings⟩ := ih hs' hrest
    exact ⟨hopen, hclosings.trans hc⟩

end CursorRun

/-! ## A closed cursor -/

/-- The first answer to a step. -/
def firstAnswer (k : Nat) (events : List CursorEvent) : Option (Except Error (Value × Value)) :=
  events.findSome? fun a =>
    match a with
    | .answer j r => if j = k then some r else none
    | _ => none

/-- The steps begun. -/
def started (events : List CursorEvent) : Nat :=
  events.countP fun a =>
    match a with
    | .start _ => true
    | _ => false

/-- The outcome of a step under way when its cursor is closed: a page is dropped. -/
def dropped : Except Error (Value × Value) → Except Error Delivery
  | .error e => .error e
  | .ok _ => .error (.cursorClosed true)

namespace Stage

/-- What becomes of a step when its cursor is closed. -/
def settled (events : List CursorEvent) (k : Nat) : Stage → Stage
  | waiting step => ((firstAnswer k events).map fun r => ended (dropped r)).getD (waiting step)
  | ended r => ended r

/-- A step settles event by event. -/
theorem settled_cons (a : CursorEvent) (rest : List CursorEvent) (k : Nat) (g : Stage) :
    settled (a :: rest) k g = settled rest k (settled [a] k g) := by
  cases g with
  | ended r => rfl
  | waiting step =>
    cases a with
    | start _ | close => rfl
    | answer j r =>
      by_cases hj : j = k
      · simp [settled, firstAnswer, hj]
      · simp [settled, firstAnswer, hj]

theorem settled_nil (k : Nat) (g : Stage) : settled [] k g = g := by
  cases g <;> rfl

theorem mapIdx_eq_self {l : List Stage} {f : Nat → Stage → Stage}
    (h : ∀ j g, l[j]? = some g → f j g = g) : l.mapIdx f = l := by
  refine List.ext_getElem? fun j => ?_
  rw [List.getElem?_mapIdx]
  cases hj : l[j]? with
  | none => rfl
  | some g => exact congrArg some (h j g hj)

/-- The answer to a step settles that step. -/
theorem mapIdx_settled_answer {steps : List Stage} {k : Nat} {step : Step}
    (hk : steps[k]? = some (.waiting step)) (r : Except Error (Value × Value)) :
    steps.mapIdx (settled [.answer k r]) = steps.set k (.ended (dropped r)) := by
  refine List.ext_getElem? fun j => ?_
  rw [List.getElem?_mapIdx, List.getElem?_set]
  by_cases hj : k = j
  · subst hj
    have hlt := (List.getElem?_eq_some_iff.1 hk).1
    rw [hk, if_pos rfl, if_pos hlt]
    simp [settled, firstAnswer]
  · rw [if_neg hj]
    cases steps[j]? with
    | none => rfl
    | some g => cases g <;> simp [settled, firstAnswer, hj]

/-- A step that waits for no answer is not settled by one. -/
theorem mapIdx_settled_stray {steps : List Stage} {k : Nat}
    (hk : ∀ step, steps[k]? ≠ some (.waiting step)) (r : Except Error (Value × Value)) :
    steps.mapIdx (settled [.answer k r]) = steps := by
  refine mapIdx_eq_self fun j g hj => ?_
  cases g with
  | ended => rfl
  | waiting step =>
    have hne : k ≠ j := fun h => hk step (h ▸ hj)
    simp [settled, firstAnswer, hne]

end Stage

/-- The steps on a closed cursor: those under way end with their answers, those begun fail. -/
def settle (events : List CursorEvent) (steps : List Stage) : List Stage :=
  steps.mapIdx (Stage.settled events) ++
    .replicate (started events) (.ended (.error (.cursorClosed false)))

theorem settle_nil (steps : List Stage) : settle [] steps = steps := by
  rw [settle, Stage.mapIdx_eq_self fun j g _ => Stage.settled_nil j g]
  exact List.append_nil steps

theorem settle_cons (a : CursorEvent) (rest : List CursorEvent) (steps : List Stage) :
    settle (a :: rest) steps = settle rest (settle [a] steps) := by
  have hcount : started (a :: rest) = started [a] + started rest :=
    @List.countP_append _ _ [a] rest
  have hstages : Stage.settled (a :: rest) = fun k => Stage.settled rest k ∘ Stage.settled [a] k :=
    funext fun k => funext (Stage.settled_cons a rest k)
  rw [settle, settle, settle, List.mapIdx_append, List.mapIdx_mapIdx, ← hstages, hcount,
    List.append_assoc, ← List.replicate_append_replicate]
  -- the steps that fail at once have nothing to settle
  rw [Stage.mapIdx_eq_self (l := .replicate _ _)]
  intro j g hj
  rw [List.eq_of_mem_replicate (List.mem_of_getElem? hj)]
  rfl

namespace Cursor

variable {c : Cursor Options}

theorem begin_of_closed (hc : c.state = .closed) (hp : c.pending = []) (step : Step) :
    c.begin step = .ended c (.error (.cursorClosed false)) := by
  cases step with
  | page => rw [begin, request, refusal?, hc]
  | item => rw [begin, take, hp, request, refusal?, hc]

theorem resume_of_closed (hc : c.state = .closed) (decode : Value → Except Error (List Value))
    (step : Step) (r : Except Error (Value × Value)) :
    c.resume decode step r = .ended c (dropped r) := by
  cases r with
  | error e => rfl
  | ok page => simp [resume, accept, hc, dropped]

theorem close_of_open (hc : c.state ≠ .closed) :
    c.close = { c with state := .closed, pending := [] } :=
  if_neg hc

end Cursor

namespace CursorRun

variable {decode : Value → Except Error (List Value)} {s : CursorRun Options}

theorem event_of_closed (hc : s.cursor.state = .closed) (hp : s.cursor.pending = [])
    (a : CursorEvent) : s.event decode a = { s with steps := settle [a] s.steps } := by
  -- a closed cursor stays as it is, so that only the stages of its steps change
  cases a with
  | close =>
    rw [event, if_pos hc, settle, Stage.mapIdx_eq_self fun j g _ => by cases g <;> rfl]
    exact congrArg (fun l => { s with steps := l }) (List.append_nil _).symm
  | start step =>
    rw [event, Cursor.begin_of_closed hc hp, settle,
      Stage.mapIdx_eq_self fun j g _ => by cases g <;> rfl]
    rfl
  | answer k r =>
    have hsettle : settle [.answer k r] s.steps =
        s.steps.mapIdx (Stage.settled [.answer k r]) := List.append_nil _
    rw [event, hsettle]
    split
    · next step hk =>
      rw [Stage.mapIdx_settled_answer hk, Cursor.resume_of_closed hc]
      rfl
    · next hk => rw [Stage.mapIdx_settled_stray hk]

/-- What happens to a closed cursor: its steps settle, and nothing else changes. -/
theorem run_of_closed (hc : s.cursor.state = .closed) (hp : s.cursor.pending = [])
    (events : List CursorEvent) :
    s.run decode events = { s with steps := settle events s.steps } := by
  induction events generalizing s with
  | nil => rw [settle_nil, run, List.foldl_nil]
  | cons a rest ih =>
    -- the cursor stays closed, so that the rest settles the stages that the first event leaves
    rw [settle_cons a rest s.steps, run, List.foldl_cons, event_of_closed hc hp]
    exact ih (s := { s with steps := settle [a] s.steps }) hc hp

/-- The first closing of a cursor, and all that follows it: the closing is reported once and for
all, the cursor is what it was but closed and empty, no request is made, and no step hands anything
on. -/
theorem closed_for_good (decode : Value → Except Error (List Value)) (id : Int)
    (options : Options) {before : List CursorEvent} (hbefore : .close ∉ before)
    (after : List CursorEvent) :
    let s := (ofCursor (.start id options)).run decode before
    let t := (ofCursor (.start id options)).run decode (before ++ .close :: after)
    s.cursor.state ≠ .closed ∧ s.closings = 0 ∧ t.closings = 1 ∧
      t.cursor = { s.cursor with state := .closed, pending := [] } ∧
      t.requests = s.requests ∧ t.steps = settle after s.steps := by
  intro s t
  have hstart : (Cursor.start id options).state ≠ .closed := nofun
  obtain ⟨hs, hclosings⟩ := run_of_open decode (s := ofCursor (.start id options)) hstart hbefore
  let c : CursorRun Options := { s with cursor := s.cursor.close, closings := s.closings + 1 }
  have hc : c.cursor = { s.cursor with state := .closed, pending := [] } :=
    Cursor.close_of_open hs
  have ht : t = { c with steps := settle after c.steps } := calc
    t = run decode after (s.event decode .close) := run_append decode before (.close :: after) _
    _ = run decode after c := by rw [event, if_neg hs]
    _ = { c with steps := settle after c.steps } :=
      run_of_closed (by rw [hc]) (by rw [hc]) after
  rw [ht]
  exact ⟨hs, hclosings, congrArg (· + 1) hclosings, hc, rfl, rfl⟩

/-- Two steps are under way when the cursor is closed, and another one begins. One of the answers
is a page, the other a failure. -/
theorem closed_for_good_underWay :
    let page : Except Error (Value × Value) :=
      .ok (.bytes (Bytes.ascii "5"), .list [.int 1])
    let failure : Except Error (Value × Value) := .error (.reply (.ofString "LOADING"))
    let t := (ofCursor (.start 7 ())).run Value.items
      ([.start .page, .start .item] ++
        .close :: [.answer 1 page, .start .item, .close, .answer 0 failure])
    t.closings = 1 ∧ t.requests = [(7, ()), (7, ())] ∧
      t.steps = [.ended (.error (.reply (.ofString "LOADING"))),
        .ended (.error (.cursorClosed true)), .ended (.error (.cursorClosed false))] := by
  intro page failure t
  obtain ⟨-, -, hclosings, -, hrequests, hsteps⟩ := @closed_for_good Unit Value.items 7 ()
    [.start .page, .start .item] (by simp)
    [.answer 1 page, .start .item, .close, .answer 0 failure]
  exact ⟨hclosings, hrequests, hsteps⟩

end CursorRun

/-! ## Prepared answers -/

namespace Script

/-- A script with the stages of all steps begun on its cursor. -/
def toRun (s : Script) (steps : List Stage) : CursorRun Value where
  cursor := s.cursor
  requests := s.requests
  steps := steps
  closings := s.closings

theorem event_close (decode : Value → Except Error (List Value)) (s : Script)
    (steps : List Stage) : (s.toRun steps).event decode .close = s.close.toRun steps := by
  by_cases hc : s.cursor.state = .closed
  · rw [CursorRun.event, close, if_pos hc]
    exact if_pos hc
  · rw [CursorRun.event, close, if_neg hc]
    exact if_neg hc

theorem close_decode (s : Script) : s.close.decode = s.decode := by
  rw [close]
  split <;> rfl

theorem answer_decode (a : Answer) (rest : List Answer) (s : Script) :
    (s.answer a rest).1.decode = s.decode := by
  cases a with
  | closing => exact close_decode _
  | page | failure => rfl

/-- The last step goes on with an answer. -/
theorem event_answer_last (decode : Value → Except Error (List Value)) (s : Script)
    (steps : List Stage) (step : Step) (r : Except Error (Value × Value)) :
    (s.toRun (steps ++ [.waiting step])).event decode (.answer steps.length r) =
      (s.toRun steps).proceed (fun g => steps ++ [g]) step (s.cursor.resume decode step r) := by
  have hlast : (s.toRun (steps ++ [.waiting step])).steps[steps.length]? = some (.waiting step) := by
    simp [toRun]
  rw [CursorRun.event, hlast]
  cases h : s.cursor.resume decode step r <;> simp [CursorRun.proceed, toRun, h]

/-- A request is answered by an event, before which the cursor may be closed. -/
theorem exists_run_of_answer (step : Step) (steps : List Stage) (a : Answer) (rest : List Answer)
    (s : Script) : ∃ events, (s.toRun (steps ++ [.waiting step])).run s.decode events =
      ((s.answer a rest).1.toRun steps).proceed (fun g => steps ++ [g]) step
        ((s.answer a rest).1.cursor.resume s.decode step (s.answer a rest).2) := by
  cases a with
  | page next raw =>
    exact ⟨[.answer steps.length (.ok (next, raw))], event_answer_last s.decode s steps step _⟩
  | failure message =>
    exact ⟨[.answer steps.length (.error (.reply message))],
      event_answer_last s.decode s steps step _⟩
  | closing next raw =>
    refine ⟨[.close, .answer steps.length (.ok (next, raw))], ?_⟩
    exact (congrArg (CursorRun.event s.decode · (.answer steps.length (.ok (next, raw))))
      (event_close s.decode { s with answers := rest } _)).trans
        (event_answer_last s.decode _ steps step _)

theorem exists_run_of_progress (step : Step) (steps : List Stage) (answers : List Answer)
    (s : Script) (p : Progress Value) : ∃ events,
      ((s.toRun steps).proceed (fun g => steps ++ [g]) step p).run s.decode events =
        (run step answers s p).1.toRun (steps ++ [.ended (run step answers s p).2]) := by
  induction answers generalizing s p with
  | nil =>
    cases p with
    | ended c r => exact ⟨[], rfl⟩
    | fetch c =>
      exact ⟨[.answer steps.length (.error ranOut)],
        event_answer_last s.decode (s.note c) steps step (.error ranOut)⟩
  | cons a rest ih =>
    cases p with
    | ended c r => exact ⟨[], rfl⟩
    | fetch c =>
      -- the answer is one event or two, and the step goes on from there
      have hrun : run step (a :: rest) s (.fetch c) = run step rest ((s.note c).answer a rest).1
          (((s.note c).answer a rest).1.cursor.resume s.decode step
            ((s.note c).answer a rest).2) := by
        have hdecode : ((s.note c).answer a rest).1.decode = s.decode := answer_decode ..
        rw [← hdecode]
        rfl
      obtain ⟨events, h⟩ := exists_run_of_answer step steps a rest (s.note c)
      obtain ⟨events', h'⟩ := ih ((s.note c).answer a rest).1
        (((s.note c).answer a rest).1.cursor.resume s.decode step ((s.note c).answer a rest).2)
      rw [answer_decode] at h'
      refine ⟨events ++ events', (CursorRun.run_append s.decode events events' _).trans ?_⟩
      rw [hrun]
      exact (congrArg (CursorRun.run s.decode events') h).trans h'

/-- A step over prepared answers is one of the runs of its cursor. -/
theorem exists_run (s : Script) (step : Step) (steps : List Stage) : ∃ events,
    (s.toRun steps).run s.decode events =
      (s.advance step).1.toRun (steps ++ [.ended (s.advance step).2]) := by
  obtain ⟨events, h⟩ := exists_run_of_progress step steps s.answers s (s.cursor.begin step)
  exact ⟨.start step :: events, h⟩

end Script

end SortedSets

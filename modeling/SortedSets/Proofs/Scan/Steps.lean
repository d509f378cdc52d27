import SortedSets.Scan.Script

/-!
# The steps of a scan

What a step of a cursor does when the server answers at once. A step by pages makes one request. A
step by items takes an item that waits, or makes requests until a page with items arrives, the scan
is over, or a request fails. What an answer means does not depend on the step that asked.

## Main definitions

* `Arrival`: what an answer to a request for a page comes to
* `Cursor.turn`, `Cursor.collect`: a cursor after a page was read
* `Script.asked`, `Script.arrival`: a scan after one more request, and what the request came to
* `Script.Passes`: the pages that a step by items reads
* `Script.Ends`: how a step ends

## Main results

* `Cursor.resume_of_open`: a step that goes on with an answer
* `Script.advance_of_request`: a step that makes a request
* `Script.advance_cases`: all that a step can do
-/

namespace SortedSets

/-! ## Answers -/

/-- What an answer to a request for a page comes to, as long as the cursor is open. -/
inductive Arrival where
  /-- There is no page, or it names no cursor. -/
  | failed (e : Error)
  /-- A page that names a cursor, but whose items cannot be read. -/
  | garbled (next : Int) (e : Error)
  | page (p : Page)

/-- What the result of a request comes to. -/
def Arrival.ofResult (decode : Value → Except Error (List Value)) :
    Except Error (Value × Value) → Arrival
  | .error e => .failed e
  | .ok (next, raw) =>
    match next.toInt with
    | .error e => .failed e
    | .ok n =>
      match decode raw with
      | .error e => .garbled n e
      | .ok items => .page ⟨n, items⟩

namespace Cursor

variable {Options : Type}

/-- The cursor after a page was read, whose items are handed on. -/
def turn (p : Page) (c : Cursor Options) : Cursor Options :=
  { c with id := p.cursor, state := stateAfter c.state p.cursor }

/-- The cursor after a page was read, whose items wait. -/
def collect (p : Page) (c : Cursor Options) : Cursor Options :=
  { c.turn p with pending := c.pending ++ p.items }

/-- A cursor is exhausted from the page on that names no next one. -/
theorem state_turn (p : Page) (c : Cursor Options) : (c.turn p).state = .exhausted ↔
    p.cursor = 0 ∨ c.state = .exhausted := by
  unfold turn stateAfter
  dsimp only
  split
  · next h => simp [h]
  · next h =>
    split
    · next hs => simp [h, hs]
    · simp [h]

theorem state_turn_ne_closed {c : Cursor Options} (hc : c.state ≠ .closed) (p : Page) :
    (c.turn p).state ≠ .closed := by
  unfold turn stateAfter
  dsimp only
  split
  · simp
  · split
    · simp
    · exact hc

/-- A cursor that is open and not exhausted may ask for a page. -/
theorem refusal?_of_open {c : Cursor Options} (hc : c.state ≠ .closed)
    (hx : c.state ≠ .exhausted) : c.refusal? = none := by
  unfold refusal?
  split
  · next h => exact absurd h hc
  · next h => exact absurd h hx
  · rfl

/-- A page put into an open cursor. -/
theorem accept_of_open {c : Cursor Options} (hc : c.state ≠ .closed)
    (decode : Value → Except Error (List Value)) (next raw : Value) :
    c.accept decode next raw =
      match Arrival.ofResult decode (.ok (next, raw)) with
      | .failed e => (c, .error e)
      | .garbled n e => ({ c with id := n }, .error e)
      | .page p => (c.turn p, .ok p) := by
  simp only [accept, if_neg hc, Arrival.ofResult]
  cases next.toInt with
  | error e => rfl
  | ok n => cases decode raw <;> rfl

/-- A step that goes on with an answer. -/
theorem resume_of_open {c : Cursor Options} (hc : c.state ≠ .closed)
    (decode : Value → Except Error (List Value)) (step : Step)
    (answer : Except Error (Value × Value)) :
    c.resume decode step answer =
      match Arrival.ofResult decode answer, step with
      | .failed e, _ => .ended c (.error e)
      | .garbled n e, _ => .ended { c with id := n } (.error e)
      | .page p, .page => .ended (c.turn p) (.ok (.page p))
      | .page p, .item => (c.collect p).take := by
  cases answer with
  | error e => rfl
  | ok page =>
    obtain ⟨next, raw⟩ := page
    simp only [resume, accept_of_open hc]
    cases Arrival.ofResult decode (.ok (next, raw)) <;> cases step <;> rfl

end Cursor

/-! ## Requests -/

/-- The cursor is closed while the page of the answer is fetched. -/
def Answer.closes : Answer → Bool
  | .closing .. => true
  | _ => false

/-- What a request for a page is answered. -/
def Answer.result : Answer → Except Error (Value × Value)
  | .page next raw | .closing next raw => .ok (next, raw)
  | .failure message => .error (.reply message)

/-- What an answer comes to, or that there is none. -/
def Arrival.ofAnswer (decode : Value → Except Error (List Value)) (a : Option Answer) : Arrival :=
  .ofResult decode (a.elim (.error Script.ranOut) Answer.result)

/-- The items of a page of the answer can be read. -/
def Answer.Readable (decode : Value → Except Error (List Value)) (a : Answer) : Prop :=
  ∀ next raw, a.result = .ok (next, raw) → ∃ items, decode raw = .ok items

section Arrivals

variable {decode : Value → Except Error (List Value)}

/-- A value that is no integer is not the end of a scan. -/
theorem Value.toInt_ne_exhausted {v : Value} {e : Error} (h : v.toInt = .error e) :
    e ≠ .exhausted := by
  rintro rfl
  unfold toInt at h
  grind

/-- No request fails with the end of the scan. -/
theorem Arrival.failed_ne_exhausted {a : Option Answer} {e : Error}
    (h : Arrival.ofAnswer decode a = .failed e) : e ≠ .exhausted := by
  -- an error comes from the request, from its cursor, or from its items
  cases ha : a.elim (.error Script.ranOut) Answer.result with
  | error e' =>
    rw [ofAnswer, ha, ofResult, failed.injEq] at h
    have : ∃ text, e' = .reply text := by
      match a, ha with
      | none, rfl => exact ⟨_, rfl⟩
      | some (.failure text), rfl => exact ⟨_, rfl⟩
    obtain ⟨text, rfl⟩ := this
    exact h ▸ Error.noConfusion
  | ok page =>
    obtain ⟨next, raw⟩ := page
    rw [ofAnswer, ha, ofResult] at h
    cases hn : next.toInt with
    | error e' =>
      rw [hn, failed.injEq] at h
      exact h ▸ Value.toInt_ne_exhausted hn
    | ok n =>
      rw [hn] at h
      cases hd : decode raw <;> simp [hd] at h

theorem Arrival.not_garbled {a : Option Answer} (h : ∀ b ∈ a, b.Readable decode) (n : Int)
    (e : Error) : Arrival.ofAnswer decode a ≠ .garbled n e := by
  intro hg
  cases a with
  | none => cases hg
  | some a =>
    rw [ofAnswer, Option.elim_some] at hg
    cases hr : a.result with
    | error e' => rw [hr] at hg; cases hg
    | ok page =>
      obtain ⟨next, raw⟩ := page
      obtain ⟨items, hd⟩ := h a rfl next raw hr
      rw [hr, ofResult, hd] at hg
      cases hn : next.toInt <;> simp [hn] at hg

end Arrivals

namespace Script

/-- The cursor is open, and nobody closes it while a page is fetched. -/
structure Calm (s : Script) : Prop where
  state_ne : s.cursor.state ≠ .closed
  answers : ∀ a ∈ s.answers, a.closes = false

/-- The scan after one more request. -/
def asked (s : Script) : Script :=
  { s with requests := s.requests ++ [(s.cursor.id, s.cursor.options)], answers := s.answers.tail }

/-- The scan after a page that a step by pages hands on. -/
def turned (s : Script) (p : Page) : Script :=
  { s.asked with cursor := s.cursor.turn p }

/-- The scan after a page whose items wait. -/
def collected (s : Script) (p : Page) : Script :=
  { s.asked with cursor := s.cursor.collect p }

/-- The scan after a page whose items cannot be read: the cursor is that of the page. -/
def misled (s : Script) (next : Int) : Script :=
  { s.asked with cursor := { s.cursor with id := next } }

/-- The scan after an item was taken, with the items that wait behind it. -/
def popped (s : Script) (rest : List Value) : Script :=
  { s with cursor := { s.cursor with pending := rest, position := s.cursor.position + 1 } }

/-- What the next request comes to. -/
def arrival (s : Script) : Arrival :=
  Arrival.ofAnswer s.decode s.answers.head?

/-- A step that finds no item that waits. -/
def NeedsPage (s : Script) (step : Step) : Prop :=
  step = .item → s.cursor.pending = []

variable {s : Script} {step : Step}

/-- There is an answer less after a page. -/
theorem length_answers_collected {p : Page} (ha : s.arrival = .page p) :
    (s.collected p).answers.length < s.answers.length := by
  rw [collected, asked, List.length_tail]
  refine Nat.sub_lt (List.length_pos_iff.2 fun h => ?_) Nat.one_pos
  rw [arrival, h] at ha
  cases ha

@[simp]
theorem run_ended (step : Step) (answers : List Answer) (s : Script) (c : Cursor Value)
    (r : Except Error Delivery) :
    run step answers s (.ended c r) = ({ s with cursor := c }, r) := by
  cases answers <;> rfl

/-- The run of a step depends on the cursor of its progress only. -/
theorem run_setCursor (step : Step) (answers : List Answer) (c : Cursor Value) (s : Script)
    (p : Progress Value) : run step answers { s with cursor := c } p = run step answers s p := by
  cases p with
  | ended d r => simp
  | fetch d => cases answers <;> rfl

/-- An answer that does not close the cursor leaves it as it is. -/
theorem answer_of_open {a : Answer} (ha : a.closes = false) (rest : List Answer) (s : Script) :
    s.answer a rest = ({ s with answers := rest }, a.result) := by
  cases a with
  | page next raw => rfl
  | failure message => rfl
  | closing next raw => cases ha

section Begin

variable (hs : s.Calm) (hp : s.NeedsPage step)

include hp

/-- A step that finds no item begins with a request, unless the scan is over. -/
theorem begin_of_needsPage : s.cursor.begin step = s.cursor.request := by
  cases step with
  | page => rfl
  | item => rw [Cursor.begin, Cursor.take, hp rfl]

/-- A scan that is over. -/
theorem advance_of_exhausted (hx : s.cursor.state = .exhausted) :
    s.advance step = (s, .error .exhausted) := by
  rw [advance, begin_of_needsPage hp, Cursor.request, Cursor.refusal?, hx]
  exact run_ended ..

include hs

/-- A step that makes a request ends with the answer, unless it is one by items that is told a page.
Then it goes on as it would if the items of the page had waited. -/
theorem advance_of_request (hx : s.cursor.state ≠ .exhausted) :
    s.advance step =
      match s.arrival, step with
      | .failed e, _ => (s.asked, .error e)
      | .garbled n e, _ => (s.misled n, .error e)
      | .page p, .page => (s.turned p, .ok (.page p))
      | .page p, .item => (s.collected p).advance .item := by
  -- a cursor that needs a page asks for it before it does anything else
  have hrun : s.advance step = run step s.answers.tail s.asked
      (s.cursor.resume s.decode step (s.answers.head?.elim (.error ranOut) Answer.result)) := by
    rw [advance, begin_of_needsPage hp, Cursor.request, Cursor.refusal?_of_open hs.state_ne hx]
    cases ha : s.answers with
    | nil => simp [run, asked, note, ha, Cursor.resume]
    | cons a rest =>
      simp [run, answer_of_open (hs.answers a (ha ▸ List.mem_cons_self)), asked, note, ha]
  rw [hrun, Cursor.resume_of_open hs.state_ne, arrival, Arrival.ofAnswer]
  cases Arrival.ofResult s.decode (s.answers.head?.elim (.error ranOut) Answer.result) with
  | failed e => exact run_ended ..
  | garbled n e => exact run_ended ..
  | page p =>
    cases step with
    | page => exact run_ended ..
    | item => exact (run_setCursor ..).symm

end Begin

/-- A step by items takes the first item that waits. -/
theorem advance_item_of_pending {v : Value} {vs : List Value} (hp : s.cursor.pending = v :: vs) :
    s.advance .item = (s.popped vs, .ok (.item v)) := by
  rw [advance, Cursor.begin, Cursor.take, hp]
  exact run_ended ..

/-! ## All that a step can do -/

/-- The pages that a step by items reads, and the scan after them. It reads a page only if no item
waits, so that no page but the last can have items. -/
inductive Passes : Script → List Page → Script → Prop
  | nil (s : Script) : Passes s [] s
  | cons {s t : Script} {p : Page} {ps : List Page} (hp : s.cursor.pending = [])
      (hx : s.cursor.state ≠ .exhausted) (ha : s.arrival = .page p)
      (h : Passes (s.collected p) ps t) : Passes s (p :: ps) t

/-- How a step ends after the pages that it reads. -/
inductive Ends (s : Script) : Step → Script × Except Error Delivery → Prop
  | finished {step : Step} (hp : s.NeedsPage step) (hx : s.cursor.state = .exhausted) :
      Ends s step (s, .error .exhausted)
  | failed {step : Step} {e : Error} (hp : s.NeedsPage step) (hx : s.cursor.state ≠ .exhausted)
      (ha : s.arrival = .failed e) : Ends s step (s.asked, .error e)
  | garbled {step : Step} {n : Int} {e : Error} (hp : s.NeedsPage step)
      (hx : s.cursor.state ≠ .exhausted) (ha : s.arrival = .garbled n e) :
      Ends s step (s.misled n, .error e)
  | page {p : Page} (hx : s.cursor.state ≠ .exhausted) (ha : s.arrival = .page p) :
      Ends s .page (s.turned p, .ok (.page p))
  | item {v : Value} {vs : List Value} (hp : s.cursor.pending = v :: vs) :
      Ends s .item (s.popped vs, .ok (.item v))

theorem Calm.asked (hs : s.Calm) {c : Cursor Value} (hc : c.state ≠ .closed) :
    Calm { s.asked with cursor := c } where
  state_ne := hc
  answers a ha := hs.answers a (List.mem_of_mem_tail ha)

theorem Calm.collected (hs : s.Calm) (p : Page) : (s.collected p).Calm :=
  hs.asked (c := s.cursor.collect p) (Cursor.state_turn_ne_closed hs.state_ne p)

/-- A step that is told no page. -/
theorem ends_of_noPage (hs : s.Calm) (hp : s.NeedsPage step)
    (hno : s.cursor.state = .exhausted ∨ ∀ p, s.arrival ≠ .page p) :
    s.Ends step (s.advance step) := by
  by_cases hx : s.cursor.state = .exhausted
  · rw [advance_of_exhausted hp hx]
    exact .finished hp hx
  · cases ha : s.arrival with
    | page p => exact absurd ha (hno.resolve_left hx p)
    | failed e =>
      rw [advance_of_request hs hp hx, ha]
      exact .failed hp hx ha
    | garbled n e =>
      rw [advance_of_request hs hp hx, ha]
      exact .garbled hp hx ha

/-- A step by items reads pages until an item waits. -/
theorem advance_item_cases (hs : s.Calm) :
    ∃ ps t, s.Passes ps t ∧ t.Ends .item (s.advance .item) := by
  -- each page that is read takes one of the answers to come
  induction hn : s.answers.length using Nat.strongRecOn generalizing s with
  | _ n ih =>
    cases hp : s.cursor.pending with
    | cons v vs =>
      rw [advance_item_of_pending hp]
      exact ⟨[], s, .nil s, .item hp⟩
    | nil =>
      by_cases hno : s.cursor.state = .exhausted ∨ ∀ p, s.arrival ≠ .page p
      · exact ⟨[], s, .nil s, ends_of_noPage hs (fun _ => hp) hno⟩
      · simp only [not_or, Classical.not_forall, Classical.not_not] at hno
        obtain ⟨hx, p, ha⟩ := hno
        obtain ⟨ps, t, hps, hend⟩ :=
          ih _ (hn ▸ length_answers_collected ha) (hs.collected p) rfl
        rw [advance_of_request hs (fun _ => hp) hx, ha]
        exact ⟨p :: ps, t, .cons hp hx ha hps, hend⟩

/-- All that a step can do. -/
theorem advance_cases (hs : s.Calm) (step : Step) : ∃ ps t, s.Passes ps t ∧
    (step = .page → ps = []) ∧ t.Ends step (s.advance step) := by
  cases step with
  | page =>
    refine ⟨[], s, .nil s, fun _ => rfl, ?_⟩
    have hp : s.NeedsPage .page := nofun
    by_cases hno : s.cursor.state = .exhausted ∨ ∀ p, s.arrival ≠ .page p
    · exact ends_of_noPage hs hp hno
    · simp only [not_or, Classical.not_forall, Classical.not_not] at hno
      obtain ⟨hx, p, ha⟩ := hno
      rw [advance_of_request hs hp hx, ha]
      exact .page hx ha
  | item =>
    obtain ⟨ps, t, hps, hend⟩ := advance_item_cases hs
    exact ⟨ps, t, hps, nofun, hend⟩

theorem Passes.calm {s t : Script} {ps : List Page} (h : s.Passes ps t) (hs : s.Calm) :
    t.Calm := by
  induction h with
  | nil => exact hs
  | cons _ _ _ _ ih => exact ih (hs.collected _)

theorem Passes.requests_prefix {s t : Script} {ps : List Page} (h : s.Passes ps t) :
    s.requests <+: t.requests := by
  induction h with
  | nil => exact List.prefix_rfl
  | cons _ _ _ _ ih => exact (List.prefix_append ..).trans ih

theorem Ends.requests_prefix {s : Script} {step : Step} {r : Script × Except Error Delivery}
    (h : s.Ends step r) : s.requests <+: r.1.requests := by
  cases h with
  | finished | item => exact List.prefix_rfl
  | failed | garbled | page => exact List.prefix_append ..

theorem Ends.calm {s : Script} {step : Step} {r : Script × Except Error Delivery}
    (h : s.Ends step r) (hs : s.Calm) : r.1.Calm := by
  cases h with
  | finished => exact hs
  | failed => exact hs.asked (c := s.cursor) hs.state_ne
  | garbled => exact hs.asked (c := { s.cursor with id := _ }) hs.state_ne
  | page => exact hs.asked (Cursor.state_turn_ne_closed hs.state_ne _)
  | item => exact ⟨hs.state_ne, hs.answers⟩

/-- A step leaves the cursor open. -/
theorem Calm.advance (hs : s.Calm) (step : Step) : (s.advance step).1.Calm := by
  obtain ⟨ps, t, hps, -, hend⟩ := advance_cases hs step
  exact hend.calm (hps.calm hs)

end Script

end SortedSets

import Mathlib.Data.List.Perm.Basic
import SortedSets.Proofs.Scan.Collect

/-!
# Every item is delivered once

A scan over answers that can be read, with steps by pages and steps by items in any order. Every
page that arrives is handed on whole or item by item; a request that fails is made again; the scan
is over when the page has arrived that names no next one.

## Main definitions

* `arrived`, `returned`, `yielded`: the pages that arrived, those handed on and the items taken
* `cursorAfter`: the cursor that answers lead to
* `Delivered`: what holds of a scan under way
* `Ended`: how a step of such a scan ends

## Main results

* `Tally.advance`, `Tally.steps`: what one step and what steps do to the account of a scan
* `Script.delivers`: a scan delivers every item once
-/

namespace SortedSets

/-! ## Observations -/

section Observations

variable {decode : Value → Except Error (List Value)}

/-- The page that arrived, if one did. -/
def Arrival.page? : Arrival → Option Page
  | .page p => some p
  | _ => none

/-- The pages that arrive by answers. -/
def arrived (decode : Value → Except Error (List Value)) (answers : List Answer) : List Page :=
  answers.filterMap fun a => (Arrival.ofAnswer decode (some a)).page?

/-- The pages among the outcomes of steps. -/
def returned (outcomes : List (Except Error Delivery)) : List Page :=
  outcomes.filterMap fun r =>
    match r with
    | .ok (.page p) => some p
    | _ => none

/-- The items among the outcomes of steps. -/
def yielded (outcomes : List (Except Error Delivery)) : List Value :=
  outcomes.filterMap fun r =>
    match r with
    | .ok (.item v) => some v
    | _ => none

/-- The cursor that answers lead to from the cursor `id`. -/
def cursorAfter (decode : Value → Except Error (List Value)) (id : Int) (answers : List Answer) :
    Int :=
  ((arrived decode answers).getLast?.map Page.cursor).getD id

theorem arrived_take_succ (answers : List Answer) (n : Nat) :
    arrived decode (answers.take (n + 1)) =
      arrived decode (answers.take n) ++ (Arrival.ofAnswer decode answers[n]?).page?.toList := by
  rw [arrived, List.take_add_one, List.filterMap_append]
  cases answers[n]? with
  | none => rfl
  | some a =>
    simp only [Option.toList_some, List.filterMap_cons, List.filterMap_nil, arrived]
    cases (Arrival.ofAnswer decode (some a)).page? <;> rfl

theorem cursorAfter_take_succ (id : Int) (answers : List Answer) (n : Nat) :
    cursorAfter decode id (answers.take (n + 1)) =
      ((Arrival.ofAnswer decode answers[n]?).page?.map Page.cursor).getD
        (cursorAfter decode id (answers.take n)) := by
  rw [cursorAfter, arrived_take_succ, List.getLast?_append]
  cases (Arrival.ofAnswer decode answers[n]?).page? <;> rfl

end Observations

/-! ## The account of a scan -/

/-- What holds of a scan from the cursor `id` on, of which pages were handed on and items taken. -/
structure Delivered (id : Int) (options : Value) (answers : List Answer)
    (decode : Value → Except Error (List Value)) (s : Script) (pages : List Page)
    (items : List Value) : Prop where
  /-- A request names the cursor of the last page that arrived. -/
  requests : s.requests = (List.range s.requests.length).map fun i =>
    (cursorAfter decode id (answers.take i), options)
  /-- No request follows the page that names no next one. -/
  last : ∀ i < s.requests.length, ∀ p ∈ arrived decode (answers.take i), p.cursor ≠ 0
  /-- Every item that arrived was handed on, was taken or waits, and once only. -/
  once : (pages.flatMap Page.items ++ (items ++ s.cursor.pending)).Perm
    ((arrived decode (answers.take s.requests.length)).flatMap Page.items)
  pages_in_order : pages.Sublist (arrived decode (answers.take s.requests.length))
  items_in_order : (items ++ s.cursor.pending).Sublist
    ((arrived decode (answers.take s.requests.length)).flatMap Page.items)
  position : s.cursor.position = items.length

/-- How a step ends that begins after `k` requests and leaves a scan behind. -/
inductive Ended (answers : List Answer) (decode : Value → Except Error (List Value)) (k : Nat)
    (s : Script) : Step → Except Error Delivery → Prop
  | page (p : Page) : Ended answers decode k s .page (.ok (.page p))
  | item (v : Value) : Ended answers decode k s .item (.ok (.item v))
  /-- The last request of the step failed. -/
  | failed {step : Step} {n : Nat} {e : Error} (hk : k ≤ n) (hn : s.requests.length = n + 1)
      (ha : Arrival.ofAnswer decode answers[n]? = .failed e) (he : e ≠ .exhausted) :
      Ended answers decode k s step (.error e)
  | exhausted {step : Step}
      (hp : ∃ p ∈ arrived decode (answers.take s.requests.length), p.cursor = 0)
      (hi : step = .item → s.cursor.pending = []) :
      Ended answers decode k s step (.error .exhausted)

/-- The account of a scan with what the next step needs to know. -/
structure Tally (id : Int) (options : Value) (answers : List Answer)
    (decode : Value → Except Error (List Value)) (s : Script) (pages : List Page)
    (items : List Value) : Prop extends Delivered id options answers decode s pages items where
  calm : s.Calm
  decode_eq : s.decode = decode
  answers_eq : s.answers = answers.drop s.requests.length
  options_eq : s.cursor.options = options
  id_eq : s.cursor.id = cursorAfter decode id (answers.take s.requests.length)
  exhausted : s.cursor.state = .exhausted ↔
    ∃ p ∈ arrived decode (answers.take s.requests.length), p.cursor = 0

namespace Tally

variable {id : Int} {options : Value} {answers : List Answer}
  {decode : Value → Except Error (List Value)} {s : Script} {pages : List Page}
  {items : List Value}

theorem arrival (h : Tally id options answers decode s pages items) :
    s.arrival = Arrival.ofAnswer decode answers[s.requests.length]? := by
  rw [Script.arrival, h.decode_eq, h.answers_eq, List.head?_drop]

/-- The start of a scan. -/
theorem start (id : Int) (options : Value) (hcalm : ∀ a ∈ answers, a.closes = false) :
    Tally id options answers decode (.start (.start id options) answers decode) [] [] where
  requests := rfl
  last i hi := absurd hi (Nat.not_lt_zero i)
  once := .refl _
  pages_in_order := .refl _
  items_in_order := .refl _
  position := rfl
  calm := ⟨nofun, hcalm⟩
  decode_eq := rfl
  answers_eq := rfl
  options_eq := rfl
  id_eq := rfl
  exhausted := by simp [Script.start, Cursor.start, arrived]

/-- A request, and the page that arrived by it. -/
theorem asked (h : Tally id options answers decode s pages items)
    (hx : s.cursor.state ≠ .exhausted) (new : Option Page) (ha : s.arrival.page? = new)
    (c : Cursor Value) (hopen : c.state ≠ .closed) (hoptions : c.options = s.cursor.options)
    (hid : c.id = (new.map Page.cursor).getD s.cursor.id)
    (hstate : c.state = .exhausted ↔ ∃ p ∈ new, p.cursor = 0)
    (hposition : c.position = s.cursor.position) {pages' : List Page}
    (honce : (pages'.flatMap Page.items ++ (items ++ c.pending)).Perm
      (pages.flatMap Page.items ++ (items ++ s.cursor.pending) ++ new.toList.flatMap Page.items))
    (hpages : pages'.Sublist (pages ++ new.toList))
    (hitems : (items ++ c.pending).Sublist
      (items ++ s.cursor.pending ++ new.toList.flatMap Page.items)) :
    Tally id options answers decode { s.asked with cursor := c } pages' items := by
  have hn : s.asked.requests.length = s.requests.length + 1 := by simp [Script.asked]
  have harrived : arrived decode (answers.take s.asked.requests.length) =
      arrived decode (answers.take s.requests.length) ++ new.toList := by
    rw [hn, arrived_take_succ, ← h.arrival, ha]
  -- the scan is not over when a page is asked for, so that none that arrived was the last
  have hnone : ∀ p ∈ arrived decode (answers.take s.requests.length), p.cursor ≠ 0 :=
    fun p hp h0 => hx (h.exhausted.2 ⟨p, hp, h0⟩)
  exact {
    requests := by
      rw [hn, List.range_succ, List.map_append, ← h.requests, List.map_singleton, ← h.id_eq,
        ← h.options_eq]
      rfl
    last := fun i hi p hp => by
      obtain hlt | heq := Nat.lt_succ_iff_lt_or_eq.1 (hn ▸ hi)
      · exact h.last i hlt p hp
      · exact hnone p (heq ▸ hp)
    once := by
      rw [harrived, List.flatMap_append]
      exact honce.trans (h.once.append_right _)
    pages_in_order := by
      rw [harrived]
      exact hpages.trans (h.pages_in_order.append_right _)
    items_in_order := by
      rw [harrived, List.flatMap_append]
      exact hitems.trans (h.items_in_order.append_right _)
    position := hposition.trans h.position
    calm := h.calm.asked hopen
    decode_eq := h.decode_eq
    answers_eq := by
      rw [hn, ← List.tail_drop, ← h.answers_eq]
      rfl
    options_eq := hoptions.trans h.options_eq
    id_eq := by
      rw [hn, cursorAfter_take_succ, ← h.arrival, ha, ← h.id_eq]
      exact hid
    exhausted := by
      rw [harrived]
      constructor
      · intro hc
        obtain ⟨p, hp, h0⟩ := hstate.1 hc
        exact ⟨p, List.mem_append_right _ (Option.mem_toList.2 hp), h0⟩
      · rintro ⟨p, hp, h0⟩
        obtain hp | hp := List.mem_append.1 hp
        · exact absurd h0 (hnone p hp)
        · exact hstate.2 ⟨p, Option.mem_toList.1 hp, h0⟩ }

/-- A request that failed. -/
theorem of_failed (h : Tally id options answers decode s pages items)
    (hx : s.cursor.state ≠ .exhausted) {e : Error} (ha : s.arrival = .failed e) :
    Tally id options answers decode s.asked pages items :=
  h.asked hx none (by rw [ha]; rfl) s.cursor h.calm.state_ne rfl rfl (by simp [hx]) rfl
    (by simp) (by simp) (by simp)

/-- A page handed on. -/
theorem of_turn (h : Tally id options answers decode s pages items)
    (hx : s.cursor.state ≠ .exhausted) {p : Page} (ha : s.arrival = .page p) :
    Tally id options answers decode (s.turned p) (pages ++ [p]) items := by
  refine h.asked hx (some p) (by rw [ha]; rfl) (s.cursor.turn p)
    (Cursor.state_turn_ne_closed h.calm.state_ne p) rfl rfl ?_ rfl ?_ (.refl _)
    (List.sublist_append_left ..)
  · simp [Cursor.state_turn, hx]
  · -- the items of the page stand before those that were taken or wait
    have hp : (p.items ++ (items ++ s.cursor.pending)).Perm (items ++ s.cursor.pending ++ p.items) :=
      List.perm_append_comm
    simpa [Cursor.turn] using hp.append_left (pages.flatMap Page.items)

/-- A page whose items wait. -/
theorem of_collect (h : Tally id options answers decode s pages items)
    (hx : s.cursor.state ≠ .exhausted) {p : Page} (ha : s.arrival = .page p) :
    Tally id options answers decode (s.collected p) pages items := by
  refine h.asked hx (some p) (by rw [ha]; rfl) (s.cursor.collect p)
    (Cursor.state_turn_ne_closed h.calm.state_ne p) rfl rfl ?_ rfl ?_
    (List.sublist_append_left ..) ?_
  · exact (Cursor.state_turn p _).trans (by simp [hx])
  · simp [Cursor.collect]
  · simp [Cursor.collect]

/-- An item taken. -/
theorem of_pending (h : Tally id options answers decode s pages items) {v : Value}
    {vs : List Value} (hp : s.cursor.pending = v :: vs) :
    Tally id options answers decode (s.popped vs) pages (items ++ [v]) where
  requests := h.requests
  last := h.last
  once := by simpa [Script.popped, hp] using h.once
  pages_in_order := h.pages_in_order
  items_in_order := by simpa [Script.popped, hp] using h.items_in_order
  position := by rw [List.length_append, ← h.position]; rfl
  calm := ⟨h.calm.state_ne, h.calm.answers⟩
  decode_eq := h.decode_eq
  answers_eq := h.answers_eq
  options_eq := h.options_eq
  id_eq := h.id_eq
  exhausted := h.exhausted

/-- The pages that a step by items reads keep the account. -/
theorem of_passes (h : Tally id options answers decode s pages items) {ps : List Page}
    {t : Script} (hps : s.Passes ps t) : Tally id options answers decode t pages items := by
  induction hps with
  | nil => exact h
  | cons _ hx ha _ ih => exact ih (h.of_collect hx ha)

/-- What a step does to the account of a scan. -/
theorem advance (h : Tally id options answers decode s pages items)
    (hread : ∀ a ∈ answers, a.Readable decode) (step : Step) :
    Tally id options answers decode (s.advance step).1 (pages ++ returned [(s.advance step).2])
        (items ++ yielded [(s.advance step).2]) ∧
      Ended answers decode s.requests.length (s.advance step).1 step (s.advance step).2 := by
  -- the pages that are read first keep the account, and the end of the step adds its outcome
  obtain ⟨ps, t, hps, -, hend⟩ := Script.advance_cases h.calm step
  have ht := h.of_passes hps
  generalize s.advance step = r at hend ⊢
  cases hend with
  | finished hp hx =>
    exact ⟨by simpa [returned, yielded] using ht, .exhausted (ht.exhausted.1 hx) hp⟩
  | failed hp hx ha =>
    have hn : t.asked.requests.length = t.requests.length + 1 := by simp [Script.asked]
    have ha' := ht.arrival ▸ ha
    exact ⟨by simpa [returned, yielded] using ht.of_failed hx ha,
      .failed hps.requests_prefix.length_le hn ha' (Arrival.failed_ne_exhausted ha')⟩
  | garbled hp hx ha =>
    exact absurd (ht.arrival ▸ ha)
      (Arrival.not_garbled (fun a ha => hread a (List.mem_of_getElem? ha)) _ _)
  | page hx ha => exact ⟨by simpa [returned, yielded] using ht.of_turn hx ha, .page _⟩
  | item hp => exact ⟨by simpa [returned, yielded] using ht.of_pending hp, .item _⟩

/-- What steps do to the account of a scan. -/
theorem steps (h : Tally id options answers decode s pages items)
    (hread : ∀ a ∈ answers, a.Readable decode) (l : List Step) :
    Tally id options answers decode (s.steps l).1 (pages ++ returned (s.steps l).2)
      (items ++ yielded (s.steps l).2) := by
  induction l generalizing s pages items with
  | nil => simpa [Script.steps, returned, yielded] using h
  | cons step rest ih =>
    have := ih (h.advance hread step).1
    simpa [Script.steps, returned, yielded, List.append_assoc, ← List.filterMap_append] using this

end Tally

namespace Script

/-- A scan delivers every item once: whatever steps were made, the requests followed the cursors of
the pages, and the items that arrived were handed on with their page, were taken in order or wait;
a step fails only with its last request or, nothing being left, once the scan is over. To take all
items comes to steps by items. -/
theorem delivers (id : Int) (options : Value) {answers : List Answer}
    {decode : Value → Except Error (List Value)} (hcalm : ∀ a ∈ answers, a.closes = false)
    (hread : ∀ a ∈ answers, a.Readable decode) (l : List Step) :
    let scan := start (.start id options) answers decode
    Delivered id options answers decode (scan.steps l).1 (returned (scan.steps l).2)
        (yielded (scan.steps l).2) ∧
      (∀ step, Ended answers decode (scan.steps l).1.requests.length
        ((scan.steps l).1.advance step).1 step ((scan.steps l).1.advance step).2) ∧
      ∃ items e, scan.steps (l ++ .replicate (items.length + 1) .item) =
          ((scan.steps l).1.collect.1,
            (scan.steps l).2 ++ (items.map (fun v => .ok (.item v)) ++ [.error e])) ∧
        (scan.steps l).1.collect.2 = gathered items e := by
  intro scan
  have h : Tally id options answers decode (scan.steps l).1 (returned (scan.steps l).2)
      (yielded (scan.steps l).2) := (Tally.start id options hcalm).steps hread l
  refine ⟨h.toDelivered, fun step => (h.advance hread step).2, ?_⟩
  obtain ⟨items, e, hsteps, hr⟩ := collect_eq_steps h.calm fun a ha => by
    rw [h.decode_eq]
    exact hread a (List.mem_of_mem_drop (h.answers_eq ▸ ha))
  exact ⟨items, e, by rw [steps_append, hsteps], hr⟩

/-- A page, a request that fails, a page without items and the last page. -/
def failingOnce : List Answer :=
  [.page (.bytes (Bytes.ascii "5")) (.list [.int 1]), .failure (.ofString "LOADING"),
    .page (.bytes (Bytes.ascii "2")) (.list []),
    .page (.bytes (Bytes.ascii "0")) (.list [.int 2, .int 3])]

/-- The first page is handed on whole; the item after the failure lies behind the empty page. -/
theorem delivers_failingOnce :
    let scan := start (.start 7 .none) failingOnce Value.items
    let s := (scan.steps [.page, .item, .item]).1
    s.requests = [(7, .none), (5, .none), (5, .none), (2, .none)] ∧
      Delivered 7 .none failingOnce Value.items s [⟨5, [.int 1]⟩] [.int 2] ∧
      s.cursor.pending = [.int 3] ∧
      Ended failingOnce Value.items 4 s .page (.error .exhausted) := by
  have hread : ∀ a ∈ failingOnce, a.Readable Value.items := by
    intro a ha next raw hr
    simp only [failingOnce, List.mem_cons, List.not_mem_nil, or_false] at ha
    obtain rfl | rfl | rfl | rfl := ha <;> cases hr <;> exact ⟨_, rfl⟩
  have h := @delivers 7 .none failingOnce Value.items (by simp [failingOnce, Answer.closes]) hread
    [.page, .item, .item]
  exact ⟨rfl, h.1, rfl, h.2.1 .page⟩

end Script

end SortedSets

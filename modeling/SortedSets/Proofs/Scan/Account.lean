import SortedSets.Proofs.Scan.Delivery

/-!
# The account of a cursor

Steps of one cursor may wait for pages at the same time, and a cursor may stand still for as long as
it may not ask for a page. What arrived, what was delivered and what waits make up an account, which
each half of a step keeps by itself: the one up to the page that it needs, and the one from the page
on.

## Main definitions

* `Cursor.Account`: what is true of a cursor, given what arrived for it and what it delivered
* `Cursor.Stands`: a cursor with such an account, unless it was closed
* `Cursor.Goes`: a step that has come so far keeps the account

## Main results

* `Cursor.Stands.begin`: a step up to the page that it needs
* `Cursor.Stands.resume`: a step from the answer on
-/

namespace SortedSets

/-- The cursor that an answer names. -/
def Arrival.next? : Arrival → Option Int
  | .failed _ => none
  | .garbled next _ => some next
  | .page p => some p.cursor

/-- The items of a delivery. -/
def Delivery.items : Delivery → List Value
  | .page p => p.items
  | .item v => [v]

/-- The item that is delivered by itself. -/
def Delivery.item? : Delivery → Option Value
  | .page _ => none
  | .item v => some v

namespace Cursor

variable {Options : Type}

/-- What is true of the cursor `now` of a scan that began with the cursor `first`, given all that
arrived for it and all that its steps delivered, in whatever order. -/
structure Account (first : Cursor Options) (arrived : List Arrival) (handed : List Delivery)
    (now : Cursor Options) : Prop where
  options_eq : now.options = first.options
  /-- The next request names the cursor that the last answer named. -/
  id_eq : now.id = (arrived.filterMap Arrival.next?).getLast?.getD first.id
  /-- The scan is over as soon as the page is there that names no next one. -/
  exhausted : now.state = .exhausted ↔ ∃ p ∈ arrived.filterMap Arrival.page?, p.cursor = 0
  /-- Every item that arrived was delivered or waits, and once only. -/
  once : (handed.flatMap Delivery.items ++ now.pending).Perm
    ((arrived.filterMap Arrival.page?).flatMap Page.items)
  position : now.position = (handed.filterMap Delivery.item?).length

namespace Account

variable {first now c : Cursor Options} {arrived : List Arrival} {handed handed' : List Delivery}

theorem start (id : Int) (options : Options) :
    Account (.start id options) [] [] (.start id options) where
  options_eq := rfl
  id_eq := rfl
  exhausted := by simp [Cursor.start]
  once := .refl _
  position := rfl

/-- The order in which things were delivered does not matter. -/
theorem perm (h : Account first arrived handed now) (hp : handed'.Perm handed) :
    Account first arrived handed' now where
  options_eq := h.options_eq
  id_eq := h.id_eq
  exhausted := h.exhausted
  once := ((hp.flatMap_right Delivery.items).append_right _).trans h.once
  position := h.position.trans (hp.filterMap Delivery.item?).length_eq.symm

/-- An answer arrives. -/
theorem arrive (h : Account first arrived handed now) {a : Arrival}
    (hoptions : c.options = now.options) (hid : c.id = a.next?.getD now.id)
    (hstate : c.state = .exhausted ↔ (∃ p ∈ a.page?, p.cursor = 0) ∨ now.state = .exhausted)
    (honce : (handed'.flatMap Delivery.items ++ c.pending).Perm
      (handed.flatMap Delivery.items ++ now.pending ++ a.page?.toList.flatMap Page.items))
    (hposition : c.position = now.position)
    (hitems : handed'.filterMap Delivery.item? = handed.filterMap Delivery.item?) :
    Account first (arrived ++ [a]) handed' c := by
  have hpages : (arrived ++ [a]).filterMap Arrival.page? =
      arrived.filterMap Arrival.page? ++ a.page?.toList := by
    rw [List.filterMap_append]
    cases ha : a.page? <;> simp [ha]
  -- identifier, state and items follow from what has arrived, to which one answer is added
  refine ⟨hoptions.trans h.options_eq, ?id, ?exhausted, ?once, ?position⟩
  case id =>
    rw [hid, h.id_eq, List.filterMap_append, List.getLast?_append]
    cases ha : a.next? <;> simp [ha]
  case exhausted =>
    rw [hstate, h.exhausted, hpages]
    constructor
    · rintro (⟨p, hp, h0⟩ | ⟨p, hp, h0⟩)
      · exact ⟨p, List.mem_append_right _ (Option.mem_toList.2 hp), h0⟩
      · exact ⟨p, List.mem_append_left _ hp, h0⟩
    · rintro ⟨p, hp, h0⟩
      rcases List.mem_append.1 hp with hp | hp
      · exact .inr ⟨p, hp, h0⟩
      · exact .inl ⟨p, Option.mem_toList.1 hp, h0⟩
  case once =>
    rw [hpages, List.flatMap_append]
    exact honce.trans (h.once.append_right _)
  case position => rw [hposition, h.position, hitems]

theorem failed (h : Account first arrived handed now) (e : Error) :
    Account first (arrived ++ [.failed e]) handed now :=
  h.arrive rfl rfl (by simp [Arrival.page?]) (by simp [Arrival.page?]) rfl rfl

theorem garbled (h : Account first arrived handed now) (n : Int) (e : Error) :
    Account first (arrived ++ [.garbled n e]) handed { now with id := n } :=
  h.arrive rfl rfl (by simp [Arrival.page?]) (by simp [Arrival.page?]) rfl rfl

/-- A page is delivered as soon as it arrives. -/
theorem turn (h : Account first arrived handed now) (p : Page) :
    Account first (arrived ++ [.page p]) (.page p :: handed) (now.turn p) := by
  refine h.arrive rfl rfl ?_ ?_ rfl rfl
  · simpa [Arrival.page?] using state_turn p now
  · -- the items that wait stand behind those of the page
    have hp : (p.items ++ (handed.flatMap Delivery.items ++ now.pending)).Perm
        (handed.flatMap Delivery.items ++ now.pending ++ p.items) := List.perm_append_comm
    simpa [Arrival.page?, Cursor.turn, Delivery.items] using hp

/-- The items of a page wait. -/
theorem collect (h : Account first arrived handed now) (p : Page) :
    Account first (arrived ++ [.page p]) handed (now.collect p) := by
  refine h.arrive rfl rfl ?_ ?_ rfl rfl
  · exact (state_turn p now).trans (by simp [Arrival.page?])
  · simp [Arrival.page?, Cursor.collect]

/-- The first item that waits is delivered. -/
theorem pop (h : Account first arrived handed now) {v : Value} {vs : List Value}
    (hp : now.pending = v :: vs) :
    Account first arrived (.item v :: handed)
      { now with pending := vs, position := now.position + 1 } where
  options_eq := h.options_eq
  id_eq := h.id_eq
  exhausted := h.exhausted
  once := by
    have hv : (v :: (handed.flatMap Delivery.items ++ vs)).Perm
        (handed.flatMap Delivery.items ++ v :: vs) := List.perm_middle.symm
    have honce := h.once
    rw [hp] at honce
    simpa [Delivery.items] using hv.trans honce
  position := by simp [Delivery.item?, h.position]

end Account

/-! ## Steps -/

/-- A cursor that is closed delivers nothing any more, and has no account. -/
def Stands (first : Cursor Options) (arrived : List Arrival) (handed : List Delivery)
    (now : Cursor Options) : Prop :=
  now.state ≠ .closed → Account first arrived handed now

/-- A step that has come so far leaves the account as it should be, its own delivery included. -/
def Goes (first : Cursor Options) (arrived : List Arrival) (handed : List Delivery) :
    Progress Options → Prop
  | .fetch c => Stands first arrived handed c
  | .ended c (.error _) => Stands first arrived handed c
  | .ended c (.ok d) => Stands first arrived (d :: handed) c

namespace Stands

variable {first now : Cursor Options} {arrived : List Arrival} {handed : List Delivery}

theorem perm (h : Stands first arrived handed now) {handed' : List Delivery}
    (hp : handed'.Perm handed) : Stands first arrived handed' now :=
  fun hopen => (h hopen).perm hp

theorem request (h : Stands first arrived handed now) : Goes first arrived handed now.request := by
  unfold Cursor.request
  split
  · exact h
  · exact h

theorem take (h : Stands first arrived handed now) : Goes first arrived handed now.take := by
  unfold Cursor.take
  split
  · next v vs hp =>
    intro hopen
    exact (h hopen).pop hp
  · exact h.request

/-- A step up to the page that it needs. -/
theorem begin (h : Stands first arrived handed now) (step : Step) :
    Goes first arrived handed (now.begin step) := by
  cases step with
  | page => exact h.request
  | item => exact h.take

/-- A step from the answer on. -/
theorem resume (h : Stands first arrived handed now) (decode : Value → Except Error (List Value))
    (step : Step) (answer : Except Error (Value × Value)) :
    Goes first (arrived ++ [.ofResult decode answer]) handed (now.resume decode step answer) := by
  by_cases hclosed : now.state = .closed
  · -- whatever arrives is dropped, and the step fails
    have hstands (ds : List Delivery) (as : List Arrival) : Stands first as ds now :=
      fun hopen => absurd hclosed hopen
    cases answer with
    | error e => exact hstands _ _
    | ok page =>
      simp only [Cursor.resume, Cursor.accept, if_pos hclosed]
      exact hstands _ _
  · rw [resume_of_open hclosed]
    cases Arrival.ofResult decode answer with
    | failed e =>
      intro hopen
      exact (h hopen).failed e
    | garbled n e =>
      intro hopen
      exact (h hopen).garbled n e
    | page p =>
      cases step with
      | page =>
        rintro -
        exact (h hclosed).turn p
      | item =>
        refine take ?_
        rintro -
        exact (h hclosed).collect p

end Stands

end Cursor

end SortedSets

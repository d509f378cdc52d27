import SortedSets.Proofs.Scan.Steps

/-!
# Steps in turn

Steps of a scan one after the other. To take all items to the end of the scan is to make steps by
items until one of them fails.

## Main definitions

* `Script.steps`: steps one after the other
* `Script.gathered`: what taking all items comes to when a step fails

## Main results

* `Script.steps_append`: steps in two parts
* `Script.collect_eq_steps`: all items at once, and step by step
-/

namespace SortedSets

namespace Script

/-- Steps one after the other, each with its outcome. -/
def steps : List Step → Script → Script × List (Except Error Delivery)
  | [], s => (s, [])
  | step :: rest, s =>
    let (s, r) := s.advance step
    let (s, rs) := steps rest s
    (s, r :: rs)

theorem steps_cons (step : Step) (rest : List Step) (s : Script) : s.steps (step :: rest) =
    (((s.advance step).1.steps rest).1, (s.advance step).2 :: ((s.advance step).1.steps rest).2) :=
  rfl

theorem steps_append (l l' : List Step) (s : Script) : s.steps (l ++ l') =
    (((s.steps l).1.steps l').1, (s.steps l).2 ++ ((s.steps l).1.steps l').2) := by
  induction l generalizing s with
  | nil => rfl
  | cons step rest ih => rw [List.cons_append, steps_cons, steps_cons, ih, List.cons_append]

theorem Calm.steps {s : Script} (hs : s.Calm) (l : List Step) : (s.steps l).1.Calm := by
  induction l generalizing s with
  | nil => exact hs
  | cons step rest ih => exact ih (hs.advance step)

/-- The result of taking items until a step fails: the items if the scan is over. -/
def gathered (items : List Value) : Error → Except Error (List Value)
  | .exhausted => .ok items
  | e => .error e

/-- The scan after all items that wait were taken. -/
def drained (s : Script) : Script :=
  { s with cursor := { s.cursor with
      pending := [], position := s.cursor.position + s.cursor.pending.length } }

theorem collectFrom_drained (answers : List Answer) (taken : List Value) (s : Script) :
    collectFrom answers taken s = collectFrom answers (taken ++ s.cursor.pending) s.drained := by
  conv => lhs; unfold collectFrom
  conv => rhs; unfold collectFrom
  simp [drained]

theorem drained_of_nil {s : Script} (hp : s.cursor.pending = []) : s.drained = s := by
  obtain ⟨⟨id, options, state, pending, position⟩, answers, decode, requests, closings⟩ := s
  cases hp
  rfl

section CollectFrom

variable {s : Script} (hp : s.cursor.pending = []) (taken : List Value)

include hp

/-- All items are taken once the scan is over. -/
theorem collectFrom_of_exhausted (hx : s.cursor.state = .exhausted) :
    collectFrom s.answers taken s = (s, .ok taken) := by
  obtain ⟨⟨id, options, state, pending, position⟩, answers, decode, requests, closings⟩ := s
  cases hp
  cases hx
  unfold collectFrom
  simp [Cursor.refusal?]

/-- Before that a page is asked for. -/
theorem collectFrom_of_request (hs : s.Calm) (hx : s.cursor.state ≠ .exhausted) :
    collectFrom s.answers taken s =
      match s.arrival with
      | .failed e => (s.asked, .error e)
      | .garbled n e => (s.misled n, .error e)
      | .page p => collectFrom s.asked.answers taken (s.collected p) := by
  have hrefused := Cursor.refusal?_of_open hs.state_ne hx
  have haccept := Cursor.accept_of_open hs.state_ne
  obtain ⟨⟨id, options, state, pending, position⟩, answers, decode, requests, closings⟩ := s
  cases hp
  -- one round of the loop, which goes on only if a page has come
  conv => lhs; unfold collectFrom
  cases answers with
  | nil => simp [hrefused, arrival, Arrival.ofAnswer, Arrival.ofResult, asked, note]
  | cons a rest =>
    have ha := answer_of_open (hs.answers a List.mem_cons_self) rest
    simp only [List.length_nil, Nat.add_zero, List.append_nil, hrefused, ha, arrival,
      Arrival.ofAnswer, asked, note, List.head?_cons, Option.elim_some, List.tail_cons]
    cases a.result with
    | error e => rfl
    | ok page =>
      simp only [haccept]
      cases Arrival.ofResult decode (.ok page) <;> rfl

end CollectFrom

theorem gathered_of_ne {e : Error} (he : e ≠ .exhausted) (items : List Value) :
    gathered items e = .error e := by
  unfold gathered
  split
  · exact absurd rfl he
  · rfl

/-- Steps by items deliver the items and then fail, and so does taking all items. -/
structure Gathers (s : Script) (items : List Value) (e : Error) (t : Script) : Prop where
  steps_eq : s.steps (.replicate (items.length + 1) .item) =
    (t, items.map (fun v => .ok (.item v)) ++ [.error e])
  collect_eq (taken : List Value) :
    collectFrom s.answers taken s = (t, gathered (taken ++ items) e)

namespace Gathers

variable {s t : Script} {items : List Value} {e : Error}

/-- The first step fails. -/
theorem nil (hstep : s.advance .item = (t, .error e))
    (hcollect : ∀ taken, collectFrom s.answers taken s = (t, gathered taken e)) :
    s.Gathers [] e t where
  steps_eq := by
    rw [List.length_nil, Nat.zero_add, List.replicate_one, steps_cons, hstep]
    rfl
  collect_eq taken := by rw [List.append_nil, hcollect]

/-- The first step takes an item that waits. -/
theorem cons {v : Value} {vs : List Value} (hp : s.cursor.pending = v :: vs)
    (h : (s.popped vs).Gathers items e t) : s.Gathers (v :: items) e t where
  steps_eq := by
    rw [List.length_cons, List.replicate_succ, steps_cons, advance_item_of_pending hp, h.steps_eq]
    rfl
  collect_eq taken := by
    have := h.collect_eq (taken ++ [v])
    rw [collectFrom_drained] at this ⊢
    simpa [popped, drained, hp, Nat.add_assoc, Nat.add_comm 1] using this

/-- The items that wait are taken first. -/
theorem of_drained (h : s.drained.Gathers items e t) :
    s.Gathers (s.cursor.pending ++ items) e t := by
  induction hp : s.cursor.pending generalizing s with
  | nil => exact drained_of_nil hp ▸ h
  | cons v vs ih =>
    refine .cons hp (ih ?_ rfl)
    simpa [popped, drained, hp, Nat.add_assoc, Nat.add_comm 1] using h

/-- The first step asks for a page. -/
theorem of_page (hs : s.Calm) (hp : s.cursor.pending = []) (hx : s.cursor.state ≠ .exhausted)
    {p : Page} (ha : s.arrival = .page p) (h : (s.collected p).Gathers items e t) :
    s.Gathers items e t where
  steps_eq := by
    rw [List.replicate_succ, steps_cons, advance_of_request hs (fun _ => hp) hx, ha]
    exact h.steps_eq
  collect_eq taken := by
    rw [collectFrom_of_request hp taken hs hx, ha]
    exact h.collect_eq taken

end Gathers

theorem exists_gathers {s : Script} (hs : s.Calm) (hread : ∀ a ∈ s.answers, a.Readable s.decode) :
    ∃ items e t, s.Gathers items e t := by
  induction hn : s.answers.length using Nat.strongRecOn generalizing s with
  | _ n ih =>
    -- it is enough to look at a scan in which nothing waits
    suffices h : ∃ items e t, s.drained.Gathers items e t by
      obtain ⟨items, e, t, h⟩ := h
      exact ⟨_, e, t, h.of_drained⟩
    have hd : s.drained.Calm := ⟨hs.state_ne, hs.answers⟩
    have hp : s.drained.cursor.pending = [] := rfl
    by_cases hx : s.drained.cursor.state = .exhausted
    · exact ⟨[], .exhausted, s.drained, .nil (advance_of_exhausted (fun _ => hp) hx)
        fun taken => collectFrom_of_exhausted hp taken hx⟩
    · cases ha : s.drained.arrival with
      | failed e =>
        refine ⟨[], e, s.drained.asked, .nil ?_ fun taken => ?_⟩
        · rw [advance_of_request hd (fun _ => hp) hx, ha]
        · rw [collectFrom_of_request hp taken hd hx, ha,
            gathered_of_ne (Arrival.failed_ne_exhausted ha)]
      | garbled n e =>
        exact absurd ha (Arrival.not_garbled (fun a ha => hread a (List.mem_of_head? ha)) n e)
      | page p =>
        obtain ⟨items, e, t, h⟩ := ih _ (hn ▸ length_answers_collected ha) (hd.collected p)
          (fun a ha => hread a (List.mem_of_mem_tail ha)) rfl
        exact ⟨items, e, t, .of_page hd hp hx ha h⟩

/-- To take all items is to make steps by items until one fails. -/
theorem collect_eq_steps {s : Script} (hs : s.Calm)
    (hread : ∀ a ∈ s.answers, a.Readable s.decode) :
    ∃ items e, s.steps (.replicate (items.length + 1) .item) =
        (s.collect.1, items.map (fun v => .ok (.item v)) ++ [.error e]) ∧
      s.collect.2 = gathered items e := by
  obtain ⟨items, e, t, h⟩ := exists_gathers hs hread
  have hc : s.collect = (t, gathered items e) := by rw [collect, h.collect_eq, List.nil_append]
  exact ⟨items, e, by rw [hc, h.steps_eq], by rw [hc]⟩

end Script

end SortedSets

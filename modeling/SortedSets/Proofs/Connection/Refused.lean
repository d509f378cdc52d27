import Mathlib.Data.List.Basic
import SortedSets.Proofs.Connection.Loss

/-!
# Refused commands of a transaction

The server may refuse a command of a transaction and end the transaction with a slot for each of
the others only. The slots are handed out by the places in the queue all the same, in which the
refused commands stand as well. So a command gets the slot that is meant for it exactly if no
command in front of it was refused, and the last ones get none.

## Main definitions

* `Connection.accepted`: the commands of a queue that the server acknowledged

## Main results

* `slots_by_place`: what the commands of a transaction with refused commands end with
-/

namespace SortedSets

open Wire (Reply)

variable {Listener : Type}

/-- The answer to a command is a reply and no failure. -/
def Outcome.isReply : Outcome → Bool
  | .reply _ => true
  | _ => false

/-- The reply that an outcome is, unless it is a failure or nobody waited. -/
def Outcome.reply? : Outcome → Option Reply
  | .reply r => some r
  | _ => none

theorem Outcome.eq_of_reply? {o : Outcome} {r : Reply} (h : o.reply? = some r) : o = .reply r := by
  cases o with
  | reply r' => exact congrArg Outcome.reply (Option.some.inj h)
  | failed | cancelled => cases h

/-- The commands of a queue that the server acknowledged. -/
def Connection.accepted (c : Connection Listener) (queue : List Ticket) : List Ticket :=
  queue.filter fun t => (c.answer? t).any Outcome.isReply

theorem Connection.mem_accepted {c : Connection Listener} {queue : List Ticket} {t : Ticket} :
    t ∈ c.accepted queue ↔ t ∈ queue ∧ c.Acknowledged t := by
  rw [accepted, List.mem_filter, Acknowledged]
  refine and_congr_right fun _ => ?_
  cases c.answer? t with
  | none => simp
  | some o => cases o <;> simp [Outcome.isReply]

/-- A selection whose last element stands among the first of a list, as many as are selected,
selects just these. -/
theorem filter_prefix_of_getLast {α : Type} {p : α → Bool} {xs : List α} (hn : xs.Nodup) {i : Nat}
    {x : α} (hx : xs[i]? = some x) (hl : (xs.filter p).getLast? = some x)
    (hi : i < (xs.filter p).length) : xs.filter p <+: xs := by
  have hsplit : xs.filter p = (xs.take (i + 1)).filter p ++ (xs.drop (i + 1)).filter p := by
    rw [← List.filter_append, List.take_append_drop]
  have hrest : (xs.drop (i + 1)).filter p = [] := by
    by_contra hne
    -- the last element of the selection would stand behind its own place
    rw [hsplit, List.getLast?_append_of_ne_nil _ hne] at hl
    have hm : x ∈ xs.drop (i + 1) := (List.mem_filter.1 (List.mem_of_getLast? hl)).1
    obtain ⟨j, hj⟩ := List.mem_iff_getElem?.1 hm
    rw [List.getElem?_drop] at hj
    have hij := (List.getElem?_inj (List.getElem?_eq_some_iff.1 hx).1 hn).1 (hx.trans hj.symm)
    omega
  rw [hrest, List.append_nil] at hsplit
  -- so all of it stands among the first, and these are no more
  have hle : (xs.take (i + 1)).length ≤ ((xs.take (i + 1)).filter p).length := by
    rw [← hsplit, List.length_take]
    omega
  have heq : (xs.take (i + 1)).filter p = xs.take (i + 1) :=
    List.filter_sublist.eq_of_length_le hle
  rw [hsplit, heq]
  exact List.take_prefix (i + 1) xs

namespace Sound

variable {given : Ticket → Outcome → Prop} {c : Connection Listener} {e : Ticket}
  {queue : List Ticket} {rs : List Reply}

section

variable (h : Sound given c) (he : c.role? e = some (.ending false queue))
  (ha : c.answer? e = some (.reply (.array rs))) (hd : c.due = [])
  (hg : ∀ t ∈ queue, ∀ o, ¬ given t o)

include h he ha hd hg

/-- A command that was acknowledged ends with the slot of its place in the queue, if there is
one. -/
theorem outcome?_of_place {i : Nat} {t : Ticket} (hi : queue[i]? = some t)
    (hk : c.Acknowledged t) : c.outcome? t = rs[i]?.map Reply.outcome := by
  have ht : t ∈ queue := List.mem_of_getElem? hi
  have hne : Reply.array rs ≠ .nil := nofun
  cases hr : rs[i]? with
  | some r =>
    refine h.outcome?_of_slot he ha ?_ (by simp [hd]) hk fun b hb => absurd hb (hg t ht b)
    rw [mem_slotOutcomes_reply hne]
    refine ⟨i, hi, ?_⟩
    rw [Wire.Reply.slots, List.getElem?_map, hr]
    rfl
  | none =>
    refine h.outcome?_of_slotless ⟨e, queue, i, _, he, hi, ha, hne, ?_⟩ hk (hg t ht)
    rw [Wire.Reply.slots, List.length_map]
    exact List.getElem?_eq_none_iff.1 hr

/-- Each command that was acknowledged ends with the slot that is meant for it exactly if the
refused commands stand behind all of them. -/
theorem outcome?_eq_slot_iff (hl : rs.length = (c.accepted queue).length) :
    (∀ (j : Nat) t, (c.accepted queue)[j]? = some t → c.outcome? t = rs[j]?.map Reply.outcome) ↔
      c.accepted queue <+: queue := by
  have hplace {i : Nat} {t : Ticket} (hi : queue[i]? = some t) (hm : t ∈ c.accepted queue) :
      c.outcome? t = rs[i]?.map Reply.outcome :=
    h.outcome?_of_place he ha hd hg hi (Connection.mem_accepted.1 hm).2
  constructor
  · intro hslot
    -- if each slot is at its place, the last one is, and it is among the first of the queue
    cases hlast : (c.accepted queue).getLast? with
    | none =>
      rw [List.getLast?_eq_none_iff.1 hlast]
      exact List.nil_prefix
    | some t =>
      have hm : t ∈ c.accepted queue := List.mem_of_getLast? hlast
      obtain ⟨i, hi⟩ := List.mem_iff_getElem?.1 (Connection.mem_accepted.1 hm).1
      refine filter_prefix_of_getLast (h.queues.nodup_queue he) hi hlast ?_
      -- the last command that was acknowledged has a slot, so its place is among the first
      have hpos : 0 < (c.accepted queue).length := List.length_pos_of_mem hm
      rw [List.getLast?_eq_getElem?] at hlast
      have ho := (hplace hi hm).symm.trans (hslot _ t hlast)
      by_contra hlt
      have hj : (c.accepted queue).length - 1 < rs.length := by omega
      rw [List.getElem?_eq_none (by rw [hl]; exact Nat.not_lt.1 hlt),
        List.getElem?_eq_getElem hj] at ho
      cases ho
  · rintro hp j t hj
    obtain ⟨hlt, rfl⟩ := List.getElem?_eq_some_iff.1 hj
    exact hplace (List.prefix_iff_getElem?.1 hp j hlt) (List.getElem_mem hlt)

end

/-- A command in front of an end that has a reply was acknowledged or refused. -/
theorem refused_of_notMem (h : Sound given c) {r : Reply}
    (he : c.role? e = some (.ending false queue)) (ha : c.answer? e = some (.reply r))
    {t : Ticket} (ht : t ∈ queue) (hn : t ∉ c.accepted queue) :
    ∃ x, c.answer? t = some (.failed x) := by
  have hlt : t < c.served :=
    Nat.lt_trans (h.queues.before e false queue he t ht) (h.order.lt_served ha nofun)
  obtain ⟨o, ho⟩ := Option.ne_none_iff_exists'.1 (h.order.answered t hlt)
  cases o with
  | failed x => exact ⟨x, ho⟩
  | reply r => exact absurd (Connection.mem_accepted.2 ⟨ht, r, ho⟩) hn
  | cancelled => exact absurd (h.queues.role?_of_mem he ht) (h.course.vacated t ho).1

end Sound

/-- A transaction that ends with one slot for each command that was acknowledged, when all has
followed and no caller gave up: the refused commands have failed with their errors, and the others
have ended with the slots of their places in the queue. They have ended with the slots that are
meant for them exactly if the refused commands stand behind all of them. -/
theorem slots_by_place (address : Value × Value) (timeout : Timeout)
    (es : List (Event Listener)) (e : Ticket) (queue : List Ticket) (rs : List Reply) :
    let c := ((Connection.start address timeout).run es).followAll.1
    c.role? e = some (.ending false queue) → c.answer? e = some (.reply (.array rs)) →
      rs.length = (c.accepted queue).length →
      (∀ t ∈ queue, ∀ o, ¬ GivenUp (.start address timeout) es t o) →
      (∀ t ∈ queue, t ∉ c.accepted queue →
        ∃ x, c.answer? t = some (.failed x) ∧ c.outcome? t = some (.failed x)) ∧
      (∀ (i : Nat) t, queue[i]? = some t → t ∈ c.accepted queue →
        c.outcome? t = rs[i]?.map Reply.outcome) ∧
      ((∀ (j : Nat) t, (c.accepted queue)[j]? = some t →
          c.outcome? t = rs[j]?.map Reply.outcome) ↔
        c.accepted queue <+: queue) := by
  intro c he ha hl hg
  have h : Sound (GivenUp (.start address timeout) es) c := (sound_run address timeout es).followAll
  have hd : c.due = [] := Connection.due_followAll _
  refine ⟨?_, ?_, h.outcome?_eq_slot_iff he ha hd hg hl⟩
  · intro t ht hn
    obtain ⟨x, hx⟩ := h.refused_of_notMem he ha ht hn
    refine ⟨x, hx, h.outcome?_of_refused he ht ?_ hx (by simp [hd]) (hg t ht)⟩
    rw [ha]
    nofun
  · intro i t hi hm
    exact h.outcome?_of_place he ha hd hg hi (Connection.mem_accepted.1 hm).2

/-- A transaction of two commands, the first of which is refused, with one slot at its end. -/
def refusedFirst : List (Event Unit) :=
  [.submit (.text (.ofString "MULTI")) [] (),
    .submit (.text (.ofString "WATCH")) [.text (.ofString "k")] (),
    .submit (.text (.ofString "ZCARD")) [.text (.ofString "k")] (),
    .submit (.text (.ofString "EXEC")) [] (),
    .deliver (Bytes.ascii "+OK\r\n-ERR refused\r\n+QUEUED\r\n*1\r\n:7\r\n")]

/-- The connection after it. -/
def afterRefusedFirst : Connection Unit :=
  ((Connection.start (.none, .none) .none).run refusedFirst).followAll.1

theorem not_givenUp_refusedFirst (t : Ticket) (o : Outcome) :
    ¬ GivenUp (.start (.none, .none) .none) refusedFirst t o :=
  not_givenUp_of_spares rfl (by simp [refusedFirst, Event.spares]) o

/-- The end answers both commands, of which only the second one was acknowledged. -/
theorem accepted_afterRefusedFirst :
    afterRefusedFirst.role? 3 = some (.ending false [1, 2]) ∧
      afterRefusedFirst.accepted [1, 2] = [2] := by decide +kernel

theorem answer?_afterRefusedFirst :
    afterRefusedFirst.answer? 3 = some (.reply (.array [.int 7])) := by
  have h : (afterRefusedFirst.answer? 3).bind Outcome.reply? = some (.array [.int 7]) := by
    decide +kernel
  obtain ⟨o, ho, hr⟩ := Option.bind_eq_some_iff.1 h
  rw [ho, Outcome.eq_of_reply? hr]

/-- The command that was acknowledged has no outcome, since the slot that is meant for it is handed
to the place of the one that was refused. -/
theorem slots_by_place_refusedFirst :
    afterRefusedFirst.outcome? 2 = none ∧
      ∃ x, afterRefusedFirst.outcome? 1 = some (.failed x) := by
  obtain ⟨he, hk⟩ := accepted_afterRefusedFirst
  obtain ⟨hr, hp, -⟩ := slots_by_place (.none, .none) .none refusedFirst 3 [1, 2] [.int 7]
    he answer?_afterRefusedFirst (congrArg List.length hk).symm
    fun t _ => not_givenUp_refusedFirst t
  have hn : 1 ∉ afterRefusedFirst.accepted [1, 2] := by
    rw [hk]
    decide
  obtain ⟨x, -, hx⟩ := hr 1 List.mem_cons_self hn
  exact ⟨hp 1 2 rfl (hk.symm ▸ List.mem_singleton_self 2), x, hx⟩

/-- Not every command that was acknowledged ends with the slot that is meant for it. -/
theorem not_slots_by_acceptance :
    ¬ ∀ (es : List (Event Unit)) (e : Ticket) (queue : List Ticket) (rs : List Reply),
      let c := ((Connection.start (.none, .none) .none).run es).followAll.1
      c.role? e = some (.ending false queue) → c.answer? e = some (.reply (.array rs)) →
        rs.length = (c.accepted queue).length →
        (∀ t ∈ queue, ∀ o, ¬ GivenUp (.start (.none, .none) .none) es t o) →
        ∀ (j : Nat) t, (c.accepted queue)[j]? = some t →
          c.outcome? t = rs[j]?.map Reply.outcome := by
  intro h
  obtain ⟨he, hk⟩ := accepted_afterRefusedFirst
  have hs := h refusedFirst 3 [1, 2] [.int 7] he answer?_afterRefusedFirst
    (congrArg List.length hk).symm (fun t _ => not_givenUp_refusedFirst t) 0 2 (hk.symm ▸ rfl)
  have hn : afterRefusedFirst.outcome? 2 = none := by decide +kernel
  exact absurd (hn.symm.trans hs) nofun

end SortedSets

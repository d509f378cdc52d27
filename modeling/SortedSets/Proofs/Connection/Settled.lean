import SortedSets.Proofs.Connection.Sound

/-!
# How commands end

Once nothing is due from an answer, what it settles is settled. A command of its own ends with its
reply. A command of a transaction that was acknowledged ends with its slot of the end of the
transaction, and without a slot it does not end at all; one that was refused ends with its error.

## Main definitions

* `Connection.Acknowledged`: the server took a command into a transaction
* `Connection.Slotless`: the reply that ended the transaction has no slot for a command

## Main results

* `Sound.outcome?_of_own`: a command that answers itself
* `Sound.outcome?_of_slot`: a command that was acknowledged and has a slot
* `Sound.outcome?_of_slotless`: a command that was acknowledged and has no slot
* `Sound.outcome?_of_refused`: a command that was refused
-/

namespace SortedSets

open Wire (Reply)

variable {Listener : Type}

/-! ## Slots -/

/-- A reply other than nil hands its slots to the queue. -/
theorem slotOutcomes_reply {r : Reply} (hr : r ≠ .nil) (queue : List Ticket) :
    slotOutcomes false queue (.reply r) = queue.zip r.slots := by
  cases r with
  | nil => exact absurd rfl hr
  | bytes | int | error | array => rfl

/-- The slot of a command is the one at its place in the queue. -/
theorem mem_slotOutcomes_reply {r : Reply} (hr : r ≠ .nil) {queue : List Ticket} {t : Ticket}
    {o : Outcome} :
    (t, o) ∈ slotOutcomes false queue (.reply r) ↔
      ∃ i : Nat, queue[i]? = some t ∧ r.slots[i]? = some o := by
  rw [slotOutcomes_reply hr, List.mem_iff_getElem?]
  simp only [List.getElem?_zip_eq_some]

/-- The end of a transaction gives each command of its queue the outcome at its place. -/
theorem exists_slotOutcomes_eq_zip (discards : Bool) (queue : List Ticket) (a : Outcome) :
    ∃ os, slotOutcomes discards queue a = queue.zip os := by
  unfold slotOutcomes
  split
  case h_5 => exact ⟨_, rfl⟩
  all_goals exact ⟨_, List.map_prod_left_eq_zip⟩

/-- The end of a transaction settles each command of its queue in one way. -/
theorem slotOutcomes_unique {discards : Bool} {queue : List Ticket} {a : Outcome}
    (hn : queue.Nodup) {t : Ticket} {o o' : Outcome} (h : (t, o) ∈ slotOutcomes discards queue a)
    (h' : (t, o') ∈ slotOutcomes discards queue a) : o = o' := by
  obtain ⟨os, hos⟩ := exists_slotOutcomes_eq_zip discards queue a
  rw [hos] at h h'
  obtain ⟨i, hi⟩ := List.mem_iff_getElem?.1 h
  obtain ⟨j, hj⟩ := List.mem_iff_getElem?.1 h'
  rw [List.getElem?_zip_eq_some] at hi hj
  -- the command stands at one place only
  have hl : i < queue.length := (List.getElem?_eq_some_iff.1 hi.1).1
  obtain rfl : i = j := (List.getElem?_inj hl hn).1 (hi.1.trans hj.1.symm)
  exact Option.some.inj (hi.2.symm.trans hj.2)

namespace Connection

/-- The server took a command into a transaction. -/
def Acknowledged (c : Connection Listener) (t : Ticket) : Prop :=
  ∃ r, c.answer? t = some (.reply r)

/-- The reply that ended the transaction of a command has no slot for it. -/
def Slotless (c : Connection Listener) (t : Ticket) : Prop :=
  ∃ (e : Ticket) (queue : List Ticket) (i : Nat) (r : Reply),
    c.role? e = some (.ending false queue) ∧ queue[i]? = some t ∧
      c.answer? e = some (.reply r) ∧ r ≠ .nil ∧ r.slots.length ≤ i

end Connection

namespace Sound

variable {given : Ticket → Outcome → Prop} {c : Connection Listener}

/-- What an answer settles has an outcome once nothing is due from it. -/
theorem outcome?_ne_none (h : Sound given c) {t : Ticket} {o : Outcome}
    (ha : c.answer? t = some o) (hd : .answered t o ∉ c.due) {p : Ticket × Outcome}
    (hp : p ∈ c.settlements t o) : c.outcome? p.1 ≠ none :=
  (h.course.concluded t o ha).resolve_left hd p hp

/-- A command that is none of a transaction ends with its own answer, unless its caller gave it
up. -/
theorem outcome?_of_own (h : Sound given c) {t : Ticket} {o : Outcome}
    (hr : c.role? t ≠ some .queued) (ha : c.answer? t = some o) (hd : .answered t o ∉ c.due)
    (hg : ∀ a, ¬ given t a) : c.outcome? t = some o := by
  obtain ⟨r, hr'⟩ := Connection.exists_role? (Connection.lt_of_answer? ha)
  -- its own answer settles it, so that it has an outcome; this has a cause
  have hm : (t, o) ∈ c.settlements t o := by
    rw [Connection.settlements_eq hr']
    cases r with
    | queued => exact absurd hr' hr
    | plain => exact List.mem_singleton_self _
    | ending discards queue => exact List.mem_append_right _ (List.mem_singleton_self _)
  obtain ⟨a, hsome⟩ := Option.ne_none_iff_exists'.1 (h.outcome?_ne_none ha hd hm)
  rcases h.course.justified t a hsome with hga | ⟨s, b, hs, hms, -⟩ | ⟨-, hq, -⟩
  · exact absurd hga (hg a)
  · obtain ⟨r', hrs⟩ := Connection.exists_role? (Connection.lt_of_answer? hs)
    rw [Connection.settlements_eq hrs] at hms
    rcases Role.mem_settlements hms with heq | ⟨discards, queue, rfl, hslot⟩
    · obtain ⟨rfl, rfl⟩ := Prod.mk.inj heq
      rw [hsome, ← ha, hs]
    · -- a command of a queue is one of a transaction
      exact absurd (h.queues.role?_of_mem hrs (fst_mem_of_mem_slotOutcomes hslot)) hr
  · exact absurd hq hr

/-- A command outside of transactions has ended as soon as its place has an answer. -/
theorem outcome?_of_answered (h : Sound given c) (hd : c.due = []) {t : Ticket}
    (hr : c.role? t = some .plain) {o : Outcome} (ha : c.answer? t = some o) : c.outcome? t ≠ none := by
  refine h.outcome?_ne_none (p := (t, o)) ha (by simp [hd]) ?_
  rw [Connection.settlements_eq hr]
  exact List.mem_singleton_self _

/-- A command outside of transactions that nobody gave up does not end as if somebody had. -/
theorem outcome?_ne_cancelled (h : Sound given c) {t : Ticket} (hr : c.role? t = some .plain)
    (hg : ∀ o, ¬ given t o) : c.outcome? t ≠ some .cancelled := by
  intro ho
  rcases h.course.justified t _ ho with hgo | ⟨s, a, ha, hm, -⟩ | ⟨-, hq, -⟩
  · exact hg _ hgo
  · obtain ⟨r, hrs⟩ := Connection.exists_role? (Connection.lt_of_answer? ha)
    rw [Connection.settlements_eq hrs] at hm
    rcases Role.mem_settlements hm with heq | ⟨discards, queue, rfl, hslot⟩
    · -- its own place was given up, which somebody did
      obtain ⟨rfl, rfl⟩ := Prod.mk.inj heq
      obtain ⟨-, o, hgo⟩ := h.course.vacated t ha
      exact hg o hgo
    · have hq := h.queues.role?_of_mem hrs (fst_mem_of_mem_slotOutcomes hslot)
      cases hr.symm.trans hq
  · cases hr.symm.trans hq

/-- A command of an ended transaction has ended because its caller gave it up, because it was
refused, or because of the answer to the end. -/
theorem slot_of_justified (h : Sound given c) {t e : Ticket} {discards : Bool}
    {queue : List Ticket} {o : Outcome} (he : c.role? e = some (.ending discards queue))
    (ht : t ∈ queue) (ho : c.outcome? t = some o) :
    given t o ∨ (c.answer? t = some o ∧ ∃ x, o = .failed x) ∨
      ∃ a, c.answer? e = some a ∧ (t, o) ∈ slotOutcomes discards queue a ∧
        (a ≠ .cancelled → c.First t e) := by
  have hq := h.queues.role?_of_mem he ht
  rcases h.course.justified t o ho with hgo | ⟨s, a, hs, hm, hf⟩ | ⟨-, -, hn, -⟩
  · exact .inl hgo
  · obtain ⟨r, hr⟩ := Connection.exists_role? (Connection.lt_of_answer? hs)
    rw [Connection.settlements_eq hr] at hm
    rcases Role.mem_settlements hm with heq | ⟨discards', queue', rfl, hslot⟩
    · -- its own answer, which settles it only if it is a refusal
      obtain ⟨rfl, rfl⟩ := Prod.mk.inj heq
      refine .inr (.inl ⟨hs, ?_⟩)
      obtain rfl : r = .queued := Option.some.inj (hr.symm.trans hq)
      cases o with
      | failed x => exact ⟨x, rfl⟩
      | reply r => exact absurd hm List.not_mem_nil
      | cancelled => exact absurd hq (h.course.vacated t hs).1
    · -- the answer to the end of a transaction, which is its own
      obtain rfl := h.queues.eq_of_mem he hr ht (fst_mem_of_mem_slotOutcomes hslot)
      obtain ⟨rfl, rfl⟩ := Role.ending.inj (Option.some.inj (he.symm.trans hr))
      exact .inr (.inr ⟨a, hs, hslot, hf⟩)
  · -- the loss of the transport fails the open transaction only
    exact absurd (Connection.mem_ended.2 ⟨e, discards, queue, he, ht⟩) hn

/-- A command that was acknowledged ends with its slot, unless its caller gave it up with another
outcome. -/
theorem outcome?_of_slot (h : Sound given c) {t e : Ticket} {discards : Bool}
    {queue : List Ticket} {a o : Outcome} (he : c.role? e = some (.ending discards queue))
    (ha : c.answer? e = some a) (hs : (t, o) ∈ slotOutcomes discards queue a)
    (hd : .answered e a ∉ c.due) (hk : c.Acknowledged t) (hg : ∀ b, given t b → b = o) :
    c.outcome? t = some o := by
  have hm : (t, o) ∈ c.settlements e a := by
    rw [Connection.settlements_eq he]
    exact List.mem_append_left _ hs
  obtain ⟨b, hb⟩ := Option.ne_none_iff_exists'.1 (h.outcome?_ne_none ha hd hm)
  rw [hb]
  obtain ⟨r, hr⟩ := hk
  rcases h.slot_of_justified he (fst_mem_of_mem_slotOutcomes hs) hb with
    hgb | ⟨hx, x, rfl⟩ | ⟨a', ha', hs', -⟩
  · rw [hg b hgb]
  · exact absurd (hr.symm.trans hx) nofun
  · obtain rfl := Option.some.inj (ha.symm.trans ha')
    rw [slotOutcomes_unique (h.queues.nodup_queue he) hs hs']

/-- A command that was acknowledged and has no slot does not end, unless its caller gives it
up. -/
theorem outcome?_of_slotless (h : Sound given c) {t : Ticket} (hs : c.Slotless t)
    (hk : c.Acknowledged t) (hg : ∀ b, ¬ given t b) : c.outcome? t = none := by
  obtain ⟨e, queue, i, r, he, hi, ha, hr, hl⟩ := hs
  obtain ⟨r', hr'⟩ := hk
  by_contra hn
  obtain ⟨o, ho⟩ := Option.ne_none_iff_exists'.1 hn
  rcases h.slot_of_justified he (List.mem_of_getElem? hi) ho with
    hgo | ⟨hx, x, rfl⟩ | ⟨a, ha', hslot, -⟩
  · exact hg o hgo
  · exact absurd (hr'.symm.trans hx) nofun
  · -- a slot for it would be at its own place
    obtain rfl := Option.some.inj (ha.symm.trans ha')
    obtain ⟨j, hj, hjs⟩ := (mem_slotOutcomes_reply hr).1 hslot
    have hlt : i < queue.length := (List.getElem?_eq_some_iff.1 hi).1
    obtain rfl : i = j := (List.getElem?_inj hlt (h.queues.nodup_queue he)).1 (hi.trans hj.symm)
    exact absurd (List.getElem?_eq_some_iff.1 hjs).1 (Nat.not_lt.2 hl)

/-- A command that was refused ends with its own error, unless its caller or the one who ended the
transaction gave up. -/
theorem outcome?_of_refused (h : Sound given c) {t e : Ticket} {discards : Bool}
    {queue : List Ticket} {x : Error} (he : c.role? e = some (.ending discards queue))
    (ht : t ∈ queue) (hc : c.answer? e ≠ some .cancelled) (hx : c.answer? t = some (.failed x))
    (hd : .answered t (.failed x) ∉ c.due) (hg : ∀ b, ¬ given t b) :
    c.outcome? t = some (.failed x) := by
  have hq := h.queues.role?_of_mem he ht
  have hm : (t, .failed x) ∈ c.settlements t (.failed x) := by
    rw [Connection.settlements_eq hq]
    exact List.mem_singleton_self _
  obtain ⟨o, ho⟩ := Option.ne_none_iff_exists'.1 (h.outcome?_ne_none hx hd hm)
  rcases h.slot_of_justified he ht ho with hgo | ⟨hx', -⟩ | ⟨a, ha, -, hf⟩
  · exact absurd hgo (hg o)
  · rw [ho, ← hx, hx']
  · -- the refusal came before the end of the transaction
    have hac : a ≠ .cancelled := fun hac => hc (hac ▸ ha)
    exact absurd rfl (hf hac t (h.queues.before e discards queue he t ht) _ hx nofun _ hm)

end Sound

end SortedSets

import SortedSets.Proofs.Connection.Operations

/-!
# The queues of transactions

The end of a transaction holds the queue of its commands, and an open transaction its queue so
far. Each command of a transaction stands in one queue only and at one place only, and the end of
its transaction was sent after it.

## Main definitions

* `Connection.ended`, `Connection.queues`: the queues of the ends that were sent, and all queues
* `Queues`: the queues in the order of sending

## Main results

* `Queues.eq_of_mem`: a command stands in the queue of one end only
* `Queues.notMem_transaction`: a command of an ended transaction is not in the open one
-/

namespace SortedSets

variable {Listener : Type}

/-- The queue that a command answers. -/
def Role.queue : Role → List Ticket
  | .ending _ queue => queue
  | _ => []

/-- The end of a transaction settles commands of its queue. -/
theorem fst_mem_of_mem_slotOutcomes {discards : Bool} {queue : List Ticket} {o : Outcome}
    {p : Ticket × Outcome} (h : p ∈ slotOutcomes discards queue o) : p.1 ∈ queue := by
  unfold slotOutcomes at h
  split at h
  case h_5 => exact (List.of_mem_zip h).1
  all_goals
    obtain ⟨t, ht, rfl⟩ := List.mem_map.1 h
    exact ht

/-- An answer settles its own command, or a command of the queue that it ends. -/
theorem Role.mem_settlements {t : Ticket} {r : Role} {o : Outcome} {p : Ticket × Outcome}
    (h : p ∈ r.settlements t o) :
    p = (t, o) ∨ ∃ discards queue, r = .ending discards queue ∧
      p ∈ slotOutcomes discards queue o := by
  unfold Role.settlements at h
  split at h
  · cases h
  · rcases List.mem_append.1 h with h | h
    · exact .inr ⟨_, _, rfl, h⟩
    · exact .inl (List.mem_singleton.1 h)
  · exact .inl (List.mem_singleton.1 h)

namespace Connection

/-- What the replies to all commands mean. -/
def roles (c : Connection Listener) : List Role :=
  c.exchanges.map Exchange.role

/-- The commands of all transactions whose end was sent. -/
def ended (c : Connection Listener) : List Ticket :=
  c.roles.flatMap Role.queue

/-- The commands of all transactions. -/
def queues (c : Connection Listener) : List Ticket :=
  c.ended ++ c.transaction.getD []

theorem getElem?_roles (c : Connection Listener) (t : Ticket) : c.roles[t]? = c.role? t :=
  List.getElem?_map ..

theorem mem_ended {c : Connection Listener} {t : Ticket} :
    t ∈ c.ended ↔ ∃ e discards queue, c.role? e = some (.ending discards queue) ∧ t ∈ queue := by
  rw [ended, List.mem_flatMap]
  constructor
  · rintro ⟨r, hr, ht⟩
    obtain ⟨e, he⟩ := List.mem_iff_getElem?.1 hr
    rw [getElem?_roles] at he
    cases r with
    | ending discards queue => exact ⟨e, discards, queue, he, ht⟩
    | plain | queued => exact absurd ht List.not_mem_nil
  · rintro ⟨e, discards, queue, he, ht⟩
    rw [← getElem?_roles] at he
    exact ⟨_, List.mem_of_getElem? he, ht⟩

theorem Quiet.roles_eq {c d : Connection Listener} (h : Quiet c d) : d.roles = c.roles := by
  refine List.ext_getElem? fun t => ?_
  rw [getElem?_roles, getElem?_roles, h.role?_eq]

theorem Quiet.ended_eq {c d : Connection Listener} (h : Quiet c d) : d.ended = c.ended := by
  rw [ended, ended, h.roles_eq]

theorem Quiet.queues_eq {c d : Connection Listener} (h : Quiet c d)
    (ht : d.transaction = c.transaction) : d.queues = c.queues := by
  rw [queues, queues, h.ended_eq, ht]

theorem roles_answerNext (o : Outcome) (c : Connection Listener) :
    (c.answerNext o).roles = c.roles := by
  refine List.ext_getElem? fun t => ?_
  rw [getElem?_roles, getElem?_roles, role?_answerNext]

theorem roles_enlist (role : Role) (l : Option Listener) (c : Connection Listener) :
    (c.enlist role l).roles = c.roles ++ [role] := by
  simp [roles, enlist, Exchange.fresh]

theorem queues_enlist_plain (l : Option Listener) (c : Connection Listener) :
    (c.enlist .plain l).queues = c.queues := by
  rw [queues, queues, ended, roles_enlist]
  simp [Role.queue, ended, enlist]

/-- A new command joins the queues behind all others if it is one of a transaction, and else
leaves them as they are. -/
theorem queues_enrol (verb : Verb) (l : Listener) (c : Connection Listener) :
    (c.nextRole verb ≠ .queued ∧ (c.enrol verb l).queues = c.queues) ∨
      (c.nextRole verb = .queued ∧ (c.enrol verb l).queues = c.queues ++ [c.exchanges.length]) := by
  have hq : (c.enrol verb l).queues =
      c.ended ++ ((c.nextRole verb).queue ++ (c.nextTransaction verb).getD []) := by
    rw [queues, ended, enrol_eq]
    simp [roles, enlist, Exchange.fresh, ended]
  rw [hq, queues, nextRole, nextTransaction]
  rcases c.transaction with _ | queue
  · cases verb <;> simp [classify, Role.queue]
  · cases verb <;> simp [classify, Role.queue]

/-- The end of a transaction answers the queue of the open one. -/
theorem transaction_of_classify {verb : Verb} {transaction : Option (List Ticket)} {t : Ticket}
    {discards : Bool} {queue : List Ticket}
    (h : (classify verb transaction t).1 = .ending discards queue) :
    transaction = some queue := by
  cases transaction <;> cases verb <;> simp_all [classify]

end Connection

/-- The queues of all transactions in the order of sending: each command of a transaction stands
in them once, and in front of the end of its transaction. -/
structure Queues (c : Connection Listener) : Prop where
  sorted : c.queues.Pairwise (· < ·)
  queued : ∀ t ∈ c.queues, c.role? t = some .queued
  before : ∀ e discards queue, c.role? e = some (.ending discards queue) → ∀ t ∈ queue, t < e

namespace Queues

variable {c d : Connection Listener}

theorem start (address : Value × Value) (timeout : Timeout) :
    Queues (.start address timeout : Connection Listener) where
  sorted := .nil
  queued _ h := absurd h List.not_mem_nil
  before _ _ _ h := by simp [Connection.role?, Connection.start] at h

/-- Whatever keeps the roles, and the open transaction or none of it, keeps the queues. -/
theorem congr (h : Queues c) (hr : d.roles = c.roles)
    (ht : d.transaction = c.transaction ∨ d.transaction = none) : Queues d := by
  have he : d.ended = c.ended := by rw [Connection.ended, Connection.ended, hr]
  have hs : d.queues.Sublist c.queues := by
    rw [Connection.queues, Connection.queues, he]
    rcases ht with ht | ht
    · exact ht ▸ List.Sublist.refl _
    · -- without the open transaction there are fewer
      rw [ht]
      exact List.Sublist.append_left (List.nil_sublist _) _
  have hrole (t : Ticket) : d.role? t = c.role? t := by
    rw [← Connection.getElem?_roles, ← Connection.getElem?_roles, hr]
  refine ⟨h.sorted.sublist hs, ?_, ?_⟩
  · intro t ht
    rw [hrole]
    exact h.queued t (hs.subset ht)
  · intro e discards queue
    rw [hrole]
    exact h.before e discards queue

/-- A new command stands behind all queues. -/
theorem lt_length (h : Queues c) {t : Ticket} (ht : t ∈ c.queues) : t < c.exchanges.length :=
  Connection.lt_of_role? (h.queued t ht)

/-- A command without a role in a transaction. -/
theorem enlist_plain (h : Queues c) (l : Option Listener) : Queues (c.enlist .plain l) := by
  have hq := Connection.queues_enlist_plain l c
  refine ⟨hq ▸ h.sorted, ?_, ?_⟩
  · intro t ht
    rw [hq] at ht
    rw [Connection.role?_enlist, if_neg (Nat.ne_of_lt (h.lt_length ht))]
    exact h.queued t ht
  · intro e discards queue he
    rw [Connection.role?_enlist] at he
    split at he
    · cases he
    · exact h.before e discards queue he

/-- A command of a known verb, which may join the open transaction or end it. -/
theorem enrol (h : Queues c) (verb : Verb) (l : Listener) : Queues (c.enrol verb l) := by
  have hrole (t : Ticket) : (c.enrol verb l).role? t =
      if t = c.exchanges.length then some (c.nextRole verb) else c.role? t :=
    Connection.role?_enlist ..
  have hbefore : ∀ e discards queue, (c.enrol verb l).role? e = some (.ending discards queue) →
      ∀ t ∈ queue, t < e := by
    intro e discards queue he t ht
    rw [hrole] at he
    split at he
    · -- a new end answers the open transaction, whose commands were sent before
      next hn =>
      have hopen := Connection.transaction_of_classify (Option.some.inj he)
      rw [hn]
      exact h.lt_length (List.mem_append_right _ (by simp [hopen, ht]))
    · exact h.before e discards queue he t ht
  rcases Connection.queues_enrol verb l c with ⟨-, hq⟩ | ⟨hr, hq⟩
  · -- the queues stay as they are
    refine ⟨hq ▸ h.sorted, fun t ht => ?_, hbefore⟩
    rw [hq] at ht
    rw [hrole, if_neg (Nat.ne_of_lt (h.lt_length ht))]
    exact h.queued t ht
  · -- the new command joins behind all others
    refine ⟨?_, fun t ht => ?_, hbefore⟩
    · rw [hq, List.pairwise_append]
      refine ⟨h.sorted, List.pairwise_singleton _ _, fun t ht s hs => ?_⟩
      rw [List.mem_singleton.1 hs]
      exact h.lt_length ht
    · rw [hq] at ht
      rw [hrole]
      rcases List.mem_append.1 ht with ht | ht
      · rw [if_neg (Nat.ne_of_lt (h.lt_length ht))]
        exact h.queued t ht
      · rw [if_pos (List.mem_singleton.1 ht), hr]

/-! ## One queue only -/

theorem sorted_queue (h : Queues c) {e : Ticket} {discards : Bool} {queue : List Ticket}
    (he : c.role? e = some (.ending discards queue)) : queue.Pairwise (· < ·) := by
  have hs := (List.pairwise_append.1 h.sorted).1
  rw [Connection.ended, List.pairwise_flatMap] at hs
  rw [← Connection.getElem?_roles] at he
  exact hs.1 _ (List.mem_of_getElem? he)

/-- A command stands at one place of a queue only. -/
theorem nodup_queue (h : Queues c) {e : Ticket} {discards : Bool} {queue : List Ticket}
    (he : c.role? e = some (.ending discards queue)) : queue.Nodup :=
  (h.sorted_queue he).imp Nat.ne_of_lt

/-- A command stands in the queue of one end only. -/
theorem eq_of_mem (h : Queues c) {e e' : Ticket} {discards discards' : Bool}
    {queue queue' : List Ticket} (he : c.role? e = some (.ending discards queue))
    (he' : c.role? e' = some (.ending discards' queue')) {t : Ticket} (ht : t ∈ queue)
    (ht' : t ∈ queue') : e = e' := by
  have hs := (List.pairwise_append.1 h.sorted).1
  rw [Connection.ended, List.pairwise_flatMap] at hs
  -- of two ends, the commands of the earlier one stand in front of those of the later one
  have hp := List.pairwise_iff_getElem.1 hs.2
  rw [← Connection.getElem?_roles] at he he'
  obtain ⟨hl, hg⟩ := List.getElem?_eq_some_iff.1 he
  obtain ⟨hl', hg'⟩ := List.getElem?_eq_some_iff.1 he'
  rcases Nat.lt_trichotomy e e' with hlt | heq | hlt
  · have := hp e e' hl hl' hlt t (hg ▸ ht) t (hg' ▸ ht')
    exact absurd this (Nat.lt_irrefl t)
  · exact heq
  · have := hp e' e hl' hl hlt t (hg' ▸ ht') t (hg ▸ ht)
    exact absurd this (Nat.lt_irrefl t)

/-- A command of an ended transaction is not in the open one. -/
theorem notMem_transaction (h : Queues c) {e : Ticket} {discards : Bool} {queue : List Ticket}
    (he : c.role? e = some (.ending discards queue)) {t : Ticket} (ht : t ∈ queue) :
    t ∉ c.transaction.getD [] := by
  intro ht'
  have hm : t ∈ c.ended := Connection.mem_ended.2 ⟨e, discards, queue, he, ht⟩
  exact absurd ((List.pairwise_append.1 h.sorted).2.2 t hm t ht') (Nat.lt_irrefl t)

/-- A command of a queue has no slot of its own. -/
theorem role?_of_mem (h : Queues c) {e : Ticket} {discards : Bool} {queue : List Ticket}
    (he : c.role? e = some (.ending discards queue)) {t : Ticket} (ht : t ∈ queue) :
    c.role? t = some .queued :=
  h.queued t (List.mem_append_left _ (Connection.mem_ended.2 ⟨e, discards, queue, he, ht⟩))

/-- Whatever an answer settles is a command that was sent. -/
theorem settlement_lt (h : Queues c) {t : Ticket} {o : Outcome} {p : Ticket × Outcome}
    (hp : p ∈ c.settlements t o) : p.1 < c.exchanges.length := by
  cases hr : c.role? t with
  | none => simp [Connection.settlements, hr] at hp
  | some r =>
    rw [Connection.settlements_eq hr] at hp
    rcases Role.mem_settlements hp with rfl | ⟨discards, queue, rfl, hs⟩
    · exact Connection.lt_of_role? hr
    · exact Connection.lt_of_role? (h.role?_of_mem hr (fst_mem_of_mem_slotOutcomes hs))

end Queues

end SortedSets

import SortedSets.Proofs.Session.History

/-!
# The handles of a batch

A batch whose sending is not broken off ends when none of its handles is pending. A sending is
broken off by a transaction that cannot be begun, and by a command that cannot be sent and whose
handle was given up before: then the batch fails at once, and nobody ever ends the handles that the
sending did not reach.

## Main definitions

* `Batch.reached`: the slots that the sending of a batch reaches

## Main results

* `Session.handles_after_run`: the handles of a batch that was sent, at any later time
-/

namespace SortedSets

namespace Batch

/-- The slots that the sending of a batch reaches. -/
def reached (c : Connection Listener) (x : Batch) : List Slot :=
  x.slots.take (x.slots.length - (x.unreached c).length)

/-- The place of a slot that is reached. -/
theorem exists_of_mem_reached {c : Connection Listener} {x : Batch} {j : Nat}
    (hj : x.slots.drop j = x.unreached c) {slot : Slot} (hs : slot ∈ x.reached c) :
    ∃ i < j, x.slots[i]? = some slot := by
  obtain ⟨i, hi⟩ := List.mem_iff_getElem?.1 hs
  rw [reached, ← hj, List.length_drop, List.getElem?_take] at hi
  split at hi
  · exact ⟨i, by omega, hi⟩
  · cases hi

/-- The place of a slot that is not reached. -/
theorem exists_of_mem_unreached {c : Connection Listener} {x : Batch} {j : Nat}
    (hj : x.slots.drop j = x.unreached c) {slot : Slot} (hs : slot ∈ x.unreached c) :
    ∃ i, j ≤ i ∧ i < x.slots.length ∧ x.slots[i]? = some slot := by
  obtain ⟨i, hi⟩ := List.mem_iff_getElem?.1 hs
  rw [← hj, List.getElem?_drop] at hi
  exact ⟨j + i, Nat.le_add_right j i, (List.getElem?_eq_some_iff.1 hi).1, hi⟩

end Batch

namespace Session

variable {terms : Terms} {owners : List Owner} {t : Session}

namespace Holds

/-- The handle of a batch ends when none of its exchanges is outstanding, and then no handle of the
batch is pending. -/
theorem ended_of_run (ht : Holds terms owners [] t) {b : BatchId} {y : Batch} {r : Run}
    (hy : t.batches[b]? = some y) (hr : y.run = some r) (hend : t.ending? r.handle ≠ none)
    {slot : Slot} (hs : slot ∈ y.slots) : t.ending? slot.handle ≠ none := by
  obtain ⟨L, T, -, hc⟩ := ht
  obtain ⟨e, he⟩ := Option.ne_none_iff_exists'.1 hend
  obtain ⟨h₀, -⟩ := (hc.counts b y r hy hr).ending e he
  exact hc.slots_ended hy hr h₀ hs

/-- A handle whose command is never sent is pending, unless its holder gave it up. -/
theorem pending_of_stranded (ht : Holds terms owners [] t) {b : BatchId} {i : Nat}
    (hst : terms.stranded b i) : ∃ (y : Batch) (slot : Slot), t.batches[b]? = some y ∧
      y.slots[i]? = some slot ∧ (t.ending? slot.handle = none ∨
        t.ending? slot.handle = some .cancelled ∧ terms.given slot.handle) := by
  obtain ⟨L, T, -, hc⟩ := ht
  obtain ⟨y, slot, hy, hi, -, -, hk⟩ := hc.stranded b i hst
  exact ⟨y, slot, hy, hi, hk.imp_right And.symm⟩

/-- A pending handle of a slot waits for the exchange of its command. -/
theorem outcome?_of_pending (ht : Holds terms owners [] t) {d : Connection Listener}
    (hd : t.connection = some d) {u : Ticket} {b : BatchId} {i : Nat}
    (hl : d.listener? u = some (.slot b i)) {y : Batch} (hy : t.batches[b]? = some y) {slot : Slot}
    (hi : y.slots[i]? = some slot) (hn : t.ending? slot.handle = none) : d.outcome? u = none := by
  rcases ht.knows_slot hd hl hy hi with hk | ⟨-, hk⟩
  · exact Option.map_eq_none_iff.1 (hk.symm.trans hn)
  · cases hk.symm.trans hn

end Holds

/-- A batch is sent, at some time in a run. If its sending is not broken off, its handle ends only
when no handle of the batch is pending any more. If it is broken off, its handle has failed at once;
the handles that were not reached are pending ever after, unless their holders give them up; and the
others are pending only as long as the exchanges of their own commands have no outcome. -/
theorem handles_after_run (address : Value × Value) (timeout : Timeout) (before after : List Act)
    (b : BatchId) (collectsErrors : Bool) {x : Batch} {c : Connection Listener}
    (hx : ((connected address timeout).after before).batches[b]? = some x) (hsp : x.spent = false)
    (hc : ((connected address timeout).after before).connection = some c) (hne : x.slots ≠ []) :
    let s := (connected address timeout).after before
    let acts := before ++ .run b collectsErrors :: after
    let t := (connected address timeout).after acts
    (x.failure? c = none → t.ending? s.nextHandle ≠ none →
      ∀ slot ∈ x.slots, t.ending? slot.handle ≠ none) ∧
    ∀ e, x.failure? c = some e →
      (s.run b collectsErrors).ending? s.nextHandle = some (.failed e) ∧
      (∀ slot ∈ x.unreached c, t.ending? slot.handle = none ∨
        t.ending? slot.handle = some .cancelled ∧ .cancel slot.handle ∈ acts) ∧
      ∀ slot ∈ x.reached c, t.ending? slot.handle = none →
        ∃ d u i, t.connection = some d ∧ d.listener? u = some (.slot b i) ∧
          x.slots[i]? = some slot ∧ d.outcome? u = none := by
  intro s acts t
  set given : HandleId → Prop := fun h => .cancel h ∈ acts with hgiven
  obtain ⟨owners, hs⟩ := exists_holds given address timeout before fun h hh =>
    List.mem_append_left _ hh
  obtain ⟨j, hj, hl⟩ := hs.launched hx hsp hne hc collectsErrors
  -- what holds just after the batch was sent, and later
  have hacts : acts = (before ++ [.run b collectsErrors]) ++ after := by
    rw [List.append_assoc]
    rfl
  have hs' : (connected address timeout).after (before ++ [.run b collectsErrors]) =
      s.run b collectsErrors := after_append ..
  have htrun : t = (s.run b collectsErrors).after after := by
    rw [← hs', ← after_append, ← hacts]
  obtain ⟨more, ht⟩ := hl.holds.after after fun h hh =>
    (List.mem_append_right _ (List.mem_cons_of_mem _ hh) : Act.cancel h ∈ acts)
  rw [← htrun] at ht
  have hgrown : s.Grown t := kept_grown.after keptByQueueing_grown (fun _ _ => .of_batches rfl)
    address timeout before (.run b collectsErrors :: after)
  obtain ⟨z, hz, hxz⟩ := hgrown b x hx
  refine ⟨fun hn hend slot hslot => ?_, fun e he => ⟨hl.failed e he, fun slot hslot => ?_,
    fun slot hslot hp => ?_⟩⟩
  · -- the batch has counted all its exchanges
    obtain ⟨z', r, hz', -, -, hr, hkey⟩ := hl.exists_counting hx hn rfl
    obtain rfl := Option.some.inj (hz.symm.trans hz')
    have hh : r.handle = s.nextHandle := congrArg Prod.fst hkey
    obtain ⟨i, hi⟩ := List.mem_iff_getElem?.1 hslot
    obtain ⟨slot', hslot', hh', -⟩ := hxz.exists_slot hi
    rw [← hh']
    exact ht.ended_of_run hz hr (hh ▸ hend) (List.mem_of_getElem? hslot')
  · -- the command is never sent
    obtain ⟨i, hji, hlt, hi⟩ := Batch.exists_of_mem_unreached hj hslot
    obtain ⟨z', slot', hz', hslot', hp⟩ := ht.pending_of_stranded
      (b := b) (i := i) (.inr ⟨rfl, hji, hlt⟩)
    obtain rfl := Option.some.inj (hz.symm.trans hz')
    obtain ⟨slot'', hslot'', hh, -⟩ := hxz.exists_slot hi
    obtain rfl := Option.some.inj (hslot'.symm.trans hslot'')
    rwa [← hh]
  · -- the command was sent, or else its handle would have ended
    obtain ⟨i, hij, hi⟩ := Batch.exists_of_mem_reached hj hslot
    have hstay := kept_endingsStay.after (fun _ _ _ _ _ he => he) (fun _ _ _ _ he => he) address
      timeout (before ++ [.run b collectsErrors]) after
    rw [← hacts, hs'] at hstay
    obtain ⟨u, hu⟩ := hl.reached i slot hij hi (by
      by_contra hne
      obtain ⟨a, ha⟩ := Option.ne_none_iff_exists'.1 hne
      cases (hstay slot.handle a ha).symm.trans hp)
    obtain ⟨fs, hd⟩ := exists_run_after (hs' ▸ hl.connection) after
    rw [← hacts] at hd
    have hu' := Connection.listener?_run hu fs
    obtain ⟨slot', hslot', hh, -⟩ := hxz.exists_slot hi
    exact ⟨_, u, i, hd, hu', hi, ht.outcome?_of_pending hd hu' hz hslot' (hh ▸ hp)⟩

/-- A command that cannot be sent and was given up, and another one behind it. -/
def blocked : List Act :=
  [.newBatch false, .enqueue 0 "zcard" [.list [.int 1]] [],
    .enqueue 0 "zcard" [.text (.ofString "k")] [], .cancel 0]

/-- The batch fails at once, and the handle of the other command is pending. -/
theorem handles_after_run_blocked :
    let t := (connected (.none, .none) .none).after (blocked ++ [.run 0 false])
    t.ending? 2 = some (.failed .invalidState) ∧ t.ending? 1 = none := by
  let slot : Slot := ⟨.plain "ZCARD" [.text (.ofString "k")], 1, false⟩
  have hx : ((connected (.none, .none) .none).after blocked).batches[0]? =
      some ⟨false, [⟨.plain "ZCARD" [.list [.int 1]], 0, true⟩, slot], false, none⟩ := rfl
  obtain ⟨-, hfailed⟩ := handles_after_run (.none, .none) .none blocked [] 0 false hx rfl rfl
    (by simp)
  obtain ⟨hend, hpending, -⟩ := hfailed .invalidState rfl
  refine ⟨hend, (hpending slot List.mem_cons_self).resolve_right fun h => ?_⟩
  simp [blocked, slot] at h

/-- A transaction of one command, over a connection that its client has closed. -/
def closedEarly : List Act :=
  [.newBatch true, .enqueue 0 "zcard" [.text (.ofString "k")] [], .close]

/-- A batch may end without its handles: after the transaction could not be begun, and even after
the transport was lost, the handle of the command is pending. -/
theorem not_handles_ended :
    ¬ ∀ (before after : List Act) (b : BatchId) (collectsErrors : Bool) (x : Batch),
      let s := (connected (.none, .none) .none).after before
      let t := s.after (.run b collectsErrors :: after)
      s.batches[b]? = some x → x.spent = false → t.ending? s.nextHandle ≠ none →
        ∀ slot ∈ x.slots, t.ending? slot.handle ≠ none := by
  intro h
  let slot : Slot := ⟨.plain "ZCARD" [.text (.ofString "k")], 0, false⟩
  have hx : ((connected (.none, .none) .none).after closedEarly).batches[0]? =
      some ⟨true, [slot], false, none⟩ := rfl
  have hend : (((connected (.none, .none) .none).after closedEarly).after
      [.run 0 false, .lose none]).ending? 1 = some (.failed (.closed .before)) := rfl
  refine h closedEarly [.lose none] 0 false _ hx rfl ?_ slot List.mem_cons_self rfl
  exact fun hn => by cases hend.symm.trans hn

end Session

end SortedSets

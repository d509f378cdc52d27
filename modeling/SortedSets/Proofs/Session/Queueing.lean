import SortedSets.Proofs.Session.Agreement
import SortedSets.Proofs.Session.Kept

/-!
# Batches queued and sent

The life of a batch keeps handles and batches in agreement with what they were told: it is made,
commands are queued, it is spent, its commands are sent one after the other, and from then on it
counts their exchanges.

## Main definitions

* `Sending.Sound`: how far the sending of a batch has come

## Main results

* `Session.Holds.enqueue`, `Session.Holds.run`: a command is queued, a batch is sent
-/

namespace SortedSets

namespace Session

variable {terms : Terms} {owners : List Owner}
  {listener? listener'? : Ticket → Option Listener} {told? told'? : Ticket → Option Outcome}
  {s s' : Session}

namespace Consistent

/-! ## A batch is made -/

/-- A new batch. -/
theorem newBatch (hc : Consistent terms owners listener? told? none s) (transactional : Bool) :
    Consistent terms owners listener? told? none (s.newBatch transactional) := by
  refine hc.ofBatches rfl rfl (fun _ => rfl) (fun _ _ _ _ _ => rfl) ?hold ?agrees
  case hold =>
    intro b x hx
    refine ⟨x, ?_, .refl x⟩
    rw [Session.newBatch, List.getElem?_append_left (List.getElem?_eq_some_iff.1 hx).1, hx]
  case agrees =>
    intro b x hx
    rw [Session.newBatch, List.getElem?_append] at hx
    split at hx
    · exact (hc.agrees hx).congr (fun _ _ h => h) (fun _ _ _ => rfl) fun _ _ => rfl
    · -- the new one has no slots
      obtain rfl := List.mem_singleton.1 (List.mem_of_getElem? hx)
      exact ⟨by simp, by simp, by simp, by simp, by simp⟩

/-! ## A command is queued -/

/-- One more command of a batch that was not sent. -/
theorem appendSlot (hc : Consistent terms owners listener? told? none s) {b : BatchId} {x : Batch}
    (slot : Slot) (hx : s.batches[b]? = some x) (hsp : x.spent = false)
    (ho : owners[slot.handle]? = some (.slot b x.slots.length))
    (hn : s.ending? slot.handle = none) (hf : slot.filled = false)
    (hm : slot.command.Made x.mode) :
    Consistent terms owners listener? told? none
      (s.setBatch b { x with slots := x.slots ++ [slot] }) := by
  have hrun := (hc.unspent b x hx hsp).1
  set x' : Batch := { x with slots := x.slots ++ [slot] } with hx'
  refine hc.ofBatches rfl rfl (fun _ => rfl) (fun _ _ _ _ _ => rfl) ?hold ?agrees
  case hold =>
    intro c y hy
    by_cases hcb : c = b
    · subst hcb
      obtain rfl := Option.some.inj (hx.symm.trans hy)
      refine ⟨x', getElem?_setBatch_self s x' hx, fun h => h, fun i z hi => ⟨z, ?_, rfl, rfl⟩⟩
      rw [hx', List.getElem?_append_left (List.getElem?_eq_some_iff.1 hi).1, hi]
    · exact ⟨y, (getElem?_setBatch_of_ne s x' hcb).trans hy, .refl y⟩
  case agrees =>
    intro c y hy
    by_cases hcb : c = b
    · subst hcb
      obtain rfl := Option.some.inj ((getElem?_setBatch_self s x' hx).symm.trans hy)
      -- a slot is the new one, or was there before
      have hwhich {z : Slot} (hz : z ∈ x'.slots) : z ∈ x.slots ∨ z = slot := by
        rcases List.mem_append.1 hz with hz | hz
        · exact .inl hz
        · exact .inr (List.mem_singleton.1 hz)
      refine ⟨fun i z hi => ?slot, fun z hz => ?command, fun _ => ⟨hrun, fun z hz => ?unspent⟩,
        fun z hz hzf => ?filled, fun r hr => ?counts⟩
      case slot =>
        rw [hx', List.getElem?_append] at hi
        split at hi
        · exact hc.slot c x i z hx hi
        · next hle =>
          rw [List.getElem?_singleton, Option.ite_none_right_eq_some] at hi
          obtain ⟨h₀, hz⟩ := hi
          obtain rfl := Option.some.inj hz
          rwa [Nat.le_antisymm (Nat.sub_eq_zero_iff_le.1 h₀) (Nat.not_lt.1 hle)]
      case command =>
        rcases hwhich hz with hz | rfl
        · exact hc.command c x hx z hz
        · exact hm
      case unspent =>
        rcases hwhich hz with hz | rfl
        · exact (hc.unspent c x hx hsp).2 z hz
        · exact .inl hn
      case filled =>
        rcases hwhich hz with hz | rfl
        · exact hc.filled c x hx z hz hzf
        · cases hf.symm.trans hzf
      case counts =>
        cases hrun.symm.trans hr
    · have hy' := (getElem?_setBatch_of_ne s x' hcb).symm.trans hy
      exact (hc.agrees hy').congr (fun _ _ h => h) (fun _ _ _ => rfl) fun _ _ => rfl

/-- A batch that was not sent is spent. -/
theorem spend (hc : Consistent terms owners listener? told? none s) {b : BatchId} {x : Batch}
    (hx : s.batches[b]? = some x) (hsp : x.spent = false) :
    Consistent terms owners listener? told? none (s.setBatch b { x with spent := true }) := by
  refine hc.setBatch hx { x with spent := true } (fun _ _ => Iff.rfl) rfl (fun _ => rfl) rfl
    (hc.filled b x hx) (fun h => by cases h) fun r hr => ?_
  cases (hc.unspent b x hx hsp).1.symm.trans hr

/-- A batch whose commands were sent begins to count. -/
theorem startRun (hc : Consistent terms owners listener? told? none s) {b : BatchId} {x : Batch}
    (hx : s.batches[b]? = some x) (hsp : x.spent = true) {h : HandleId}
    (ho : owners[h]? = some (.batch b)) (hn : s.ending? h = none) (collectsErrors : Bool)
    {ts : List Ticket} (hts : ts.Nodup)
    (hmem : ∀ t, t ∈ ts ↔ (listener? t).bind Listener.batch? = some b)
    (htold : ∀ t ∈ ts, told? t = none)
    (hsent : ∀ (i : Nat) (slot : Slot), x.slots[i]? = some slot → s.ending? slot.handle = none →
      ∃ t, listener? t = some (.slot b i)) :
    Consistent terms owners listener? told? none
      (s.setBatch b { x with run := some ⟨h, collectsErrors, ts, ts.length, false⟩ }) := by
  refine hc.setBatch hx { x with run := some ⟨h, collectsErrors, ts, ts.length, false⟩ }
    (fun _ _ => Iff.rfl) rfl (fun h => h) rfl (hc.filled b x hx) (fun hf => ?_) fun r hr => ?_
  · cases hsp.symm.trans hf
  · obtain rfl := Option.some.inj hr
    refine ⟨ho, hts, hmem, ?_, hsent, fun e he => ?_, fun h₀ hne => ?_, by simp⟩
    · -- none of the exchanges was told
      have hall : untold told? ts = ts.length :=
        List.countP_eq_length.2 fun t ht => by rw [htold t ht]; rfl
      simp [hall]
    · cases hn.symm.trans he
    · exact absurd (List.length_eq_zero_iff.1 h₀) hne

/-- The whole of a batch is given up. -/
theorem cancelRun (hc : Consistent terms owners listener? told? none s) {b : BatchId} {x : Batch}
    {r : Run} (hx : s.batches[b]? = some x) (hr : x.run = some r) (hg : terms.given r.handle)
    (hn : s.ending? r.handle = none) :
    Consistent terms owners listener? told? none
      (s.setBatch b { x with run := some { r with cancelled := true } }) := by
  have hcount := hc.counts b x r hx hr
  refine hc.setBatch hx { x with run := some { r with cancelled := true } } (fun _ _ => Iff.rfl) rfl
    (fun h => h) rfl (hc.filled b x hx) (fun hsp => ?_) fun r' hr' => ?_
  · cases (hc.unspent b x hx hsp).1.symm.trans hr
  · obtain rfl := Option.some.inj hr'
    exact ⟨hcount.owner, hcount.nodup, hcount.mem_tickets, hcount.outstanding, hcount.sent,
      fun e he => (by cases hn.symm.trans he), hcount.ended, fun _ => hg⟩

end Consistent

end Session

end SortedSets

import SortedSets.Proofs.Session.Consistent

/-!
# New handles, new exchanges, and counting

What keeps handles and batches in agreement with what they were told: a new handle, a new exchange
with somebody who listens, a slot that is filled, and a batch that counts one of its exchanges.

## Main results

* `Session.Consistent.concat`, `Session.Consistent.enlist`: a new handle, a new exchange
* `Session.Consistent.fill`: a slot is filled
* `Session.Consistent.countDown`, `Session.Consistent.concludeBatch`: a batch that owes a count
  counts, and one that waits for nothing ends
-/

namespace SortedSets

namespace Session

variable {terms : Terms} {owners : List Owner}
  {listener? listener'? : Ticket → Option Listener} {told? told'? : Ticket → Option Outcome}
  {owing : Option BatchId} {s s' : Session}

/-! ## Slots and counts of a changed batch -/

/-- What a batch counts does not depend on which slots are filled. -/
theorem Counts.of_claims {b : BatchId} {x x' : Batch} {r : Run} {debt : Nat}
    (hc : Counts terms.given owners listener? told? debt s b x r) (ht : x'.transactional = x.transactional)
    (hs : x'.slots.map Slot.claim = x.slots.map Slot.claim) :
    Counts terms.given owners listener? told? debt s b x' r where
  owner := hc.owner
  nodup := hc.nodup
  mem_tickets := hc.mem_tickets
  outstanding := hc.outstanding
  sent i slot hi hn := by
    obtain ⟨y, hy, hyh, -⟩ := exists_of_claims hs hi
    exact hc.sent i y hy (by rwa [hyh])
  ending e he := by
    obtain ⟨h₀, rfl⟩ := hc.ending e he
    refine ⟨h₀, (batchEnding_congr ht ?_ fun _ _ => rfl).symm⟩
    have h := congrArg (List.map Prod.snd) hs
    rw [List.map_map, List.map_map] at h
    exact h
  ended := hc.ended
  cancelled := hc.cancelled

namespace Consistent

/-! ## New handles -/

/-- A new handle, which may have ended already. -/
theorem concat (hc : Consistent terms owners listener? told? owing s) (x : Handle) (o : Owner)
    (hal : x.source = .alone → ∀ b, o ≠ .batch b)
    (hex : ∀ t, x.source = .exchange t → ∀ b i, o ≠ .slot b i)
    (hsl : ∀ b i, x.source ≠ .slot b i) (hru : ∀ b, x.source = .run b → o = .batch b)
    (hba : ∀ b, o = .batch b → (∃ y, s.batches[b]? = some y ∧ y.spent = true) ∧
      ∀ k : HandleId, owners[k]? ≠ some (.batch b)) :
    Consistent terms (owners ++ [o]) listener? told? owing
      { s with handles := s.handles ++ [x] } := by
  have hold {h : HandleId} {w : Owner} (hw : owners[h]? = some w) :
      (owners ++ [o])[h]? = some w := by
    rw [getElem?_concat, if_neg (Nat.ne_of_lt (List.getElem?_eq_some_iff.1 hw).1), hw]
  have hwhich {h : HandleId} {w : Owner} (hw : (owners ++ [o])[h]? = some w) :
      h ≠ s.handles.length ∧ owners[h]? = some w ∨ h = s.handles.length ∧ o = w := by
    rw [getElem?_concat, hc.length_eq] at hw
    split at hw
    · next heq => exact .inr ⟨heq, Option.some.inj hw⟩
    · next hne => exact .inl ⟨hne, hw⟩
  -- what is given up with a handle, and its owner, are both as they were, or both new
  have hsource {h : HandleId} {source : Source} {w : Owner}
      (hh : ({ s with handles := s.handles ++ [x] } : Session).source? h = some source)
      (hw : (owners ++ [o])[h]? = some w) :
      s.source? h = some source ∧ owners[h]? = some w ∨ x.source = source ∧ o = w := by
    rw [source?_concat] at hh
    rcases hwhich hw with ⟨hne, hw⟩ | ⟨heq, hw⟩
    · rw [if_neg hne] at hh
      exact .inl ⟨hh, hw⟩
    · rw [if_pos heq] at hh
      exact .inr ⟨Option.some.inj hh, hw⟩
  -- the handles that were there are as they were
  have hend {h : HandleId} {w : Owner} (hw : owners[h]? = some w) :
      ({ s with handles := s.handles ++ [x] } : Session).ending? h = s.ending? h := by
    rw [ending?, ending?, List.getElem?_append_left (hc.lt_length hw)]
  have hknow {h : HandleId} {w : Owner} {f : Outcome → Ending} {o? : Option Outcome}
      (hw : owners[h]? = some w) (hk : s.Knows terms.given h f o?) :
      ({ s with handles := s.handles ++ [x] } : Session).Knows terms.given h f o? := by
    rwa [Knows, hend hw]
  have hagrees {b : BatchId} {y : Batch} (hy : s.batches[b]? = some y) :
      Agrees terms.given (owners ++ [o]) listener? told? (if owing = some b then 1 else 0)
        { s with handles := s.handles ++ [x] } b y :=
    (hc.agrees hy).congr (fun _ _ hw => hold hw) (fun _ _ hw => hend hw) fun _ hw => hend hw
  refine ⟨?length, ?alone, ?ofExchange, ?ofSlot, ?ofRun, ?spent, ?oneRun, ?listening, hc.unique,
    fun b y i slot hy => (hagrees hy).slot i slot, hc.command, fun b y hy => (hagrees hy).unspent,
    fun b y hy => (hagrees hy).filled, fun b y r hy => (hagrees hy).counts r,
    fun p hp => hold (hc.closer p hp), ?stranded⟩
  case length => simp [hc.length_eq]
  case alone =>
    intro h b hh hb
    rcases hsource hh hb with ⟨hh, hb⟩ | ⟨hx, ho⟩
    · exact hc.alone h b hh hb
    · exact hal hx b ho
  case ofExchange =>
    intro h t b i hh hb
    rcases hsource hh hb with ⟨hh, hb⟩ | ⟨hx, ho⟩
    · exact hc.ofExchange h t b i hh hb
    · exact hex t hx b i ho
  case ofSlot =>
    intro h b i hh
    rw [source?_concat] at hh
    split at hh
    · exact absurd (Option.some.inj hh) (hsl b i)
    · exact hc.ofSlot h b i hh
  case ofRun =>
    intro h b hh
    rw [source?_concat] at hh
    split at hh
    · next heq =>
      rw [getElem?_concat, if_pos (heq.trans hc.length_eq.symm), hru b (Option.some.inj hh)]
    · exact hold (hc.ofRun h b hh)
  case spent =>
    intro h b hb
    rcases hwhich hb with ⟨-, hb⟩ | ⟨-, ho⟩
    · exact hc.spent h b hb
    · exact (hba b ho).1
  case oneRun =>
    intro h k b hb hk
    rcases hwhich hb with ⟨-, hb⟩ | ⟨rfl, ho⟩
    · rcases hwhich hk with ⟨-, hk⟩ | ⟨-, ho⟩
      · exact hc.oneRun h k b hb hk
      · exact absurd hb ((hba b ho).2 h)
    · rcases hwhich hk with ⟨-, hk⟩ | ⟨rfl, -⟩
      · exact absurd hk ((hba b ho).2 k)
      · rfl
  case listening =>
    intro t l hl
    cases hc.listening t l hl with
    | reading hr ho hk => exact .reading hr (hold ho) (hknow ho hk)
    | frame hy hsp => exact .frame hy hsp
    | slot hy hsp hi hk => exact .slot hy hsp hi (hknow (hc.slot _ _ _ _ hy hi) hk)
    | fetching ho hk =>
      refine .fetching (hold ho) fun hn => ?_
      rw [hend ho, source?_concat, if_neg (Nat.ne_of_lt (hc.lt_length ho))]
      exact hk hn
  case stranded =>
    intro b i hb
    obtain ⟨y, slot, hy, hi, hsp, hl, hk⟩ := hc.stranded b i hb
    exact ⟨y, slot, hy, hi, hsp, hl, hknow (hc.slot b y i slot hy hi) hk⟩

/-! ## New exchanges -/

/-- A new exchange with somebody who listens. -/
theorem enlist (hc : Consistent terms owners listener? told? owing s) {n : Ticket} {l : Listener}
    (hn : listener? n = none) (hl : listener'? n = some l)
    (hu : ∀ t, t ≠ n → listener'? t = listener? t) (ht : told? n = none)
    (hlisten : s.Listens terms.given owners n none l)
    (hslot : ∀ b i, l = .slot b i → ¬ terms.stranded b i ∧ ∀ t, listener? t ≠ some l)
    (hbatch : ∀ b, l.batch? = some b → ∀ x : Batch, s.batches[b]? = some x → x.run = none) :
    Consistent terms owners listener'? told? owing s := by
  refine { hc with
    listening := ?listening
    unique := ?unique
    counts := ?counts
    stranded := ?stranded }
  case listening =>
    intro t l' hl'
    by_cases htn : t = n
    · subst htn
      obtain rfl := Option.some.inj (hl.symm.trans hl')
      rwa [ht]
    · exact hc.listening t l' (hu t htn ▸ hl')
  case unique =>
    intro t u b i hbt hbu
    by_cases htn : t = n
    · by_cases hun : u = n
      · rw [htn, hun]
      · subst htn
        rw [hu u hun] at hbu
        obtain rfl := Option.some.inj (hl.symm.trans hbt)
        exact absurd hbu ((hslot b i rfl).2 u)
    · rw [hu t htn] at hbt
      by_cases hun : u = n
      · subst hun
        obtain rfl := Option.some.inj (hl.symm.trans hbu)
        exact absurd hbt ((hslot b i rfl).2 t)
      · exact hc.unique t u b i hbt (hu u hun ▸ hbu)
  case counts =>
    intro b x r hx hr
    have hcount := hc.counts b x r hx hr
    -- the exchange is none of a batch that was sent before
    have hmem (t : Ticket) : (listener'? t).bind Listener.batch? = some b ↔
        (listener? t).bind Listener.batch? = some b := by
      by_cases htn : t = n
      · subst htn
        rw [hl, hn, Option.bind_some, Option.bind_none]
        refine iff_of_false (fun hb => ?_) (by simp)
        cases (hbatch b hb x hx).symm.trans hr
      · rw [hu t htn]
    refine { hcount with
      mem_tickets := fun t => (hcount.mem_tickets t).trans (hmem t).symm
      sent := fun i slot hi hp => ?_ }
    obtain ⟨t, hb⟩ := hcount.sent i slot hi hp
    refine ⟨t, ?_⟩
    rw [hu t, hb]
    rintro rfl
    cases hn.symm.trans hb
  case stranded =>
    intro b i hb
    obtain ⟨x, slot, hx, hi, hsp, hnone, hk⟩ := hc.stranded b i hb
    refine ⟨x, slot, hx, hi, hsp, fun t hbt => ?_, hk⟩
    by_cases htn : t = n
    · subst htn
      exact (hslot b i (Option.some.inj (hl.symm.trans hbt))).1 hb
    · exact hnone t (hu t htn ▸ hbt)

/-! ## Outcomes -/

/-- A slot is filled whose handle has ended. -/
theorem fill (hc : Consistent terms owners listener? told? owing s) {b : BatchId} {x : Batch}
    {i : Nat} {slot : Slot} (hx : s.batches[b]? = some x) (hi : x.slots[i]? = some slot)
    (he : s.ending? slot.handle ≠ none) :
    Consistent terms owners listener? told? owing (s.setBatch b (x.fill i slot)) := by
  refine hc.setBatch hx (x.fill i slot) (fun _ _ => Iff.rfl) rfl (fun h => h) (claims_fill hi) ?_
    (fun h => ?_) fun r hr => ?_
  · -- the slot itself, or one that was filled before
    intro y hy hf
    rcases List.mem_or_eq_of_mem_set hy with hy | rfl
    · exact hc.filled b x hx y hy hf
    · exact he
  · exact (hc.unspent b x hx h).1
  · exact (hc.counts b x r hx hr).of_claims rfl (claims_fill hi)

/-- A batch counts anew while its own handle is pending, which ends when nothing is left to
count. -/
theorem conclude (hc : Consistent terms owners listener? told? owing s) {b : BatchId} {x : Batch}
    {r : Run} (hx : s.batches[b]? = some x) (hsp : x.spent = true)
    (how : ∀ c, c ≠ b → owing ≠ some c) (ho : owners[r.handle]? = some (.batch b))
    (hn : s.ending? r.handle = none) (hnodup : r.tickets.Nodup)
    (hmem : ∀ t, t ∈ r.tickets ↔ (listener? t).bind Listener.batch? = some b)
    (hout : r.outstanding = untold told? r.tickets)
    (hsent : ∀ (i : Nat) (slot : Slot), x.slots[i]? = some slot → s.ending? slot.handle = none →
      ∃ t, listener? t = some (.slot b i))
    (hcan : r.cancelled = true → terms.given r.handle) :
    Consistent terms owners listener? told? none
      ((s.setBatch b { x with run := some r }).concludeBatch b) := by
  set x' : Batch := { x with run := some r } with hx'
  set s₁ := s.setBatch b x' with hs₁
  have hself : s₁.batches[b]? = some x' := getElem?_setBatch_self s _ hx
  have hconclude := concludeBatch_eq hself (r := r) rfl
  -- no other handle ends than that of the batch
  have hother {h : HandleId} {w : Owner} (hw : owners[h]? = some w) (hb : w ≠ .batch b) :
      (s₁.concludeBatch b).ending? h = s.ending? h := by
    rw [hconclude]
    split
    · refine ending?_endHandle_of_ne s₁ _ ?_
      rintro rfl
      exact hb (Option.some.inj (hw.symm.trans ho))
    · rfl
  have hsame {slot : Slot} (hm : slot ∈ x.slots) :
      (s₁.concludeBatch b).ending? slot.handle = s.ending? slot.handle := by
    obtain ⟨i, hi⟩ := List.mem_iff_getElem?.1 hm
    exact hother (hc.slot b x i slot hx hi) (by simp)
  have hown : (s₁.concludeBatch b).ending? r.handle =
      if r.outstanding = 0 then some (s₁.batchEnding x' r) else none := by
    rw [hconclude]
    split
    · rw [ending?_endHandle_self s₁ _ (hc.lt_length ho)]
      exact congrArg (· <|> some _) hn
    · exact hn
  refine hc.changeBatch hx x' (by simpa using hself) (fun c hcb => ?others)
    (fun c hcb => by simp [how c hcb]) (by simp [hs₁, Session.setBatch])
    (by simp [hs₁, Session.setBatch]) (by simp [hs₁]) (fun h w hw _ hb => hother hw hb) rfl
    (fun h => h) rfl (fun slot hm hf => ?filled) (fun hf => ?unspent) fun r' hr' => ?counts
  case others =>
    rw [batches_concludeBatch]
    exact getElem?_setBatch_of_ne s _ hcb
  case filled =>
    rw [hsame hm]
    exact hc.filled b x hx slot hm hf
  case unspent =>
    cases hsp.symm.trans hf
  case counts =>
    obtain rfl := Option.some.inj hr'
    refine ⟨ho, hnodup, hmem, ?_,
      fun i slot hi hp => hsent i slot hi (hsame (List.mem_of_getElem? hi) ▸ hp),
      fun e he => ?_, fun h₀ _ hp => ?_, hcan⟩
    · simpa using hout
    · rw [hown] at he
      split at he
      · next h₀ =>
        refine ⟨h₀, (Option.some.inj he).symm.trans ?_⟩
        exact batchEnding_congr rfl rfl fun slot hm => (hsame hm).symm
      · cases he
    · rw [hown, if_pos h₀] at hp
      cases hp

/-- A batch that owes a count counts. -/
theorem countDown {b : BatchId} (hc : Consistent terms owners listener? told? (some b) s) :
    Consistent terms owners listener? told? none (s.countDown b) := by
  rcases countDown_cases b s with ⟨he, hrun⟩ | ⟨x, r, hx, hr, he⟩
  · -- a batch that is still being sent does not count
    rw [he]
    refine { hc with counts := fun c x r hx hr => ?_ }
    have hcount := hc.counts c x r hx hr
    have hcb : (some b = some c) ↔ False := by
      refine iff_of_false (fun hbc => ?_) not_false
      obtain rfl := Option.some.inj hbc
      cases (hrun x hx).symm.trans hr
    simpa [hcb] using hcount
  · have hcount := hc.counts b x r hx hr
    have hout := hcount.outstanding
    rw [if_pos rfl] at hout
    have hpending : s.ending? r.handle = none := by
      by_contra hn
      obtain ⟨e, he⟩ := Option.ne_none_iff_exists'.1 hn
      have := (hcount.ending e he).1
      omega
    have hsp : x.spent = true := by
      by_contra hsp
      cases (hc.unspent b x hx (by simpa using hsp)).1.symm.trans hr
    rw [he]
    exact hc.conclude hx hsp (fun c hcb h => hcb (Option.some.inj h).symm) hcount.owner hpending
      hcount.nodup hcount.mem_tickets ((congrArg (· - 1) hout).trans (Nat.add_sub_cancel ..))
      hcount.sent hcount.cancelled

/-- A batch that waits for nothing ends. -/
theorem concludeBatch (hc : Consistent terms owners listener? told? none s) (b : BatchId) :
    Consistent terms owners listener? told? none (s.concludeBatch b) := by
  cases hx : s.batches[b]? with
  | none => simpa [Session.concludeBatch, hx] using hc
  | some x =>
    cases hr : x.run with
    | none => simpa [Session.concludeBatch, hx, hr] using hc
    | some r =>
      have hcount := hc.counts b x r hx hr
      cases hn : s.ending? r.handle with
      | some e =>
        -- it has ended before
        rw [concludeBatch_eq hx hr]
        split
        · rwa [endHandle_of_some s _ hn]
        · exact hc
      | none =>
        have hsp : x.spent = true := by
          by_contra hsp
          cases (hc.unspent b x hx (by simpa using hsp)).1.symm.trans hr
        have hsame : s.setBatch b { x with run := some r } = s := by
          rw [← hr]
          exact setBatch_self hx
        have h := hc.conclude hx hsp (by simp) hcount.owner hn hcount.nodup hcount.mem_tickets
          (by simpa using hcount.outstanding) hcount.sent hcount.cancelled
        rwa [hsame] at h

end Consistent

end Session

end SortedSets

import SortedSets.Proofs.Session.Alike
import SortedSets.Proofs.Session.Modes

/-!
# Handles of a batch that are given up

Nothing that is sent depends on whether the handles of a batch are given up. If all its commands can
be sent, the connection goes through the same as in the run in which they are not given up, and so
do the other handles of the batch. Only the batch as a whole does not: it ends as given up if one of
its handles does.

## Main definitions

* `Batch.spared`: a run in which no handle of a batch is given up

## Main results

* `Session.Alike.after`: two runs that differ in the handles that are given up
* `Session.alike_spared`: the connection of a run, and of the one that spares a batch
* `Session.Holds.ending?_of_counting`: how a batch has ended
* `Session.endings_of_spared`: how the handles of the batch end, and the batch
-/

namespace SortedSets

/-- An act by which none of some handles is given up. -/
def Act.spares (hs : List HandleId) : Act → Bool
  | .cancel h => !hs.contains h
  | _ => true

/-- A run in which no handle of a batch is given up. -/
def Batch.spared (x : Batch) (acts : List Act) : List Act :=
  acts.filter (Act.spares (x.slots.map Slot.handle))

theorem Act.eq_cancel_of_not_spares {hs : List HandleId} {a : Act} (h : a.spares hs = false) :
    ∃ k, a = .cancel k ∧ hs.contains k = true := by
  cases a with
  | cancel k => exact ⟨k, rfl, by simpa [spares] using h⟩
  | _ => cases h

theorem Batch.contains_handles {x : Batch} {h : HandleId}
    (hh : (x.slots.map Slot.handle).contains h = true) :
    ∃ (i : Nat) (slot : Slot), x.slots[i]? = some slot ∧ slot.handle = h := by
  obtain ⟨slot, hslot, rfl⟩ := List.mem_map.1 (List.contains_iff_mem.1 hh)
  obtain ⟨i, hi⟩ := List.mem_iff_getElem?.1 hslot
  exact ⟨i, slot, hi, rfl⟩

namespace Session

/-! ## How a batch ends -/

/-- A batch of which a call was given up ends as given up. -/
theorem batchEnding_of_cancelled {s : Session} {x : Batch} {r : Run} {slot : Slot}
    (hs : slot ∈ x.slots) (he : s.ending? slot.handle = some .cancelled) :
    s.batchEnding x r = .cancelled := by
  have hnone : x.slots.mapM (fun slot => s.replyOf? slot.handle) = none := by
    refine mapM_eq_none hs ?_
    exact congrArg (Option.bind · Ending.reply?) he
  simp only [batchEnding, hnone, ite_self]

/-- A batch that counts has ended, as its handles have, as soon as none of its exchanges is
outstanding. -/
theorem Holds.ending?_of_counting {terms : Terms} {owners : List Owner} {s : Session}
    (hs : Holds terms owners [] s) {b : BatchId} {x : Batch} {r : Run}
    (hx : s.batches[b]? = some x) (hr : x.run = some r) (hne : r.tickets ≠ []) :
    s.ending? r.handle = if r.outstanding = 0 then some (s.batchEnding x r) else none := by
  obtain ⟨L, T, -, hc⟩ := hs
  have hcount := hc.counts b x r hx hr
  cases he : s.ending? r.handle with
  | none =>
    rw [if_neg]
    exact fun h₀ => hcount.ended h₀ hne he
  | some e =>
    obtain ⟨h₀, rfl⟩ := hcount.ending e he
    rw [if_pos h₀]

/-! ## Two runs -/

/-- The slots of a batch stand for the same in sessions that are alike. -/
theorem claims_of_outline {C : HandleId → Bool} {x x' : Batch} (h : x'.outline C = x.outline C) :
    x'.slots.map Slot.claim = x.slots.map Slot.claim := by
  have hmap (y : Batch) : y.slots.map Slot.claim = (y.slots.map (Slot.outline C)).map Slot.claim := by
    rw [List.map_map]
    rfl
  rw [hmap, hmap, (Batch.outline_eq_iff.1 h).2.1]

/-- Two runs, in the second of which some handles are not given up, keep sessions alike if that
these are given up does not show and their commands can be sent. -/
theorem Alike.after {hs : List HandleId} {s s' : Session} {acts : List Act}
    (h : Alike hs.contains s s')
    (hcancel : ∀ before k, before ++ [.cancel k] <+: acts → hs.contains k = true →
      Alike hs.contains (s.after before) ((s.after before).cancel k).1)
    (hrun : ∀ before b collectsErrors, before ++ [.run b collectsErrors] <+: acts → ∀ x,
      (s.after before).batches[b]? = some x → x.spent = false → ∀ slot ∈ x.slots,
        hs.contains slot.handle = true → Sends (s.after before) slot) :
    Alike hs.contains (s.after acts) (s'.after (acts.filter (Act.spares hs))) := by
  induction acts using List.reverseRec with
  | nil => exact h
  | append_singleton acts a ih =>
    have hpre {p : List Act} (hp : p <+: acts) : p <+: acts ++ [a] :=
      hp.trans (List.prefix_append ..)
    have ih := ih (fun p k hp => hcancel p k (hpre hp)) fun p b e hp => hrun p b e (hpre hp)
    rw [List.filter_append, after_append, after_append, after_cons, after_nil]
    -- an act that is kept is done in both runs, and a handle given up only in the first
    cases ha : a.spares hs with
    | true =>
      rw [List.filter_cons_of_pos ha, List.filter_nil, after_cons, after_nil]
      refine ih.act (fun k hk => ?_) fun b e hb => hrun acts b e (hb ▸ List.prefix_refl _)
      rw [hk] at ha
      simpa [Act.spares] using ha
    | false =>
      obtain ⟨k, rfl, hk⟩ := Act.eq_cancel_of_not_spares ha
      rw [List.filter_cons_of_neg (by simp [ha]), List.filter_nil, after_nil]
      exact (hcancel acts k (List.prefix_refl _) hk).symm.trans ih

section Batch

variable {address : Value × Value} {timeout : Timeout} {before after : List Act} {b : BatchId}
  {x : Batch} (hx : ((connected address timeout).after before).batches[b]? = some x)

include hx

/-- The handles of a batch belong to its slots, before and after it is complete. -/
theorem exists_owners_of_slots {acts : List Act} (hp : acts <+: before ∨ before <+: acts) :
    ∃ owners, Holds (.ofGiven fun _ => True) owners [] ((connected address timeout).after acts) ∧
      ∀ (i : Nat) (slot : Slot), x.slots[i]? = some slot → slot.handle < owners.length →
        owners[slot.handle]? = some (.slot b i) := by
  obtain ⟨owners, hs⟩ := exists_owners address timeout acts
  refine ⟨owners, hs, fun i slot hi hlt => ?_⟩
  rcases hp with ⟨rest, rfl⟩ | ⟨rest, rfl⟩
  · -- the slot is queued later, for a handle that is there already
    obtain ⟨more, hlater⟩ := hs.after rest fun _ _ => trivial
    rw [← after_append] at hlater
    rw [← List.getElem?_append_left hlt]
    exact hlater.owner_of_slot hx hi
  · have hgrown := kept_grown.after keptByQueueing_grown (fun _ _ => .of_batches rfl) address
      timeout before rest
    obtain ⟨y, hy, hxy⟩ := hgrown b x hx
    obtain ⟨slot', hi', hh, -⟩ := hxy.exists_slot hi
    rw [← hh]
    exact hs.owner_of_slot hy hi'

/-- A batch is spent from the time on when it was sent. -/
theorem spent_of_prefix {collectsErrors : Bool} {acts : List Act}
    (hp : before ++ [.run b collectsErrors] <+: acts) :
    ∃ y, ((connected address timeout).after acts).batches[b]? = some y ∧ y.spent = true := by
  obtain ⟨rest, rfl⟩ := hp
  have hgrown := kept_grown.after keptByQueueing_grown (fun _ _ => .of_batches rfl) address timeout
    (before ++ [.run b collectsErrors]) rest
  obtain ⟨y, hy, hysp⟩ := spent_run (onlySpentRun_after address timeout before) hx collectsErrors
  obtain ⟨z, hz, hyz⟩ := hgrown b y (by rwa [after_append])
  exact ⟨z, hz, (hyz.spent hysp).1⟩

variable {collectsErrors : Bool} {acts : List Act} (hsp : x.spent = false)
  (hacts : acts = before ++ .run b collectsErrors :: after)

include hsp hacts

/-- A batch is sent once. -/
theorem eq_of_run_prefix {p : List Act} {e : Bool} (hp : p ++ [.run b e] <+: acts) {y : Batch}
    (hy : ((connected address timeout).after p).batches[b]? = some y) (hysp : y.spent = false) :
    p = before := by
  have hpre : p <+: acts := (List.prefix_append p _).trans hp
  have hbefore : before <+: acts := hacts ▸ List.prefix_append before _
  have hnow : before ++ [.run b collectsErrors] <+: acts :=
    ⟨after, by rw [hacts, List.append_assoc, List.singleton_append]⟩
  rcases Nat.lt_trichotomy p.length before.length with hlt | heq | hlt
  · -- it would be spent before
    have hearlier := List.prefix_of_prefix_length_le hp hbefore (by simp; omega)
    obtain ⟨z, hz, hzsp⟩ := spent_of_prefix hy hearlier
    obtain rfl := Option.some.inj (hz.symm.trans hx)
    cases hsp.symm.trans hzsp
  · exact (List.prefix_of_prefix_length_le hpre hbefore (Nat.le_of_eq heq)).eq_of_length heq
  · have hlater := List.prefix_of_prefix_length_le hnow hpre (by simp; omega)
    obtain ⟨z, hz, hzsp⟩ := spent_of_prefix hx hlater
    obtain rfl := Option.some.inj (hz.symm.trans hy)
    cases hysp.symm.trans hzsp

variable {c : Connection Listener}
  (hc : ((connected address timeout).after before).connection = some c)
  (hf : ∀ slot ∈ x.slots, slot.fits c = true)

include hc hf

/-- A run in which handles of a batch are given up, and the one that spares them: the connection goes
through the same. -/
theorem alike_spared : Alike (x.slots.map Slot.handle).contains
    ((connected address timeout).after acts) ((connected address timeout).after (x.spared acts)) := by
  have hcomparable {p q : List Act} (hp : p ++ q <+: acts) : p <+: before ∨ before <+: p :=
    List.prefix_or_prefix_of_prefix ((List.prefix_append p q).trans hp)
      (hacts ▸ List.prefix_append before _)
  refine (Alike.refl _).after (fun p k hp hk => ?_) fun p d e hp y hy hysp slot' hslot' hh => ?_
  · obtain ⟨owners, hs, howned⟩ := exists_owners_of_slots hx (hcomparable hp)
    obtain ⟨i, slot, hi, rfl⟩ := Batch.contains_handles hk
    exact alike_cancel hs hk (howned i slot hi)
  · obtain ⟨owners, hs, howned⟩ := exists_owners_of_slots hx (hcomparable hp)
    obtain ⟨i, slot, hi, heq⟩ := Batch.contains_handles hh
    obtain ⟨j, hj⟩ := List.mem_iff_getElem?.1 hslot'
    -- it is the batch itself that is sent
    have howner := hs.owner_of_slot hy hj
    have hslot := howned i slot hi (heq ▸ (List.getElem?_eq_some_iff.1 howner).1)
    rw [heq, howner] at hslot
    obtain ⟨rfl, -⟩ : b = d ∧ i = j := by simpa [eq_comm] using hslot
    obtain rfl := eq_of_run_prefix hx hsp hacts hp hy hysp
    obtain rfl := Option.some.inj (hy.symm.trans hx)
    exact ⟨c, hc, fun _ =>
      ⟨Slot.exists_request (hf slot' hslot'), .other, hs.verb hy slot' hslot'⟩⟩

/-- The batch in a run in which handles of it are given up, and in the one that spares them: both
count the same exchanges, to which the same slots listen. -/
theorem exists_spared (ho : c.isClosed = false) (hne : x.slots ≠ []) :
    ∃ (d : Connection Listener) (z z' : Batch) (r : Run),
      ((connected address timeout).after acts).connection = some d ∧
      ((connected address timeout).after (x.spared acts)).connection = some d ∧
      ((connected address timeout).after acts).batches[b]? = some z ∧
      ((connected address timeout).after (x.spared acts)).batches[b]? = some z' ∧
      z'.transactional = z.transactional ∧ z.slots.map Slot.claim = x.slots.map Slot.claim ∧
      z'.slots.map Slot.claim = x.slots.map Slot.claim ∧ z.run = some r ∧ z'.run = some r ∧
      r.handle = ((connected address timeout).after before).nextHandle ∧ r.tickets ≠ [] ∧
      ∀ i < x.slots.length, d.listener? (x.ticket c.exchanges.length i) = some (.slot b i) := by
  -- the batch counts in the first run, and what is alike in both is enough to count in the second
  have halike := alike_spared hx hsp hacts hc hf
  obtain ⟨fs, z, r, hd, hz, -, hclaims, hr, hkey⟩ := exists_sent hc ho hx hsp hne hf hacts
  obtain ⟨hhandle, -, htickets⟩ : r.handle = ((connected address timeout).after before).nextHandle ∧
      r.collectsErrors = collectsErrors ∧ r.tickets = List.range' c.exchanges.length x.span := by
    simpa [Run.key] using hkey
  obtain ⟨y, z', hy, hz', hzz⟩ := (halike.batch_cases b).resolve_left fun h => by
    cases hz.symm.trans h.1
  obtain rfl := Option.some.inj (hz.symm.trans hy)
  obtain ⟨htr, -, -, hrun⟩ := Batch.outline_eq_iff.1 hzz
  obtain ⟨owners, hs⟩ := exists_owners address timeout before
  refine ⟨_, z, z', r, hd, halike.connection_eq.trans hd, hz, hz', htr, hclaims,
    (claims_of_outline hzz).trans hclaims, hr, hrun.trans hr, hhandle, ?_, fun i hi => ?_⟩
  · rw [htickets, Ne, List.range'_eq_nil_iff, Batch.span]
    split <;> simp [hne]
  · exact Connection.listener?_run (listener?_launch ho (hs.due hc) b (hs.verb hx) hf hi) fs

/-- A handle of the batch ends as in the run that spares the batch, unless it was given up itself. -/
theorem ending?_of_spared (ho : c.isClosed = false) {slot : Slot} (hslot : slot ∈ x.slots) :
    ((connected address timeout).after acts).ending? slot.handle =
        ((connected address timeout).after (x.spared acts)).ending? slot.handle ∨
      .cancel slot.handle ∈ acts ∧
        ((connected address timeout).after acts).ending? slot.handle = some .cancelled := by
  obtain ⟨d, z, z', r, hd, hd', hz, hz', -, hclaims, hclaims', -, -, -, -, hlisten⟩ :=
    exists_spared hx hsp hacts hc hf ho (List.ne_nil_of_mem hslot)
  obtain ⟨i, hi⟩ := List.mem_iff_getElem?.1 hslot
  have hl := hlisten i (List.getElem?_eq_some_iff.1 hi).1
  obtain ⟨w, hw, hwh, hwc⟩ := exists_of_claims hclaims.symm hi
  obtain ⟨w', hw', hwh', hwc'⟩ := exists_of_claims hclaims'.symm hi
  obtain ⟨owners, ht⟩ := exists_holds (fun h => .cancel h ∈ acts) address timeout acts fun _ h => h
  obtain ⟨owners', ht'⟩ := exists_holds (fun h => .cancel h ∈ x.spared acts) address timeout
    (x.spared acts) fun _ h => h
  have hk := ht.knows_slot hd hl hz hw
  have hk' := ht'.knows_slot hd' hl hz' hw'
  rw [hwh, hwc] at hk
  rw [hwh', hwc'] at hk'
  -- in the run that spares the batch the handle knows the outcome of its exchange
  have hspared : .cancel slot.handle ∉ x.spared acts := by
    intro hmem
    have hspares := (List.mem_filter.1 hmem).2
    rw [Act.spares, List.contains_iff_mem.2 (List.mem_map_of_mem hslot)] at hspares
    cases hspares
  have hend := hk'.resolve_right fun h => hspared h.1
  exact hk.imp_left fun h => h.trans hend.symm

end Batch

/-- Handles of a batch are given up, before it is sent or later, and all its commands can be sent over
an open connection. The connection goes through the same as in the run that spares the batch, so that
the same is written. A handle ends as it does there, unless it was given up itself. The batch ends
when it does there, and the same way, unless one of its handles ends as given up: then so does the
batch. -/
theorem endings_of_spared (address : Value × Value) (timeout : Timeout) (before after : List Act)
    (b : BatchId) (collectsErrors : Bool) {x : Batch} {c : Connection Listener}
    (hx : ((connected address timeout).after before).batches[b]? = some x) (hsp : x.spent = false)
    (hc : ((connected address timeout).after before).connection = some c) (ho : c.isClosed = false)
    (hf : ∀ slot ∈ x.slots, slot.fits c = true) :
    let s := (connected address timeout).after before
    let acts := before ++ .run b collectsErrors :: after
    let t := (connected address timeout).after acts
    let t' := (connected address timeout).after (x.spared acts)
    t.connection = t'.connection ∧
    (∀ slot ∈ x.slots, t.ending? slot.handle = t'.ending? slot.handle ∨
      .cancel slot.handle ∈ acts ∧ t.ending? slot.handle = some .cancelled) ∧
    ((∀ slot ∈ x.slots, t.ending? slot.handle ≠ some .cancelled) →
      t.ending? s.nextHandle = t'.ending? s.nextHandle) ∧
    ∀ slot ∈ x.slots, t.ending? slot.handle = some .cancelled →
      t.ending? s.nextHandle = (t'.ending? s.nextHandle).map fun _ => .cancelled := by
  intro s acts t t'
  have hacts : acts = before ++ .run b collectsErrors :: after := rfl
  have hslots (slot : Slot) (hslot : slot ∈ x.slots) :
      t.ending? slot.handle = t'.ending? slot.handle ∨
        .cancel slot.handle ∈ acts ∧ t.ending? slot.handle = some .cancelled :=
    ending?_of_spared hx hsp hacts hc hf ho hslot
  by_cases hne : x.slots = []
  · -- there is nothing to spare
    have hsame : x.spared acts = acts := by
      refine List.filter_eq_self.2 fun a _ => ?_
      cases a <;> simp [Act.spares, hne]
    have hts : t' = t := congrArg (connected address timeout).after hsame
    rw [hts, hne]
    exact ⟨rfl, by simp, fun _ => rfl, by simp⟩
  obtain ⟨d, z, z', r, hd, hd', hz, hz', htr, hclaims, hclaims', hr, hr', hhandle, htickets, -⟩ :=
    exists_spared hx hsp hacts hc hf ho hne
  obtain ⟨owners, ht⟩ := exists_owners address timeout acts
  obtain ⟨owners', ht'⟩ := exists_owners address timeout (x.spared acts)
  have hend := ht.ending?_of_counting hz hr htickets
  have hend' := ht'.ending?_of_counting hz' hr' htickets
  rw [hhandle] at hend hend'
  refine ⟨hd.trans hd'.symm, hslots, fun hall => ?_, fun slot hslot hcancelled => ?_⟩
  · -- the batch ends by how its handles have ended
    have hhandles : z'.slots.map Slot.handle = z.slots.map Slot.handle := by
      have h := congrArg (List.map Prod.snd) (hclaims'.trans hclaims.symm)
      rwa [List.map_map, List.map_map] at h
    rw [hend, hend', batchEnding_congr htr hhandles]
    intro w hw
    obtain ⟨i, hi⟩ := List.mem_iff_getElem?.1 hw
    obtain ⟨slot, hslot, hh, -⟩ := exists_of_claims hclaims hi
    have hmem := List.mem_of_getElem? hslot
    rw [← hh]
    exact ((hslots slot hmem).resolve_right fun h => hall slot hmem h.2).symm
  · obtain ⟨i, hi⟩ := List.mem_iff_getElem?.1 hslot
    obtain ⟨w, hw, hwh, -⟩ := exists_of_claims hclaims.symm hi
    rw [hend, hend', batchEnding_of_cancelled (List.mem_of_getElem? hw) (by rw [hwh, hcancelled])]
    split <;> rfl

/-- Two commands queued, the first of which is given up. -/
def givenUpFirst : List Act :=
  [.newBatch false, .enqueue 0 "zcard" [.text (.ofString "j")] [],
    .enqueue 0 "zcard" [.text (.ofString "k")] [], .cancel 0]

/-- The replies to both commands. -/
def twoReplies : List Act :=
  [.receive (Bytes.ascii ":1\r\n:2\r\n")]

/-- The second handle ends with its reply, as it does if the first one is spared, and the batch as
given up. -/
theorem endings_of_spared_first :
    let t := (connected (.none, .none) .none).after (givenUpFirst ++ .run 0 false :: twoReplies)
    t.ending? 1 = some (.result (.value (.int 2))) ∧ t.ending? 2 = some .cancelled := by
  let first : Slot := ⟨.plain "ZCARD" [.text (.ofString "j")], 0, true⟩
  let second : Slot := ⟨.plain "ZCARD" [.text (.ofString "k")], 1, false⟩
  have hx : ((connected (.none, .none) .none).after givenUpFirst).batches[0]? =
      some ⟨false, [first, second], false, none⟩ := rfl
  obtain ⟨-, hslots, -, hbatch⟩ := endings_of_spared (.none, .none) .none givenUpFirst twoReplies 0
    false hx rfl rfl rfl (by simp [first, second]; decide)
  refine ⟨(hslots second (by simp)).elim (fun h => h.trans ?_) fun h => ?_, ?_⟩
  · with_unfolding_all rfl
  · simp [givenUpFirst, twoReplies, second] at h
  · refine (hbatch first (by simp) (by with_unfolding_all rfl)).trans ?_
    with_unfolding_all rfl

/-- A batch may end as given up although nobody gave up its handle. -/
theorem not_batch_spared :
    ¬ ∀ (before after : List Act) (b : BatchId) (collectsErrors : Bool) (x : Batch)
      (c : Connection Listener),
      let s := (connected (.none, .none) .none).after before
      s.batches[b]? = some x → x.spent = false → s.connection = some c → c.isClosed = false →
        (∀ slot ∈ x.slots, slot.fits c = true) →
          .cancel s.nextHandle ∉ before ++ .run b collectsErrors :: after →
            (s.after (.run b collectsErrors :: after)).ending? s.nextHandle ≠ some .cancelled := by
  intro h
  have hnext : ((connected (.none, .none) .none).after givenUpFirst).nextHandle = 2 := rfl
  refine h givenUpFirst twoReplies 0 false _ _ rfl rfl rfl rfl (by decide) ?_ ?_
  · rw [hnext]
    simp [givenUpFirst, twoReplies]
  · with_unfolding_all rfl

end Session

end SortedSets

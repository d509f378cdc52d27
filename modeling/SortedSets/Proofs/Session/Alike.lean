import SortedSets.Proofs.Session.Invariant

/-!
# Sessions that are alike

Two sessions are alike if they have the same connection and differ only in how handles have ended and,
for handles of a given set, in whether they have ended. What a client does, and what happens to the
connection, keeps them alike: nothing that is sent depends on how a handle has ended. So a run does
the same to the connection whether handles of the set are given up or not.

## Main definitions

* `Session.Alike`: sessions that are alike

## Main results

* `Session.Alike.tellAll`, `Session.Alike.happen`: what is told, and what happens
* `Session.Alike.run`: a batch that is sent
* `Session.Alike.act`, `Session.alike_cancel`: every act, and giving up a handle of the set
-/

namespace SortedSets

variable (C : HandleId → Bool)

/-- A slot, but for whether it is filled if its handle is one of `C`. -/
def Slot.outline (slot : Slot) : Slot :=
  { slot with filled := C slot.handle || slot.filled }

/-- A batch, but for which slots are filled whose handles are in `C`. -/
def Batch.outline (x : Batch) : Batch :=
  { x with slots := x.slots.map (Slot.outline C) }

variable {C} in
theorem Slot.outline_eq_iff {y y' : Slot} : y'.outline C = y.outline C ↔
    y'.command = y.command ∧ y'.handle = y.handle ∧
      (C y'.handle || y'.filled) = (C y.handle || y.filled) := by
  rw [outline, outline, Slot.mk.injEq]

variable {C} in
theorem Batch.outline_eq_iff {x x' : Batch} : x'.outline C = x.outline C ↔
    x'.transactional = x.transactional ∧
      x'.slots.map (Slot.outline C) = x.slots.map (Slot.outline C) ∧ x'.spent = x.spent ∧
        x'.run = x.run := by
  rw [outline, outline, Batch.mk.injEq]

namespace Session

/-- What is given up with a handle, and whether the handle has ended, unless it is in `C`. -/
def outline (s : Session) (h : HandleId) : Option (Source × Bool) :=
  s.handles[h]?.map fun x => (x.source, C h || x.ending.isSome)

/-- Sessions with the same connection that differ only in how handles have ended and, for handles in
`C`, in whether they have. -/
structure Alike (s s' : Session) : Prop where
  connection_eq : s'.connection = s.connection
  handles_eq : ∀ h, s'.outline C h = s.outline C h
  batches_eq : s'.batches.map (Batch.outline C) = s.batches.map (Batch.outline C)
  scans_eq : s'.scans = s.scans
  closers_eq : s'.closers = s.closers

variable {C} {s s' t : Session}

/-! ## How handles show -/

theorem outline_endHandle (h k : HandleId) (e : Ending) (s : Session) :
    (s.endHandle h e).outline C k =
      (s.outline C k).map fun p => (p.1, p.2 || decide (k = h)) := by
  rw [endHandle_eq, outline, outline, List.getElem?_modify]
  cases s.handles[k]? with
  | none => simp
  | some x =>
    by_cases hk : h = k
    · subst hk
      cases x.ending <;> simp [Handle.ended]
    · simp [hk, Ne.symm hk]

theorem outline_setSource (h k : HandleId) (source : Source) (s : Session) :
    (s.setSource h source).outline C k =
      (s.outline C k).map fun p => (if k = h then source else p.1, p.2) := by
  rw [setSource_eq, outline, outline, List.getElem?_modify]
  cases s.handles[k]? with
  | none => simp
  | some x =>
    by_cases hk : h = k
    · subst hk
      simp [Handle.withSource]
    · simp [hk, Ne.symm hk]

theorem outline_concat (x : Handle) (k : HandleId) (s : Session) :
    ({ s with handles := s.handles ++ [x] } : Session).outline C k =
      if k = s.handles.length then some (x.source, C k || x.ending.isSome) else s.outline C k := by
  rw [outline, getElem?_concat]
  split <;> rfl

namespace Alike

theorem refl (s : Session) : Alike C s s := ⟨rfl, fun _ => rfl, rfl, rfl, rfl⟩

theorem symm (h : Alike C s s') : Alike C s' s :=
  ⟨h.connection_eq.symm, fun k => (h.handles_eq k).symm, h.batches_eq.symm, h.scans_eq.symm,
    h.closers_eq.symm⟩

theorem trans (h : Alike C s s') (h' : Alike C s' t) : Alike C s t :=
  ⟨h'.connection_eq.trans h.connection_eq, fun k => (h'.handles_eq k).trans (h.handles_eq k),
    h'.batches_eq.trans h.batches_eq, h'.scans_eq.trans h.scans_eq,
    h'.closers_eq.trans h.closers_eq⟩

theorem length_eq (h : Alike C s s') : s'.handles.length = s.handles.length := by
  have hnone (k : HandleId) : s'.handles[k]? = none ↔ s.handles[k]? = none := by
    have hk := h.handles_eq k
    rw [outline, outline] at hk
    rw [← Option.map_eq_none_iff, hk, Option.map_eq_none_iff]
  refine Nat.le_antisymm ?_ ?_
  · exact List.getElem?_eq_none_iff.1 ((hnone _).2 (List.getElem?_eq_none (Nat.le_refl _)))
  · exact List.getElem?_eq_none_iff.1 ((hnone _).1 (List.getElem?_eq_none (Nat.le_refl _)))

theorem nextHandle_eq (h : Alike C s s') : s'.nextHandle = s.nextHandle := h.length_eq

/-- A batch stands in its place in both sessions, or in none. -/
theorem batch_cases (h : Alike C s s') (b : BatchId) :
    s.batches[b]? = none ∧ s'.batches[b]? = none ∨ ∃ x x', s.batches[b]? = some x ∧
      s'.batches[b]? = some x' ∧ x'.outline C = x.outline C := by
  have hb := congrArg (·[b]?) h.batches_eq
  simp only [List.getElem?_map] at hb
  cases hx : s.batches[b]? with
  | none =>
    rw [hx] at hb
    exact .inl ⟨rfl, Option.map_eq_none_iff.1 hb⟩
  | some x =>
    rw [hx] at hb
    obtain ⟨x', hx', heq⟩ := Option.map_eq_some_iff.1 hb
    exact .inr ⟨x, x', rfl, hx', heq⟩

/-! ## Elementary changes -/

theorem endHandle (h : Alike C s s') (k : HandleId) (e e' : Ending) :
    Alike C (s.endHandle k e) (s'.endHandle k e') := by
  refine ⟨by simp [h.connection_eq], fun j => ?_, by simp [h.batches_eq], by simp [h.scans_eq],
    by simp [h.closers_eq]⟩
  rw [outline_endHandle, outline_endHandle, h.handles_eq]

theorem setSource (h : Alike C s s') (k : HandleId) (source : Source) :
    Alike C (s.setSource k source) (s'.setSource k source) := by
  refine ⟨by simp [h.connection_eq], fun j => ?_, by simp [h.batches_eq], ?_,
    by simp [h.closers_eq]⟩
  · rw [outline_setSource, outline_setSource, h.handles_eq]
  · rw [setSource_eq, setSource_eq]
    exact h.scans_eq

theorem concat (h : Alike C s s') {x x' : Handle} (hs : x'.source = x.source)
    (he : x'.ending.isSome = x.ending.isSome) :
    Alike C { s with handles := s.handles ++ [x] } { s' with handles := s'.handles ++ [x'] } := by
  refine ⟨h.connection_eq, fun j => ?_, h.batches_eq, h.scans_eq, h.closers_eq⟩
  rw [outline_concat, outline_concat, h.handles_eq, h.length_eq, hs, he]

theorem addHandle (h : Alike C s s') (source : Source) :
    Alike C (s.addHandle source) (s'.addHandle source) :=
  h.concat rfl rfl

theorem addEnded (h : Alike C s s') (e : Ending) : Alike C (s.addEnded e) (s'.addEnded e) :=
  h.concat rfl rfl

theorem setBatch (h : Alike C s s') (b : BatchId) {x x' : Batch}
    (hx : x'.outline C = x.outline C) : Alike C (s.setBatch b x) (s'.setBatch b x') := by
  refine ⟨h.connection_eq, h.handles_eq, ?_, h.scans_eq, h.closers_eq⟩
  simp only [Session.setBatch, List.map_set, hx, h.batches_eq]

theorem setCursor (h : Alike C s s') (i : CursorId) (x : Cursor ScanOptions) :
    Alike C (s.setCursor i x) (s'.setCursor i x) := by
  have hscans : (s'.setCursor i x).scans = (s.setCursor i x).scans := by
    unfold Session.setCursor
    rw [h.scans_eq]
    split
    · rfl
    · exact h.scans_eq
  rw [setCursor_eq s, setCursor_eq s', hscans]
  exact ⟨h.connection_eq, h.handles_eq, h.batches_eq, rfl, h.closers_eq⟩

theorem setConnection (h : Alike C s s') (c : Option (Connection Listener)) :
    Alike C { s with connection := c } { s' with connection := c } :=
  ⟨rfl, h.handles_eq, h.batches_eq, h.scans_eq, h.closers_eq⟩

theorem mapConnection (h : Alike C s s') (f : Connection Listener → Connection Listener) :
    Alike C (s.mapConnection f) (s'.mapConnection f) := by
  unfold Session.mapConnection
  rw [h.connection_eq]
  exact h.setConnection _

theorem setClosers (h : Alike C s s') (ps : List (HandleId × Ending)) :
    Alike C { s with closers := ps } { s' with closers := ps } :=
  ⟨h.connection_eq, h.handles_eq, h.batches_eq, h.scans_eq, rfl⟩

theorem isAttached_eq (h : Alike C s s') : s'.isAttached = s.isAttached := by
  rw [isAttached, isAttached, h.connection_eq]

theorem mode_eq (h : Alike C s s') : s'.mode = s.mode := by
  rw [mode, mode, h.connection_eq]

/-- A command is sent over the same connection. -/
theorem send (h : Alike C s s') (name : Value) (args : List Value) (l : Listener) :
    Alike C (s.send name args l).1 (s'.send name args l).1 ∧
      (s'.send name args l).2.1 = (s.send name args l).2.1 ∧
        (s'.send name args l).2.2 = (s.send name args l).2.2 := by
  unfold Session.send
  rw [h.connection_eq]
  split
  · exact ⟨h, rfl, rfl⟩
  · exact ⟨h.setConnection _, rfl, rfl⟩

/-! ## What is told -/

theorem concludeBatch (h : Alike C s s') (b : BatchId) :
    Alike C (s.concludeBatch b) (s'.concludeBatch b) := by
  rcases h.batch_cases b with ⟨hx, hx'⟩ | ⟨x, x', hx, hx', hxx⟩
  · simpa only [Session.concludeBatch, hx, hx'] using h
  · have hrun : x'.run = x.run := (Batch.outline_eq_iff.1 hxx).2.2.2
    cases hr : x.run with
    | none => simpa only [Session.concludeBatch, hx, hx', hrun, hr] using h
    | some r =>
      rw [concludeBatch_eq hx hr, concludeBatch_eq hx' (hrun.trans hr)]
      split
      · exact h.endHandle r.handle _ _
      · exact h

theorem countDown (h : Alike C s s') (b : BatchId) :
    Alike C (s.countDown b) (s'.countDown b) := by
  rcases h.batch_cases b with ⟨hx, hx'⟩ | ⟨x, x', hx, hx', hxx⟩
  · simpa only [Session.countDown, hx, hx'] using h
  · obtain ⟨htr, hslots, hsp, hrun⟩ := Batch.outline_eq_iff.1 hxx
    unfold Session.countDown
    rw [hx, hx']
    dsimp only
    rw [hrun]
    cases x.run with
    | none => exact h
    | some r =>
      refine (h.setBatch b ?_).concludeBatch b
      exact Batch.outline_eq_iff.2 ⟨htr, hslots, hsp, rfl⟩

/-- The slots of two batches that show alike. -/
theorem slot_cases {x x' : Batch} (hxx : x'.outline C = x.outline C) (i : Nat) :
    x.slots[i]? = none ∧ x'.slots[i]? = none ∨ ∃ slot slot', x.slots[i]? = some slot ∧
      x'.slots[i]? = some slot' ∧ slot'.outline C = slot.outline C := by
  have hslots := congrArg (·.slots[i]?) hxx
  simp only [Batch.outline, List.getElem?_map] at hslots
  cases hi : x.slots[i]? with
  | none =>
    rw [hi] at hslots
    exact .inl ⟨rfl, Option.map_eq_none_iff.1 hslots⟩
  | some slot =>
    rw [hi] at hslots
    obtain ⟨slot', hi', heq⟩ := Option.map_eq_some_iff.1 hslots
    exact .inr ⟨slot, slot', rfl, hi', heq⟩

/-- That a slot is filled does not show if its handle is in `C`. -/
theorem outline_fill {x : Batch} {i : Nat} {slot : Slot} (hi : x.slots[i]? = some slot)
    (hC : C slot.handle = true) : (x.fill i slot).outline C = x.outline C := by
  refine Batch.outline_eq_iff.2 ⟨rfl, List.ext_getElem? fun j => ?_, rfl, rfl⟩
  rw [List.getElem?_map, List.getElem?_map, Batch.fill, List.getElem?_set]
  split
  · next hj =>
    subst hj
    rw [if_pos (List.getElem?_eq_some_iff.1 hi).1, hi]
    simp [Slot.outline, hC]
  · rfl

/-- The end of a handle in `C` does not show. -/
theorem endHandle_of_mem {k : HandleId} (hC : C k = true) (e : Ending) (s : Session) :
    Alike C s (s.endHandle k e) := by
  refine ⟨by simp, fun j => ?_, by simp, by simp, by simp⟩
  rw [outline_endHandle, outline]
  cases s.handles[j]? with
  | none => rfl
  | some x =>
    by_cases hj : j = k
    · subst hj
      simp [hC]
    · simp [hj]

theorem fillSlot_of_mem {b : BatchId} {x : Batch} (hx : s.batches[b]? = some x) {i : Nat}
    {slot : Slot} (hi : x.slots[i]? = some slot) (hC : C slot.handle = true) (o : Outcome) :
    Alike C s (s.fillSlot b i o) := by
  rw [fillSlot_eq hx hi]
  split
  · exact refl s
  · refine trans ?_ (endHandle_of_mem hC _ _)
    have hset := (refl s).setBatch b (outline_fill hi hC)
    rwa [setBatch_self hx] at hset

theorem fillSlot (h : Alike C s s') (b : BatchId) (i : Nat) (o o' : Outcome) :
    Alike C (s.fillSlot b i o) (s'.fillSlot b i o') := by
  rcases h.batch_cases b with ⟨hx, hx'⟩ | ⟨x, x', hx, hx', hxx⟩
  · simpa only [Session.fillSlot, hx, hx'] using h
  · rcases slot_cases hxx i with ⟨hi, hi'⟩ | ⟨slot, slot', hi, hi', hss⟩
    · simpa only [Session.fillSlot, hx, hx', hi, hi'] using h
    · obtain ⟨hcommand, hhandle, hfilled⟩ := Slot.outline_eq_iff.1 hss
      cases hC : C slot.handle with
      | true =>
        refine (fillSlot_of_mem hx hi hC o).symm.trans (h.trans ?_)
        exact fillSlot_of_mem hx' hi' (by rwa [hhandle]) o'
      | false =>
        -- the slot is filled in both sessions, or in none
        rw [hhandle, hC, Bool.false_or, Bool.false_or] at hfilled
        rw [fillSlot_eq hx hi, fillSlot_eq hx' hi', hfilled]
        split
        · exact h
        · rw [hhandle]
          refine (h.setBatch b ?_).endHandle _ _ _
          obtain ⟨htr, hslots, hsp, hrun⟩ := Batch.outline_eq_iff.1 hxx
          refine Batch.outline_eq_iff.2 ⟨htr, ?_, hsp, hrun⟩
          rw [Batch.fill, Batch.fill, List.map_set, List.map_set, hslots]
          simp [Slot.outline, hcommand, hhandle]

theorem giveUpConnecting (h : Alike C s s') (k : HandleId) (e : Error) :
    Alike C (s.giveUpConnecting k e) (s'.giveUpConnecting k e) := by
  have hclosed := (h.mapConnection Connection.close).setSource k .alone
  unfold Session.giveUpConnecting
  dsimp only
  rw [hclosed.isAttached_eq, hclosed.closers_eq]
  split
  · exact hclosed.setClosers _
  · exact hclosed.endHandle k _ _

theorem becomeReady (h : Alike C s s') (k : HandleId) :
    Alike C (s.becomeReady k) (s'.becomeReady k) := by
  unfold Session.becomeReady
  rw [h.connection_eq]
  split
  · have hready : Alike C { s with ready := true }
        { s' with
          connection := s.connection
          ready := true } :=
      ⟨rfl, h.handles_eq, h.batches_eq, h.scans_eq, h.closers_eq⟩
    exact hready.endHandle k _ _
  · exact h

theorem proceed (h : Alike C s s') {again again' : Session → Session}
    (ha : ∀ {s s'}, Alike C s s' → Alike C (again s) (again' s')) (k : HandleId) (i : CursorId)
    (p : Progress ScanOptions) : Alike C (s.proceed again k i p) (s'.proceed again' k i p) := by
  cases p with
  | ended cursor r => exact (h.setCursor i cursor).endHandle k _ _
  | fetch cursor => exact ha (h.setCursor i cursor)

theorem tellWith (h : Alike C s s') {again : HandleId → CursorId → Step → Session → Session}
    (ha : ∀ k i step {s s'}, Alike C s s' → Alike C (again k i step s) (again k i step s'))
    (n : Notice Listener) : Alike C (s.tellWith again n) (s'.tellWith again n) := by
  obtain ⟨l, o⟩ := n
  -- a notice does something to one handle, one batch or one cursor, which both sessions have
  cases l with
  | direct | converting | deferred | selecting => exact h.endHandle _ _ _
  | frame b => exact h.countDown b
  | slot b i => exact (h.fillSlot b i o o).countDown b
  | connecting k =>
    cases o with
    | reply => exact h.becomeReady k
    | failed e => exact h.giveUpConnecting k e
    | cancelled => exact h.endHandle k _ _
  | fetching k i step =>
    simp only [Session.tellWith]
    rw [h.scans_eq]
    split
    · exact h
    · exact h.endHandle k _ _
    · exact h.proceed (ha k i step) k i _
    · exact h.proceed (ha k i step) k i _

theorem tellEarly (h : Alike C s s') (ns : List (Notice Listener)) :
    Alike C (s.tellEarly ns) (s'.tellEarly ns) := by
  induction ns generalizing s s' with
  | nil => exact h
  | cons n ns ih => exact ih (h.tellWith (fun _ _ _ _ _ h => h) n)

theorem requestPage (h : Alike C s s') (k : HandleId) (i : CursorId) (step : Step) :
    Alike C (s.requestPage k i step) (s'.requestPage k i step) := by
  unfold Session.requestPage
  rw [h.scans_eq, h.mode_eq]
  split
  · exact h
  · split
    · exact h.proceed (fun h => h) k i _
    · next command _ =>
      obtain ⟨hsent, hearly, hresult⟩ :=
        h.send (.bytes command.name) command.args (.fetching k i step)
      -- both sessions send the same command over the same connection
      cases hr : (s.send (.bytes command.name) command.args (.fetching k i step)).2.2 with
      | error e =>
        simp only [hr, hresult.trans hr]
        exact hsent.proceed (fun h => h) k i _
      | ok t =>
        simp only [hr, hresult.trans hr, hearly]
        exact (hsent.setSource k _).tellEarly _

theorem tellAll (h : Alike C s s') (ns : List (Notice Listener)) :
    Alike C (s.tellAll ns) (s'.tellAll ns) := by
  induction ns generalizing s s' with
  | nil => exact h
  | cons n ns ih => exact ih (h.tellWith (fun k i step _ _ h => h.requestPage k i step) n)

theorem happen (h : Alike C s s')
    (f : Connection Listener → Connection Listener × List (Notice Listener)) :
    Alike C (s.happen f) (s'.happen f) := by
  unfold Session.happen
  rw [h.connection_eq]
  split
  · exact h
  · exact (h.setConnection _).tellAll _

theorem endClosers (h : Alike C s s') : Alike C s.endClosers s'.endClosers := by
  have hall (ps : List (HandleId × Ending)) {s s' : Session} (h : Alike C s s') :
      Alike C (ps.foldl (fun s p => s.endHandle p.1 p.2) s)
        (ps.foldl (fun s p => s.endHandle p.1 p.2) s') := by
    induction ps generalizing s s' with
    | nil => exact h
    | cons p ps ih => exact ih (h.endHandle p.1 p.2 p.2)
  unfold Session.endClosers
  rw [h.closers_eq]
  exact hall _ (h.setClosers [])

/-! ## What a client does -/

theorem sendFor (h : Alike C s s') (name : Value) (args : List Value) (l : HandleId → Listener)
    (alone : Bool) :
    Alike C (s.sendFor name args l alone).1 (s'.sendFor name args l alone).1 := by
  unfold Session.sendFor
  rw [h.nextHandle_eq]
  obtain ⟨hsent, hearly, hresult⟩ := h.send name args (l s.nextHandle)
  cases hr : (s.send name args (l s.nextHandle)).2.2 with
  | error e =>
    simp only [hr, hresult.trans hr, hearly]
    exact hsent.tellEarly _
  | ok t =>
    simp only [hr, hresult.trans hr, hearly]
    exact (hsent.addHandle _).tellEarly _

theorem call (h : Alike C s s') (method : String) (args : List Value)
    (named : List (String × Value)) :
    Alike C (s.call method args named).1 (s'.call method args named).1 := by
  unfold Session.call
  rw [h.mode_eq, h.scans_eq]
  split
  · exact h
  · split
    · exact h
    · exact ⟨h.connection_eq, h.handles_eq, h.batches_eq, rfl, h.closers_eq⟩
    · split
      · exact h.sendFor _ _ _ _
      · exact h.sendFor _ _ _ _
      · exact h.sendFor _ _ _ _

theorem select (h : Alike C s s') (db : Value) : Alike C (s.select db) (s'.select db) := by
  unfold Session.select sendSelect
  rw [h.nextHandle_eq]
  have hnew := h.addHandle .alone
  dsimp only
  split
  · exact hnew.endHandle _ _ _
  · obtain ⟨hsent, hearly, hresult⟩ := hnew.send (word "SELECT") [db] (.selecting s.nextHandle)
    cases hr : ((s.addHandle .alone).send (word "SELECT") [db] (.selecting s.nextHandle)).2.2 with
    | error e =>
      simp only [hresult.trans hr, hearly]
      exact (hsent.tellEarly _).endHandle _ _ _
    | ok t =>
      simp only [hresult.trans hr, hearly]
      exact (hsent.setSource _ _).tellEarly _

theorem step (h : Alike C s s') (i : CursorId) (step : Step) :
    Alike C (s.step i step) (s'.step i step) := by
  have hnew := h.addHandle .alone
  unfold Session.step
  dsimp only
  rw [h.nextHandle_eq, hnew.scans_eq]
  split
  · exact hnew
  · exact hnew.proceed (fun h => h.requestPage _ i step) _ i _

theorem closeCursor (h : Alike C s s') (i : CursorId) :
    Alike C (s.closeCursor i) (s'.closeCursor i) := by
  unfold Session.closeCursor
  rw [h.scans_eq]
  split
  · exact h
  · exact h.setCursor i _

theorem newBatch (h : Alike C s s') (transactional : Bool) :
    Alike C (s.newBatch transactional) (s'.newBatch transactional) := by
  refine ⟨h.connection_eq, h.handles_eq, ?_, h.scans_eq, h.closers_eq⟩
  simp only [Session.newBatch, List.map_append, h.batches_eq]

theorem enqueue (h : Alike C s s') (b : BatchId) (method : String) (args : List Value)
    (named : List (String × Value)) :
    Alike C (s.enqueue b method args named).1 (s'.enqueue b method args named).1 := by
  rcases h.batch_cases b with ⟨hx, hx'⟩ | ⟨x, x', hx, hx', hxx⟩
  · simpa only [Session.enqueue, hx, hx'] using h
  · obtain ⟨htr, hslots, hsp, hrun⟩ := Batch.outline_eq_iff.1 hxx
    -- what the call is judged by does not depend on which handles have ended
    have hlen : x'.slots.length = x.slots.length := by
      simpa using congrArg List.length hslots
    have hmode : x'.mode = x.mode := by rw [Batch.mode, Batch.mode, htr]
    unfold Session.enqueue
    simp only [hx, hx', hsp, hmode, hlen, h.nextHandle_eq]
    split
    · exact h
    · split
      · exact h
      · split
        · exact h
        · exact h
        · refine (h.addHandle _).setBatch b (Batch.outline_eq_iff.2 ⟨htr, ?_, rfl, hrun⟩)
          rw [List.map_append, List.map_append, hslots]

theorem awaitClosed (h : Alike C s s') (v : Value) :
    Alike C (s.awaitClosed v) (s'.awaitClosed v) := by
  unfold Session.awaitClosed
  rw [h.isAttached_eq, h.closers_eq, h.nextHandle_eq]
  split
  · exact (h.addHandle .alone).setClosers _
  · exact h.addEnded _

theorem setBuffered (h : Alike C s s') (on : Bool) :
    Alike C (s.setBuffered on) (s'.setBuffered on) :=
  h.mapConnection _

end Alike

/-! ## Batches that are sent -/

/-- The command of a slot can be sent over the connection of a session. -/
def Sends (s : Session) (slot : Slot) : Prop :=
  ∃ c, s.connection = some c ∧
    ∀ l, c.Sendable ⟨.bytes slot.command.name, slot.command.args, l⟩

namespace Sends

variable {y : Slot}

theorem of_connection (h : Sends s y) (ht : t.connection = s.connection) : Sends t y := by
  rwa [Sends, ht]

/-- Sending another command changes nothing about it. -/
theorem send (h : Sends s y) (name : Value) (args : List Value) (l : Listener) :
    Sends (s.send name args l).1 y := by
  obtain ⟨c, hc, hy⟩ := h
  refine ⟨(c.execute name args l).connection, by simp only [Session.send, hc], fun l' => ?_⟩
  exact (hy l').congr (Connection.isClosed_execute ..)

theorem enterBuffer (h : Sends s y) : Sends (s.mapConnection Connection.enterBuffer) y := by
  obtain ⟨c, hc, hy⟩ := h
  exact ⟨c.enterBuffer, by rw [mapConnection, hc]; rfl, fun l => (hy l).congr rfl⟩

theorem frame {x : Sending} (h : Sends x.session y) (b : BatchId) (w : String) :
    Sends (x.frame b w).session y := by
  unfold Sending.frame
  split
  · exact h
  · dsimp only
    split <;> exact h.send _ _ _

theorem slot {x : Sending} (h : Sends x.session y) (b : BatchId) (i : Nat) (other : Slot) :
    Sends (x.slot b i other).session y := by
  unfold Sending.slot
  split
  · exact h
  · dsimp only
    split
    · exact h.send _ _ _
    · split
      · exact h.send _ _ _
      · exact (h.send _ _ _).of_connection (connection_fillSlot ..)

end Sends

/-- Two sendings that go alike. -/
structure SentAlike (C : HandleId → Bool) (x x' : Sending) : Prop where
  session : Alike C x.session x'.session
  tickets_eq : x'.tickets = x.tickets
  early_eq : x'.early = x.early
  error_eq : x'.error = x.error

namespace SentAlike

variable {x x' : Sending}

theorem frame (h : SentAlike C x x') (b : BatchId) (w : String) :
    SentAlike C (x.frame b w) (x'.frame b w) := by
  obtain ⟨hsent, hearly, hresult⟩ := h.session.send (.text (.ofString w)) [] (.frame b)
  cases he : x.error with
  | some e => simpa only [Sending.frame, he, h.error_eq] using h
  | none =>
    cases hr : (x.session.send (.text (.ofString w)) [] (.frame b)).2.2 with
    | error e =>
      simp only [Sending.frame, he, h.error_eq, hr, hresult.trans hr, hearly, h.early_eq,
        h.tickets_eq]
      exact ⟨hsent, rfl, rfl, rfl⟩
    | ok t =>
      simp only [Sending.frame, he, h.error_eq, hr, hresult.trans hr, hearly, h.early_eq,
        h.tickets_eq]
      exact ⟨hsent, rfl, rfl, rfl⟩

/-- A command is sent. If it could not be sent, it would matter whether its slot is filled. -/
theorem slot (h : SentAlike C x x') (b : BatchId) (i : Nat) {y y' : Slot}
    (hy : y'.outline C = y.outline C) (hs : C y.handle = true → Sends x.session y) :
    SentAlike C (x.slot b i y) (x'.slot b i y') := by
  obtain ⟨hcommand, hhandle, hfilled⟩ := Slot.outline_eq_iff.1 hy
  obtain ⟨hsent, hearly, hresult⟩ :=
    h.session.send (.bytes y.command.name) y.command.args (.slot b i)
  cases he : x.error with
  | some e => simpa only [Sending.slot, he, h.error_eq] using h
  | none =>
    cases hr : (x.session.send (.bytes y.command.name) y.command.args (.slot b i)).2.2 with
    | ok t =>
      simp only [Sending.slot, he, h.error_eq, hcommand, hr, hresult.trans hr, hearly, h.early_eq,
        h.tickets_eq]
      exact ⟨hsent, rfl, rfl, rfl⟩
    | error e =>
      -- the command is none of those that can be sent, so that its slot is filled in both or in none
      have hC : C y.handle = false := by
        by_contra hC
        obtain ⟨c, hc, hsend⟩ := hs (by simpa using hC)
        rw [send_of_sendable hc (hsend (.slot b i))] at hr
        cases hr
      rw [hhandle, hC, Bool.false_or, Bool.false_or] at hfilled
      simp only [Sending.slot, he, h.error_eq, hcommand, hr, hresult.trans hr, hearly, h.early_eq,
        h.tickets_eq, hfilled]
      split
      · exact ⟨hsent, rfl, rfl, rfl⟩
      · exact ⟨hsent.fillSlot b i _ _, rfl, rfl, rfl⟩

theorem slots (h : SentAlike C x x') (b : BatchId) (i : Nat) {ys ys' : List Slot}
    (hys : ys'.map (Slot.outline C) = ys.map (Slot.outline C))
    (hs : ∀ y ∈ ys, C y.handle = true → Sends x.session y) :
    SentAlike C (Sending.slots b i ys x) (Sending.slots b i ys' x') := by
  induction ys generalizing i ys' x x' with
  | nil =>
    obtain rfl : ys' = [] := List.map_eq_nil_iff.1 hys
    exact h
  | cons y ys ih =>
    cases ys' with
    | nil => cases hys
    | cons y' ys' =>
      obtain ⟨hy, hys⟩ := List.cons.inj hys
      refine ih (h.slot b i hy (hs y List.mem_cons_self)) (i + 1) hys fun z hz hC => ?_
      exact (hs z (List.mem_cons_of_mem y hz) hC).slot b i y

theorem all (h : Alike C s s') (b : BatchId) {y y' : Batch} (hy : y'.outline C = y.outline C)
    (hs : ∀ slot ∈ y.slots, C slot.handle = true → Sends s slot) :
    SentAlike C (Sending.all b y s) (Sending.all b y' s') := by
  obtain ⟨htr, hslots, -, -⟩ := Batch.outline_eq_iff.1 hy
  have hstart : SentAlike C ⟨s, [], [], none⟩ ⟨s', [], [], none⟩ := ⟨h, rfl, rfl, rfl⟩
  unfold Sending.all
  dsimp only
  rw [htr]
  split
  · refine ((hstart.frame b "MULTI").slots b 0 hslots fun slot hslot hC => ?_).frame b "EXEC"
    exact (hs slot hslot hC).frame b "MULTI"
  · exact hstart.slots b 0 hslots hs

end SentAlike

namespace Alike

/-- A batch is sent for a handle. -/
theorem sendBatch (h : Alike C s s') (b : BatchId) {y y' : Batch} (hy : y'.outline C = y.outline C)
    (hs : ∀ slot ∈ y.slots, C slot.handle = true → Sends s slot) (k : HandleId)
    (collectsErrors : Bool) :
    Alike C (s.sendBatch b y k collectsErrors) (s'.sendBatch b y' k collectsErrors) := by
  -- commands are gathered, sent and written as one block in both sessions
  have hall := SentAlike.all (h.mapConnection Connection.enterBuffer) b hy fun slot hslot hC =>
    (hs slot hslot hC).enterBuffer
  have hleft := hall.session.mapConnection Connection.leaveBuffer
  unfold Session.sendBatch
  dsimp only
  rw [hall.error_eq, hall.early_eq, hall.tickets_eq]
  split
  · exact (hleft.tellEarly _).endHandle k _ _
  · rcases hleft.batch_cases b with ⟨hz, hz'⟩ | ⟨z, z', hz, hz', hzz⟩
    · rw [hz, hz']
      exact hleft
    · rw [hz, hz']
      obtain ⟨htr, hslots, hsp, -⟩ := Batch.outline_eq_iff.1 hzz
      refine ((hleft.setBatch b ?_).tellEarly _).concludeBatch b
      exact Batch.outline_eq_iff.2 ⟨htr, hslots, hsp, rfl⟩

/-- A batch is sent. The commands whose handles are in `C` must be ones that can be sent. -/
theorem run (h : Alike C s s') (b : BatchId) (collectsErrors : Bool)
    (hs : ∀ x, s.batches[b]? = some x → x.spent = false → ∀ slot ∈ x.slots,
      C slot.handle = true → Sends s slot) :
    Alike C (s.run b collectsErrors) (s'.run b collectsErrors) := by
  rcases h.batch_cases b with ⟨hx, hx'⟩ | ⟨x, x', hx, hx', hxx⟩
  · simpa only [Session.run, hx, hx'] using h
  · obtain ⟨htr, hslots, hsp, hrun⟩ := Batch.outline_eq_iff.1 hxx
    -- both batches are empty, or none is
    have hempty : x'.slots.isEmpty = x.slots.isEmpty := by
      simpa using congrArg List.isEmpty hslots
    have hspent : { x' with spent := true }.outline C = { x with spent := true }.outline C :=
      Batch.outline_eq_iff.2 ⟨htr, hslots, rfl, hrun⟩
    unfold Session.run
    simp only [hx, hx', hsp, hempty]
    split
    · exact h.addEnded _
    · next hunspent =>
      split
      · exact (h.setBatch b hspent).addEnded _
      · have hnew := (h.setBatch b hspent).addHandle (.run b)
        have hnext := (h.setBatch b hspent).nextHandle_eq
        rw [hnext]
        refine hnew.sendBatch b hspent (fun slot hslot hC => ?_) _ _
        exact (hs x hx (by simpa using hunspent) slot hslot hC).of_connection rfl

/-! ## Giving up -/

theorem cancelRun (h : Alike C s s') (b : BatchId) :
    Alike C (s.cancelRun b) (s'.cancelRun b) := by
  -- the batches count the same exchanges, which are given up in turn
  have hall (ts : List Ticket) {s s' : Session} (h : Alike C s s') :
      Alike C (ts.foldl (fun s t => s.happen (Connection.cancel t)) s)
        (ts.foldl (fun s t => s.happen (Connection.cancel t)) s') := by
    induction ts generalizing s s' with
    | nil => exact h
    | cons t ts ih => exact ih (h.happen _)
  rcases h.batch_cases b with ⟨hx, hx'⟩ | ⟨x, x', hx, hx', hxx⟩
  · simpa only [Session.cancelRun, hx, hx'] using h
  · obtain ⟨htr, hslots, hsp, hrun⟩ := Batch.outline_eq_iff.1 hxx
    unfold Session.cancelRun
    simp only [hx, hx', hrun]
    split
    · exact h
    · refine hall _ (h.setBatch b ?_)
      exact Batch.outline_eq_iff.2 ⟨htr, hslots, hsp, rfl⟩

theorem cancelSource (h : Alike C s s') (k : HandleId) (source : Source) :
    Alike C (s.cancelSource k source) (s'.cancelSource k source) := by
  cases source with
  | exchange t => exact h.happen (Connection.cancel t)
  | slot b i => exact h.fillSlot b i _ _
  | run b => exact h.cancelRun b
  | alone => exact h.endHandle k _ _

/-- A handle that is not in `C` is given up. It is pending in both sessions, or in none. -/
theorem cancel (h : Alike C s s') {k : HandleId} (hk : C k = false) :
    Alike C (s.cancel k).1 (s'.cancel k).1 := by
  have hshow := h.handles_eq k
  simp only [outline, hk, Bool.false_or] at hshow
  cases hx : s.handles[k]? with
  | none =>
    rw [hx] at hshow
    simpa [Session.cancel, hx, Option.map_eq_none_iff.1 hshow] using h
  | some x =>
    rw [hx] at hshow
    obtain ⟨x', hx', heq⟩ := Option.map_eq_some_iff.1 hshow
    obtain ⟨hsource, hending⟩ := Prod.mk.inj heq
    obtain ⟨source, ending⟩ := x
    obtain ⟨source', ending'⟩ := x'
    obtain rfl : source' = source := hsource
    -- whether a handle has ended shows, since it is not in `C`
    cases ending with
    | none =>
      obtain rfl : ending' = none := Option.isNone_iff_eq_none.1 (by simpa using hending)
      simpa only [Session.cancel, hx, hx'] using h.cancelSource k source'
    | some e =>
      obtain ⟨e', rfl⟩ : ∃ e', ending' = some e' := Option.isSome_iff_exists.1 hending
      simpa only [Session.cancel, hx, hx'] using h

/-- What is done or happens keeps sessions alike, but for the giving up of a handle in `C`, and as
long as the commands whose handles are in `C` can be sent. -/
theorem act (h : Alike C s s') {a : Act} (hcancel : ∀ k, a = .cancel k → C k = false)
    (hrun : ∀ b collectsErrors, a = .run b collectsErrors → ∀ x, s.batches[b]? = some x →
      x.spent = false → ∀ slot ∈ x.slots, C slot.handle = true → Sends s slot) :
    Alike C (s.act a) (s'.act a) := by
  cases a with
  | call method args named => exact h.call method args named
  | execute name args => exact h.sendFor name args _ _
  | select db => exact h.select db
  | step i step => exact h.step i step
  | closeCursor i => exact h.closeCursor i
  | newBatch transactional => exact h.newBatch transactional
  | enqueue b method args named => exact h.enqueue b method args named
  | run b collectsErrors => exact h.run b collectsErrors (hrun b collectsErrors rfl)
  | cancel k => exact h.cancel (hcancel k rfl)
  | setBuffered on => exact h.setBuffered on
  | receive piece => exact h.happen (Connection.receive piece)
  | lose e => exact (h.happen (Connection.lose e)).endClosers
  | close => exact h.mapConnection Connection.close
  | awaitClosed v => exact h.awaitClosed v

end Alike

/-- To give up a handle of a slot does not show if the handle is in `C`. -/
theorem alike_cancel {terms : Terms} {owners : List Owner} (hs : Holds terms owners [] s)
    {k : HandleId} (hC : C k = true) {b : BatchId} {i : Nat}
    (ho : k < owners.length → owners[k]? = some (.slot b i)) : Alike C s (s.cancel k).1 := by
  obtain ⟨L, T, -, hc⟩ := hs
  unfold Session.cancel
  split
  · next source hx =>
    have hsource : s.source? k = some source := by rw [source?, hx]; rfl
    have ho := ho (hc.length_eq ▸ (List.getElem?_eq_some_iff.1 hx).1)
    cases source with
    | alone => exact .endHandle_of_mem hC _ _
    | slot d j =>
      obtain ⟨x, slot, hd, hj, rfl⟩ := hc.ofSlot k d j hsource
      exact .fillSlot_of_mem hd hj hC _
    | exchange t => exact absurd ho (hc.ofExchange k t b i hsource)
    | run d => cases ho.symm.trans (hc.ofRun k d hsource)
  · exact .refl s

end Session

end SortedSets

import SortedSets.Proofs.Session.Launch

/-!
# The invariant of a session

Whatever a client does and whatever happens to its connection, handles and batches agree with what
they were told. Each act is one lemma; a run of acts follows by induction.

## Main results

* `Session.Holds.run`, `Session.Holds.cancel`, `Session.Holds.call`, …: the acts
* `Session.Holds.act`, `Session.Holds.after`: every act, every run
* `Session.exists_holds`: a session that has just its connection, and any run of it
-/

namespace SortedSets

namespace Session

variable {terms : Terms} {owners : List Owner} {s : Session}

/-- A new handle does not matter to a command that is sent. -/
theorem send_addHandle (source : Source) (name : Value) (args : List Value) (l : Listener)
    (s : Session) : (s.addHandle source).send name args l =
      ((s.send name args l).1.addHandle source, (s.send name args l).2) := by
  unfold send addHandle
  dsimp only
  split <;> rfl

/-- Handles and batches agree with what they were told; some handles are new, but none is that of a
step. -/
def HoldsMore (terms : Terms) (owners : List Owner) (s : Session) : Prop :=
  ∃ more : List Owner, (∀ o ∈ more, o.step? = none) ∧ Holds terms (owners ++ more) [] s

namespace Holds

/-! ## New handles -/

theorem same (hs : Holds terms owners [] s) : HoldsMore terms owners s :=
  ⟨[], by simp, by rwa [List.append_nil]⟩

theorem one {o : Owner} (hs : Holds terms (owners ++ [o]) [] s) (ho : o.step? = none) :
    HoldsMore terms owners s :=
  ⟨[o], by simpa using ho, hs⟩

/-- A new handle that is no batch's. -/
theorem concat (hs : Holds terms owners [] s) (x : Handle) {o : Owner} (ho : ∀ b, o ≠ .batch b)
    (hx : x.source = .alone ∨ (∃ t, x.source = .exchange t) ∧ ∀ b i, o ≠ .slot b i) :
    Holds terms (owners ++ [o]) [] { s with handles := s.handles ++ [x] } := by
  refine hs.of_consistent rfl fun L T hc => hc.concat x o (fun _ => ho) (fun t h => ?_)
    (fun b i h => ?_) (fun b h => ?_) fun b h => absurd h (ho b)
  · rcases hx with hx | ⟨-, ho⟩
    · cases hx.symm.trans h
    · exact ho
  · rcases hx with hx | ⟨⟨t, hx⟩, -⟩ <;> cases hx.symm.trans h
  · rcases hx with hx | ⟨⟨t, hx⟩, -⟩ <;> cases hx.symm.trans h

/-- A new handle that belongs to no exchange and to no batch. -/
theorem addAlone (hs : Holds terms owners [] s) :
    Holds terms (owners ++ [.other]) [] (s.addHandle .alone) :=
  hs.concat ⟨.alone, none⟩ (by simp) (.inl rfl)

theorem addEnded (hs : Holds terms owners [] s) (e : Ending) :
    Holds terms (owners ++ [.other]) [] (s.addEnded e) :=
  hs.concat ⟨.alone, some e⟩ (by simp) (.inl rfl)

/-- The owner of a handle that was just made. -/
theorem getElem?_owners (hs : Holds terms owners [] s) (o : Owner) :
    (owners ++ [o])[s.handles.length]? = some o := by
  obtain ⟨L, T, -, hc⟩ := hs
  rw [← hc.length_eq, List.getElem?_concat_length]

/-- A handle made for a command that was sent listens to it. -/
theorem send_new (hs : Holds terms owners [] s) (source : Source)
    (hsource : source = .alone ∨ ∃ t, source = .exchange t) {name : Value} {args : List Value}
    {l : Listener} {f : Outcome → Ending} (hl : l.reading? = some (s.handles.length, f))
    {t : Ticket} (ht : (s.send name args l).2.2 = .ok t) :
    Holds terms (owners ++ [.exchange t]) (s.send name args l).2.1
      ((s.send name args l).1.addHandle source) := by
  have hnew : Holds terms (owners ++ [.exchange t]) [] (s.addHandle source) :=
    hs.concat ⟨source, none⟩ (by simp) (hsource.imp_right fun h => ⟨h, by simp⟩)
  have hb : l.batch? = none := by cases l <;> first | rfl | cases hl
  have hsent : ((s.addHandle source).send name args l).2.2 = .ok t := by
    rw [send_addHandle]
    exact ht
  have h := hnew.send_ok hsent hb
    (.reading hl (hs.getElem?_owners _) (.inl ((ending?_addHandle s _ _).trans (ending?_length s))))
  rw [send_addHandle] at h
  simpa using h

/-! ## Commands -/

theorem sendFor (hs : Holds terms owners [] s) (name : Value) (args : List Value)
    {l : HandleId → Listener} {f : Outcome → Ending} (hl : ∀ h, (l h).reading? = some (h, f))
    (alone : Bool) : HoldsMore terms owners (s.sendFor name args l alone).1 := by
  unfold Session.sendFor
  dsimp only
  split
  · next e he =>
    obtain ⟨hnone, hs⟩ := hs.send_error he
    rw [hnone]
    exact hs.same
  · next t ht =>
    refine one (o := .exchange t) (tellEarly ?_) rfl
    rw [List.append_nil]
    refine hs.send_new _ ?_ (hl _) ht
    split
    · exact .inl rfl
    · exact .inr ⟨t, rfl⟩

theorem call (hs : Holds terms owners [] s) (method : String) (args : List Value)
    (named : List (String × Value)) : HoldsMore terms owners (s.call method args named).1 := by
  unfold Session.call
  split
  · exact hs.same
  · split
    · exact hs.same
    · exact same (hs.congr rfl rfl rfl rfl)
    · split
      · exact hs.sendFor _ _ (fun _ => rfl) false
      · exact hs.sendFor _ _ (fun _ => rfl) false
      · exact hs.sendFor _ _ (fun _ => rfl) true

theorem select (hs : Holds terms owners [] s) (db : Value) :
    HoldsMore terms owners (s.select db) := by
  have hother := hs.addAlone
  have ho := hs.getElem?_owners .other
  unfold Session.select sendSelect
  dsimp only
  split
  · exact one (hother.endHandle_other ho _) rfl
  · -- the handle is there before the command is sent, and has its exchange afterwards
    split
    · next e he =>
      obtain ⟨hnone, hs⟩ := hother.send_error he
      rw [hnone]
      exact one (hs.endHandle_other ho _) rfl
    · next t ht =>
      rw [send_addHandle] at ht ⊢
      refine one (o := .exchange t) (tellEarly ?_) rfl
      rw [List.append_nil]
      have hnew := hs.getElem?_owners (.exchange t)
      exact (hs.send_new .alone (.inl rfl) rfl ht).setSource (by simp [nextHandle, hnew])
        (by simp [nextHandle, hnew]) t

/-- A step waits for no page before it has asked for one. -/
theorem rests (hs : Holds terms owners [] s) (i : CursorId) (step : Step) :
    Rests terms (owners ++ [.step i step]) [] s.nextHandle (s.addHandle .alone) := by
  obtain ⟨L, T, hv, hc⟩ := hs
  refine ⟨L, T, hv.congr rfl, ?_, ?_, (ending?_addHandle ..).trans (ending?_length s)⟩
  · exact hc.concat ⟨.alone, none⟩ (.step i step) (by simp) (by simp) (by simp) (by simp) (by simp)
  · -- nobody owned the handle before it was there
    refine hc.not_fetches fun c way ho => ?_
    exact Nat.lt_irrefl _ (hc.lt_length ho)

theorem step (hs : Holds terms owners [] s) (i : CursorId) (step : Step) :
    Holds terms (owners ++ [.step i step]) [] (s.step i step) := by
  have hrests := hs.rests i step
  have ho := hs.getElem?_owners (.step i step)
  unfold Session.step
  dsimp only
  split
  · exact hrests.holds
  · exact hrests.proceed ho (fun s hs => hs.requestPage ho) _

theorem closeCursor (hs : Holds terms owners [] s) (i : CursorId) :
    Holds terms owners [] (s.closeCursor i) := by
  unfold Session.closeCursor
  split
  · exact hs
  · exact hs.setCursor i _

/-! ## Batches -/

theorem newBatch (hs : Holds terms owners [] s) (transactional : Bool) :
    Holds terms owners [] (s.newBatch transactional) :=
  hs.of_consistent rfl fun _ _ hc => hc.newBatch transactional

theorem enqueue (hs : Holds terms owners [] s) (b : BatchId) (method : String)
    (args : List Value) (named : List (String × Value)) :
    HoldsMore terms owners (s.enqueue b method args named).1 := by
  unfold Session.enqueue
  split
  · exact hs.same
  · next x hx =>
    split
    · exact hs.same
    · next hsp =>
      split
      · exact hs.same
      · next m _ =>
        split
        · exact hs.same
        · exact hs.same
        · next command hm =>
          refine one (o := .slot b x.slots.length) ?_ rfl
          dsimp only
          set slot : Slot := ⟨command, s.nextHandle, false⟩ with hslot
          have hqueued : Holds terms (owners ++ [.slot b x.slots.length]) []
              ((s.addHandle .alone).setBatch b { x with slots := x.slots ++ [slot] }) := by
            refine (hs.concat ⟨.alone, none⟩ (o := .slot b x.slots.length) (by simp)
              (.inl rfl)).of_consistent rfl fun L T hc => ?_
            refine hc.appendSlot slot hx (by simpa using hsp) (hs.getElem?_owners _) ?_ rfl
              ⟨m, args, named, hm⟩
            exact (ending?_addHandle s _ _).trans (ending?_length s)
          split
          · exact hqueued
          · -- the handle is given up together with its slot
            have hsource : ((s.addHandle (.slot b x.slots.length)).setBatch b
                  { x with slots := x.slots ++ [slot] }) =
                ((s.addHandle .alone).setBatch b { x with slots := x.slots ++ [slot] }).setSource
                  s.nextHandle (.slot b x.slots.length) := by
              simp [Session.setSource, Session.addHandle, Session.setBatch, nextHandle,
                List.set_append_right]
            rw [hsource]
            refine hqueued.of_consistent (connection_setSource ..) fun L T hc => ?_
            have hnew : (owners ++ [.slot b x.slots.length])[s.nextHandle]? =
              some (.slot b x.slots.length) := hs.getElem?_owners _
            refine hc.setSource (.inr ⟨b, x.slots.length, _, slot, rfl,
              getElem?_setBatch_self _ _ (y := x) hx, ?_, rfl⟩) (hc.not_fetches (by simp [hnew]))
            simp

theorem run (hs : Holds terms owners [] s) (b : BatchId) (collectsErrors : Bool) :
    HoldsMore terms owners (s.run b collectsErrors) := by
  cases hx : s.batches[b]? with
  | none => exact same (by simpa [Session.run, hx] using hs)
  | some x =>
    cases hsp : x.spent with
    | true => exact one (o := .other) (by simpa [Session.run, hx, hsp] using hs.addEnded _) rfl
    | false =>
      by_cases hne : x.slots = []
      · refine one (o := .other) ?_ rfl
        simp only [Session.run, hx, hsp, hne]
        refine addEnded ?_ _
        exact hs.of_consistent (connection_setBatch ..) fun L T hc => hne ▸ hc.spend hx hsp
      · obtain ⟨c, hc⟩ := hs.exists_connection
        obtain ⟨j, -, h⟩ := hs.launched hx hsp hne hc collectsErrors
        -- which of its commands are never sent is of no concern here
        obtain ⟨L, T, hv, hc⟩ := h.holds
        exact one (o := .batch b)
          ⟨L, T, hv, hc.restate rfl fun d i hd => hc.stranded d i (.inl hd)⟩ rfl

/-! ## Giving up -/

theorem cancelTickets (hs : Holds terms owners [] s) (ts : List Ticket) :
    Holds terms owners [] (ts.foldl (fun s t => s.happen (Connection.cancel t)) s) :=
  List.foldlRecOn ts _ hs fun _ hu t _ =>
    hu.happen (Connection.reports_cancel t) fun _ => Connection.due_followAll _

theorem cancelRun (hs : Holds terms owners [] s) {h : HandleId} {b : BatchId} (hg : terms.given h)
    (hn : s.ending? h = none) (hsource : s.source? h = some (.run b)) :
    Holds terms owners [] (s.cancelRun b) := by
  unfold Session.cancelRun
  split
  · exact hs
  · next x hx =>
    split
    · exact hs
    · next r hr =>
      refine cancelTickets (hs.of_consistent (connection_setBatch ..) fun L T hc => ?_) _
      -- the handle of the batch is the one that is given up
      have hcount := hc.counts b x r hx hr
      obtain rfl := hc.oneRun h r.handle b (hc.ofRun h b hsource) hcount.owner
      exact hc.cancelRun hx hr hg hn

theorem cancel (hs : Holds terms owners [] s) {h : HandleId} (hg : terms.given h) :
    Holds terms owners [] (s.cancel h).1 := by
  unfold Session.cancel
  split
  · next source hx =>
    have hn : s.ending? h = none := by rw [ending?, hx]; rfl
    have hsource : s.source? h = some source := by rw [source?, hx]; rfl
    cases source with
    | exchange t => exact hs.happen (Connection.reports_cancel t) fun _ => Connection.due_followAll _
    | slot b i =>
      refine hs.of_consistent (connection_fillSlot ..) fun L T hc => ?_
      obtain ⟨x, slot, hb, hi, rfl⟩ := hc.ofSlot h b i hsource
      rw [cancelSource, fillSlot_eq hb hi]
      split
      · exact hc
      · rw [setBatch_endHandle]
        have ho := hc.slot b x i slot hb hi
        refine (hc.endHandle_given hg hn (fun c hcb => ?_)
          (hc.not_fetches (by simp [ho]))).fill (by simpa using hb) hi ?_
        · cases ho.symm.trans hcb
        · rw [ending?_endHandle_self s _ (hc.lt_length ho), hn]
          exact Option.some_ne_none _
    | alone =>
      refine hs.of_consistent (connection_endHandle ..) fun L T hc => ?_
      refine hc.endHandle_given hg hn (fun b => hc.alone h b hsource) fun hf => ?_
      -- a step that waits for a page is given up together with its request
      obtain ⟨-, t, ht⟩ := hc.pending_of_fetches hf
      cases hsource.symm.trans ht
    | run b => exact hs.cancelRun hg hn hsource
  · exact hs

/-! ## The connection -/

theorem setBuffered (hs : Holds terms owners [] s) (on : Bool) :
    Holds terms owners [] (s.setBuffered on) := by
  obtain ⟨L, T, hv, hc⟩ := hs
  cases on with
  | true => exact ⟨L, T, hv.enterBuffer, hc.congr rfl rfl rfl⟩
  | false => exact ⟨L, T, hv.leaveBuffer, hc.congr rfl rfl rfl⟩

theorem receive (hs : Holds terms owners [] s) (piece : Bytes) :
    Holds terms owners [] (s.receive piece) :=
  hs.happen (Connection.reports_receive piece) fun _ => Connection.due_followAll _

theorem endClosers (hs : Holds terms owners [] s) : Holds terms owners [] s.endClosers := by
  have hall (ps : List (HandleId × Ending)) (s : Session) (hs : Holds terms owners [] s)
      (hp : ∀ p ∈ ps, owners[p.1]? = some .other) :
      Holds terms owners [] (ps.foldl (fun s p => s.endHandle p.1 p.2) s) := by
    induction ps generalizing s with
    | nil => exact hs
    | cons p ps ih =>
      exact ih _ (hs.endHandle_other (hp p List.mem_cons_self) p.2)
        fun q hq => hp q (List.mem_cons_of_mem p hq)
  obtain ⟨L, T, hv, hc⟩ := hs
  exact hall s.closers { s with closers := [] }
    ⟨L, T, hv.congr rfl, hc.withClosers (by simp)⟩ hc.closer

theorem lose (hs : Holds terms owners [] s) (e : Option Error) :
    Holds terms owners [] (s.lose e) :=
  (hs.happen (Connection.reports_lose e) fun _ => Connection.due_followAll _).endClosers

theorem close (hs : Holds terms owners [] s) : Holds terms owners [] s.close := by
  obtain ⟨L, T, hv, hc⟩ := hs
  exact ⟨L, T, hv.mapConnection (fun c => by rw [Connection.close_frame])
    fun c => by rw [Connection.close_frame], hc.congr rfl rfl rfl⟩

theorem awaitClosed (hs : Holds terms owners [] s) (v : Value) :
    Holds terms (owners ++ [.other]) [] (s.awaitClosed v) := by
  unfold Session.awaitClosed
  split
  · refine hs.addAlone.of_consistent rfl fun L T hc => ?_
    have ho := hs.getElem?_owners .other
    refine hc.withClosers fun p hp => ?_
    rcases List.mem_append.1 hp with hp | hp
    · exact hc.closer p hp
    · rwa [List.mem_singleton.1 hp]
  · exact hs.addEnded _

/-! ## Every act -/

/-- Every act but a step makes no handle of a step. -/
theorem act_of_step? (hs : Holds terms owners [] s) {a : Act}
    (hg : ∀ h, a = .cancel h → terms.given h) (ha : a.step? = none) :
    HoldsMore terms owners (s.act a) := by
  cases a with
  | call method args named => exact hs.call method args named
  | execute name args => exact hs.sendFor name args (fun _ => rfl) false
  | select db => exact hs.select db
  | step => cases ha
  | closeCursor i => exact same (hs.closeCursor i)
  | newBatch transactional => exact same (hs.newBatch transactional)
  | enqueue b method args named => exact hs.enqueue b method args named
  | run b collectsErrors => exact hs.run b collectsErrors
  | cancel h => exact same (hs.cancel (hg h rfl))
  | setBuffered on => exact same (hs.setBuffered on)
  | receive piece => exact same (hs.receive piece)
  | lose e => exact same (hs.lose e)
  | close => exact same hs.close
  | awaitClosed v => exact one (hs.awaitClosed v) rfl

/-- Every act keeps the invariant, as long as the holders of the handles in `terms.given` only give
theirs up. -/
theorem act (hs : Holds terms owners [] s) {a : Act} (hg : ∀ h, a = .cancel h → terms.given h) :
    ∃ more, Holds terms (owners ++ more) [] (s.act a) := by
  cases ha : a.step? with
  | none =>
    obtain ⟨more, -, hs⟩ := hs.act_of_step? hg ha
    exact ⟨more, hs⟩
  | some =>
    cases a with
    | step i step => exact ⟨_, hs.step i step⟩
    | _ => cases ha

theorem after (hs : Holds terms owners [] s) (acts : List Act)
    (hg : ∀ h, .cancel h ∈ acts → terms.given h) :
    ∃ more, Holds terms (owners ++ more) [] (s.after acts) := by
  induction acts generalizing owners s with
  | nil => exact ⟨[], by rwa [List.append_nil]⟩
  | cons a acts ih =>
    obtain ⟨more, hs⟩ := hs.act fun h ha => hg h (ha ▸ List.mem_cons_self)
    obtain ⟨others, hs⟩ := ih hs fun h ha => hg h (List.mem_cons_of_mem a ha)
    exact ⟨more ++ others, by rwa [← List.append_assoc]⟩

end Holds

/-- At the beginning nothing was told to anybody. -/
theorem holds_connected (given : HandleId → Prop) (address : Value × Value) (timeout : Timeout) :
    Holds (.ofGiven given) [] [] (.connected address timeout) := by
  refine ⟨_, _, View.connected address timeout, ?_⟩
  exact ⟨rfl, by simp, by simp, by simp [source?, connected, empty],
    by simp [source?, connected, empty],
    by simp, by simp, by simp, by simp, by simp [connected, empty], by simp [connected, empty],
    by simp [connected, empty], by simp [connected, empty], by simp [connected, empty],
    by simp [connected, empty], fun _ _ h => h.elim⟩

/-- Handles and batches agree with what they were told, in every run. -/
theorem exists_holds (given : HandleId → Prop) (address : Value × Value) (timeout : Timeout)
    (acts : List Act) (hg : ∀ h, .cancel h ∈ acts → given h) :
    ∃ owners, Holds (.ofGiven given) owners [] ((connected address timeout).after acts) := by
  obtain ⟨owners, hs⟩ := (holds_connected given address timeout).after acts hg
  exact ⟨owners, hs⟩

/-- Every handle has its owner, in every run. -/
theorem exists_owners (address : Value × Value) (timeout : Timeout) (acts : List Act) :
    ∃ owners, Holds (.ofGiven fun _ => True) owners [] ((connected address timeout).after acts) :=
  exists_holds _ address timeout acts fun _ _ => trivial

end Session

end SortedSets

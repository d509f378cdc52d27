import SortedSets.Proofs.Session.Handles

/-!
# What stays in a session

Whatever a session does is made of few steps: a command is sent, a batch goes on, or something
changes that is neither the connection nor a batch. A relation between sessions that these steps
keep is kept by every operation.

## Main definitions

* `Batch.Later`, `Batch.Grows`: a batch after notices were told, and after the client did something
* `Session.KeptByTelling`, `Session.Kept`, `Session.KeptByQueueing`: a relation that the steps keep

## Main results

* `Session.KeptByTelling.tellAll`, `Session.KeptByTelling.tellEarly`: telling keeps it
* `Session.Kept.act`, `Session.Kept.act_of_connection`: so does every act
* `Session.kept_grown`, `Session.kept_endingsStay`: batches only grow, and a handle ends once
-/

namespace SortedSets

/-- What stays of a batch that was sent. -/
def Run.key (r : Run) : HandleId × Bool × List Ticket :=
  (r.handle, r.collectsErrors, r.tickets)

/-- A batch after notices were told. -/
structure Batch.Later (x x' : Batch) : Prop where
  transactional_eq : x'.transactional = x.transactional
  spent_eq : x'.spent = x.spent
  claims_eq : x'.slots.map Slot.claim = x.slots.map Slot.claim
  run_eq : x'.run.map Run.key = x.run.map Run.key

/-- A batch after the client did something: more commands may be queued as long as it was not
sent. -/
structure Batch.Grows (x x' : Batch) : Prop where
  transactional_eq : x'.transactional = x.transactional
  claims_prefix : x.slots.map Slot.claim <+: x'.slots.map Slot.claim
  spent : x.spent = true → x'.spent = true ∧ x'.slots.map Slot.claim = x.slots.map Slot.claim
  run : ∀ r, x.run = some r → ∃ r', x'.run = some r' ∧ r'.key = r.key

namespace Batch

theorem Later.refl (x : Batch) : x.Later x := ⟨rfl, rfl, rfl, rfl⟩

theorem Later.trans {x y z : Batch} (h : x.Later y) (h' : y.Later z) : x.Later z :=
  ⟨h'.1.trans h.1, h'.2.trans h.2, h'.3.trans h.3, h'.4.trans h.4⟩

theorem Later.grows {x y : Batch} (h : x.Later y) : x.Grows y where
  transactional_eq := h.transactional_eq
  claims_prefix := h.claims_eq ▸ List.prefix_refl _
  spent hs := ⟨h.spent_eq.trans hs, h.claims_eq⟩
  run r hr := by
    have hk := h.run_eq
    rw [hr, Option.map_some] at hk
    exact Option.map_eq_some_iff.1 hk

theorem Grows.refl (x : Batch) : x.Grows x := (Later.refl x).grows

theorem Grows.trans {x y z : Batch} (h : x.Grows y) (h' : y.Grows z) : x.Grows z where
  transactional_eq := h'.transactional_eq.trans h.transactional_eq
  claims_prefix := h.claims_prefix.trans h'.claims_prefix
  spent hs := by
    obtain ⟨hy, hyc⟩ := h.spent hs
    obtain ⟨hz, hzc⟩ := h'.spent hy
    exact ⟨hz, hzc.trans hyc⟩
  run r hr := by
    obtain ⟨r', hr', hk⟩ := h.run r hr
    obtain ⟨r'', hr'', hk'⟩ := h'.run r' hr'
    exact ⟨r'', hr'', hk'.trans hk⟩

/-- A slot stays in its place. -/
theorem Grows.exists_slot {x y : Batch} (h : x.Grows y) {i : Nat} {slot : Slot}
    (hi : x.slots[i]? = some slot) : ∃ slot', y.slots[i]? = some slot' ∧
      slot'.handle = slot.handle ∧ slot'.command = slot.command := by
  obtain ⟨rest, hrest⟩ := h.claims_prefix
  have hlt := (List.getElem?_eq_some_iff.1 hi).1
  have hm : (y.slots.map Slot.claim)[i]? = some slot.claim := by
    rw [← hrest, List.getElem?_append_left (by rwa [List.length_map]), List.getElem?_map, hi]
    rfl
  rw [List.getElem?_map] at hm
  obtain ⟨slot', hslot', hclaim⟩ := Option.map_eq_some_iff.1 hm
  exact ⟨slot', hslot', congrArg Prod.snd hclaim, congrArg Prod.fst hclaim⟩

end Batch

namespace Session

/-- Handles that have ended stay as they ended. -/
def EndingsStay (s t : Session) : Prop :=
  ∀ (h : HandleId) (e : Ending), s.ending? h = some e → t.ending? h = some e

/-- A relation that sending and telling keep. -/
structure KeptByTelling (R : Session → Session → Prop) : Prop where
  trans : ∀ {s t u}, R s t → R t u → R s u
  inner : ∀ {s t : Session}, t.connection = s.connection → t.batches = s.batches →
    s.EndingsStay t → R s t
  send : ∀ (name : Value) (args : List Value) (l : Listener) (s : Session),
    R s (s.send name args l).1
  later : ∀ {s : Session} {b : BatchId} {x y : Batch}, s.batches[b]? = some x → x.Later y →
    R s (s.setBatch b y)
  close : ∀ s : Session, R s (s.mapConnection Connection.close)

/-- A relation that everything keeps that the client does on its own, but for the commands that it
queues. -/
structure Kept (R : Session → Session → Prop) : Prop extends KeptByTelling R where
  spend : ∀ {s : Session} {b : BatchId} {x : Batch}, s.batches[b]? = some x → x.spent = false →
    R s (s.setBatch b { x with spent := true })
  startRun : ∀ {s : Session} {b : BatchId} {x : Batch}, s.batches[b]? = some x → x.run = none →
    ∀ r : Run, R s (s.setBatch b { x with run := some r })
  newBatch : ∀ (transactional : Bool) (s : Session), R s (s.newBatch transactional)
  setBuffered : ∀ (on : Bool) (s : Session), R s (s.setBuffered on)

/-- A relation that is kept when a command is queued. -/
def KeptByQueueing (R : Session → Session → Prop) : Prop :=
  ∀ {s : Session} {b : BatchId} {x : Batch}, s.batches[b]? = some x → x.spent = false →
    ∀ slot : Slot, R s (s.setBatch b { x with slots := x.slots ++ [slot] })

variable {R : Session → Session → Prop}

namespace KeptByTelling

/-- What changes neither the connection, nor batches, nor handles. -/
theorem congr (k : KeptByTelling R) {s t : Session} (hc : t.connection = s.connection)
    (hb : t.batches = s.batches) (hh : t.handles = s.handles) : R s t :=
  k.inner hc hb fun h e he => by rwa [ending?, hh]

theorem refl (k : KeptByTelling R) (s : Session) : R s s := k.congr rfl rfl rfl

theorem addHandle (k : KeptByTelling R) (source : Source) (s : Session) :
    R s (s.addHandle source) :=
  k.inner rfl rfl fun h _ he => (ending?_addHandle s h source).trans he

theorem addEnded (k : KeptByTelling R) (e : Ending) (s : Session) : R s (s.addEnded e) := by
  refine k.inner rfl rfl fun h a ha => ?_
  rw [ending?_addEnded, if_neg (Nat.ne_of_lt (lt_of_ending? s h ha)), ha]

theorem endHandle (k : KeptByTelling R) (h : HandleId) (e : Ending) (s : Session) :
    R s (s.endHandle h e) :=
  k.inner (connection_endHandle s h e) (batches_endHandle s h e)
    fun _ _ => ending?_endHandle_of_some s h e

theorem setSource (k : KeptByTelling R) (h : HandleId) (source : Source) (s : Session) :
    R s (s.setSource h source) :=
  k.inner (connection_setSource s h source) (batches_setSource s h source)
    fun k _ he => (ending?_setSource s h k source).trans he

theorem setCursor (k : KeptByTelling R) (i : CursorId) (x : Cursor ScanOptions) (s : Session) :
    R s (s.setCursor i x) := by
  rw [setCursor_eq]
  exact k.congr rfl rfl rfl

theorem fillSlot (k : KeptByTelling R) (b : BatchId) (i : Nat) (o : Outcome) (s : Session) :
    R s (s.fillSlot b i o) := by
  have hsame (h : s.fillSlot b i o = s) : R s (s.fillSlot b i o) := h.symm ▸ k.refl s
  cases hx : s.batches[b]? with
  | none => exact hsame (by simp [Session.fillSlot, hx])
  | some x =>
    cases hi : x.slots[i]? with
    | none => exact hsame (by simp [Session.fillSlot, hx, hi])
    | some slot =>
      rw [fillSlot_eq hx hi]
      split
      · exact k.refl s
      · exact k.trans (k.later (y := x.fill i slot) hx ⟨rfl, rfl, claims_fill hi, rfl⟩)
          (k.endHandle _ _ _)

theorem concludeBatch (k : KeptByTelling R) (b : BatchId) (s : Session) :
    R s (s.concludeBatch b) := by
  rcases concludeBatch_cases b s with h | ⟨x, r, e, -, -, h⟩
  · rw [h]
    exact k.refl s
  · rw [h]
    exact k.endHandle ..

theorem countDown (k : KeptByTelling R) (b : BatchId) (s : Session) : R s (s.countDown b) := by
  rcases countDown_cases b s with ⟨h, -⟩ | ⟨x, r, hx, hr, h⟩
  · rw [h]
    exact k.refl s
  · rw [h]
    refine k.trans (k.later (y := { x with
      run := some { r with outstanding := r.outstanding - 1 } }) hx ⟨rfl, rfl, rfl, ?_⟩)
      (k.concludeBatch b _)
    rw [hr]
    rfl

theorem giveUpConnecting (k : KeptByTelling R) (h : HandleId) (e : Error) (s : Session) :
    R s (s.giveUpConnecting h e) := by
  refine k.trans (k.close s) (k.trans (k.setSource h .alone _) ?_)
  unfold Session.giveUpConnecting
  dsimp only
  split
  · exact k.congr rfl rfl rfl
  · exact k.endHandle ..

theorem becomeReady (k : KeptByTelling R) (h : HandleId) (s : Session) : R s (s.becomeReady h) := by
  unfold Session.becomeReady
  split
  · exact k.trans (k.congr (t := { s with ready := true }) rfl rfl rfl) (k.endHandle ..)
  · exact k.refl s

theorem proceed (k : KeptByTelling R) {again : Session → Session} (ha : ∀ s, R s (again s))
    (h : HandleId) (i : CursorId) (p : Progress ScanOptions) (s : Session) :
    R s (s.proceed again h i p) := by
  cases p with
  | ended cursor r => exact k.trans (k.setCursor i cursor s) (k.endHandle ..)
  | fetch cursor => exact k.trans (k.setCursor i cursor s) (ha _)

theorem tellWith (k : KeptByTelling R)
    {again : HandleId → CursorId → Step → Session → Session}
    (ha : ∀ h i step s, R s (again h i step s)) (n : Notice Listener) (s : Session) :
    R s (s.tellWith again n) := by
  obtain ⟨l, o⟩ := n
  -- each kind of listener is told by elementary changes
  cases l with
  | direct | converting | deferred | selecting => exact k.endHandle ..
  | frame b => exact k.countDown b s
  | slot b i => exact k.trans (k.fillSlot b i o s) (k.countDown b _)
  | connecting h =>
    cases o with
    | reply => exact k.becomeReady h s
    | failed e => exact k.giveUpConnecting h e s
    | cancelled => exact k.endHandle ..
  | fetching h i step =>
    simp only [Session.tellWith]
    split
    · exact k.refl s
    · exact k.endHandle ..
    · exact k.proceed (ha h i step) ..
    · exact k.proceed (ha h i step) ..

theorem tellEarly (k : KeptByTelling R) (ns : List (Notice Listener)) (s : Session) :
    R s (s.tellEarly ns) := by
  induction ns generalizing s with
  | nil => exact k.refl s
  | cons n ns ih => exact k.trans (k.tellWith (fun _ _ _ => k.refl) n s) (ih _)

theorem requestPage (k : KeptByTelling R) (h : HandleId) (i : CursorId) (step : Step)
    (s : Session) : R s (s.requestPage h i step) := by
  unfold Session.requestPage
  split
  · exact k.refl s
  · split
    · exact k.proceed (fun s => k.refl s) ..
    · dsimp only
      split
      · exact k.trans (k.send ..) (k.proceed (fun s => k.refl s) ..)
      · exact k.trans (k.send ..) (k.trans (k.setSource ..) (k.tellEarly ..))

theorem tellAll (k : KeptByTelling R) (ns : List (Notice Listener)) (s : Session) :
    R s (s.tellAll ns) := by
  induction ns generalizing s with
  | nil => exact k.refl s
  | cons n ns ih =>
    exact k.trans (k.tellWith (fun h i step s => k.requestPage h i step s) n s) (ih _)

/-- What happens to the connection, and what follows from it. -/
theorem happen (k : KeptByTelling R) {s : Session} {c : Connection Listener}
    (hc : s.connection = some c)
    (f : Connection Listener → Connection Listener × List (Notice Listener)) :
    R { s with connection := some (f c).1 } (s.happen f) := by
  simp only [Session.happen, hc]
  exact k.tellAll ..

theorem happen_of_none (k : KeptByTelling R) {s : Session} (hc : s.connection = none)
    (f : Connection Listener → Connection Listener × List (Notice Listener)) :
    R s (s.happen f) := by
  simp only [Session.happen, hc]
  exact k.refl s

theorem endClosers (k : KeptByTelling R) (s : Session) : R s s.endClosers := by
  have h (ps : List (HandleId × Ending)) (s : Session) :
      R s (ps.foldl (fun s p => s.endHandle p.1 p.2) s) := by
    induction ps generalizing s with
    | nil => exact k.refl s
    | cons p ps ih => exact k.trans (k.endHandle p.1 p.2 s) (ih _)
  exact k.trans (k.congr (t := { s with closers := [] }) rfl rfl rfl) (h s.closers _)

/-! ## Commands -/

theorem sendFor (k : KeptByTelling R) (name : Value) (args : List Value) (l : HandleId → Listener)
    (alone : Bool) (s : Session) : R s (s.sendFor name args l alone).1 := by
  unfold Session.sendFor
  dsimp only
  split
  · exact k.trans (k.send ..) (k.tellEarly ..)
  · next t _ =>
    exact k.trans (k.send name args (l s.nextHandle) s) (k.trans (k.addHandle ..) (k.tellEarly ..))

theorem call (k : KeptByTelling R) (method : String) (args : List Value)
    (named : List (String × Value)) (s : Session) : R s (s.call method args named).1 := by
  unfold Session.call
  split
  · exact k.refl s
  · split
    · exact k.refl s
    · exact k.congr rfl rfl rfl
    · split
      · exact k.sendFor ..
      · exact k.sendFor ..
      · exact k.sendFor ..

theorem select (k : KeptByTelling R) (db : Value) (s : Session) : R s (s.select db) := by
  refine k.trans (k.addHandle .alone s) ?_
  unfold Session.select sendSelect
  dsimp only
  split
  · exact k.endHandle ..
  · split
    · exact k.trans (k.send ..) (k.trans (k.tellEarly ..) (k.endHandle ..))
    · exact k.trans (k.send ..) (k.trans (k.setSource ..) (k.tellEarly ..))

theorem step (k : KeptByTelling R) (i : CursorId) (step : Step) (s : Session) :
    R s (s.step i step) := by
  refine k.trans (k.addHandle .alone s) ?_
  unfold Session.step
  dsimp only
  split
  · exact k.refl _
  · exact k.proceed (fun s => k.requestPage _ i step s) ..

theorem closeCursor (k : KeptByTelling R) (i : CursorId) (s : Session) :
    R s (s.closeCursor i) := by
  unfold Session.closeCursor
  split
  · exact k.refl s
  · exact k.setCursor ..

theorem awaitClosed (k : KeptByTelling R) (v : Value) (s : Session) : R s (s.awaitClosed v) := by
  unfold Session.awaitClosed
  split
  · exact k.trans (k.addHandle .alone s) (k.congr rfl rfl rfl)
  · exact k.addEnded ..

/-! ## A batch that is sent -/

theorem sendFrame (k : KeptByTelling R) (b : BatchId) (w : String) (x : Sending) :
    R x.session (x.frame b w).session := by
  unfold Sending.frame
  split
  · exact k.refl _
  · dsimp only
    split <;> exact k.send ..

theorem sendSlot (k : KeptByTelling R) (b : BatchId) (x : Sending) (i : Nat) (slot : Slot) :
    R x.session (x.slot b i slot).session := by
  unfold Sending.slot
  split
  · exact k.refl _
  · dsimp only
    split
    · exact k.send ..
    · split
      · exact k.send ..
      · exact k.trans (k.send ..) (k.fillSlot ..)

theorem sendSlots (k : KeptByTelling R) (b : BatchId) (i : Nat) (slots : List Slot) (x : Sending) :
    R x.session (Sending.slots b i slots x).session := by
  induction slots generalizing i x with
  | nil => exact k.refl _
  | cons slot slots ih => exact k.trans (k.sendSlot b x i slot) (ih (i + 1) _)

theorem sendAll (k : KeptByTelling R) (b : BatchId) (batch : Batch) (s : Session) :
    R s (Sending.all b batch s).session := by
  unfold Sending.all
  dsimp only
  split
  · exact k.trans (k.sendFrame b "MULTI" ⟨s, [], [], none⟩)
      (k.trans (k.sendSlots b 0 batch.slots _) (k.sendFrame b "EXEC" _))
  · exact k.sendSlots b 0 batch.slots ⟨s, [], [], none⟩

end KeptByTelling

/-! ## Batches -/

/-- Each batch is there, after notices were told. -/
def Later (s t : Session) : Prop :=
  ∀ (b : BatchId) (x : Batch), s.batches[b]? = some x →
    ∃ x', t.batches[b]? = some x' ∧ x.Later x'

/-- A batch that changes takes the place of another one. -/
theorem exists_setBatch {s : Session} {b : BatchId} {x x' : Batch} (hx : s.batches[b]? = some x)
    {P : Batch → Batch → Prop} (hr : ∀ y, P y y) (hp : P x x') (c : BatchId) (y : Batch)
    (hy : s.batches[c]? = some y) : ∃ y', (s.setBatch b x').batches[c]? = some y' ∧ P y y' := by
  by_cases hc : c = b
  · subst hc
    obtain rfl := Option.some.inj (hx.symm.trans hy)
    exact ⟨x', getElem?_setBatch_self s x' hx, hp⟩
  · exact ⟨y, (getElem?_setBatch_of_ne s x' hc).trans hy, hr y⟩

/-- Sending and telling let each batch go on. -/
theorem keptByTelling_later : KeptByTelling Later where
  trans h h' b x hx := by
    obtain ⟨y, hy, hxy⟩ := h b x hx
    obtain ⟨z, hz, hyz⟩ := h' b y hy
    exact ⟨z, hz, hxy.trans hyz⟩
  inner _ hb _ b x hx := ⟨x, hb ▸ hx, .refl x⟩
  send name args l s b x hx := ⟨x, (batches_send s name args l).symm ▸ hx, .refl x⟩
  later hx h := exists_setBatch hx Batch.Later.refl h
  close _ b x hx := ⟨x, hx, .refl x⟩

/-- Only batches that were sent wait for exchanges. -/
def OnlySpentRun (s : Session) : Prop :=
  ∀ (b : BatchId) (x : Batch), s.batches[b]? = some x → x.spent = false → x.run = none

namespace Kept

theorem enqueue (k : Kept R) (hq : KeptByQueueing R) (b : BatchId) (method : String)
    (args : List Value) (named : List (String × Value)) (s : Session) :
    R s (s.enqueue b method args named).1 := by
  unfold Session.enqueue
  split
  · exact k.refl s
  · next x hx =>
    split
    · exact k.refl s
    · next hsp =>
      split
      · exact k.refl s
      · split
        · exact k.refl s
        · exact k.refl s
        · next command _ =>
          exact k.trans (k.addHandle _ s) (hq (s := s.addHandle _) hx (by simpa using hsp) _)

theorem mapBuffer (k : Kept R) (s : Session) :
    R s (s.mapConnection Connection.enterBuffer) ∧ R s (s.mapConnection Connection.leaveBuffer) :=
  ⟨k.setBuffered true s, k.setBuffered false s⟩

/-- A batch that was not sent before is sent. -/
theorem sendBatch (k : Kept R) {b : BatchId} {x : Batch} {s : Session}
    (hx : s.batches[b]? = some x) (hr : x.run = none) (batch : Batch) (h : HandleId)
    (collectsErrors : Bool) : R s (s.sendBatch b batch h collectsErrors) := by
  set sending := Sending.all b batch (s.mapConnection Connection.enterBuffer) with hsending
  have hsent : R s (sending.session.mapConnection Connection.leaveBuffer) :=
    k.trans (k.mapBuffer s).1 (k.trans (k.sendAll b batch _) (k.mapBuffer _).2)
  -- while it is sent, the batch does not run
  obtain ⟨y, hy, hxy⟩ := keptByTelling_later.sendAll b batch
    (s.mapConnection Connection.enterBuffer) b x hx
  have hyr : y.run = none := by
    have hk := hxy.run_eq
    rw [hr, Option.map_none] at hk
    exact Option.map_eq_none_iff.1 hk
  unfold Session.sendBatch
  dsimp only
  rw [← hsending] at hy ⊢
  split
  · exact k.trans hsent (k.trans (k.tellEarly ..) (k.endHandle ..))
  · have hy' : (sending.session.mapConnection Connection.leaveBuffer).batches[b]? = some y := hy
    simp only [hy']
    exact k.trans hsent (k.trans (k.startRun hy' hyr _)
      (k.trans (k.tellEarly ..) (k.concludeBatch ..)))

/-- A batch is sent once. -/
theorem run (k : Kept R) {s : Session} (hs : s.OnlySpentRun) (b : BatchId)
    (collectsErrors : Bool) : R s (s.run b collectsErrors) := by
  unfold Session.run
  split
  · exact k.refl s
  · next x hx =>
    split
    · exact k.addEnded ..
    · next hsp =>
      have hsp : x.spent = false := by simpa using hsp
      -- the batch is spent, has a handle of its own, and is sent, in this order
      have hspend : R s (s.setBatch b { x with spent := true }) := k.spend hx hsp
      have hself := getElem?_setBatch_self s { x with spent := true } hx
      dsimp only
      split
      · exact k.trans hspend (k.addEnded ..)
      · have hadd : R (s.setBatch b { x with spent := true })
            ((s.setBatch b { x with spent := true }).addHandle (.run b)) := k.addHandle ..
        have hself' : ((s.setBatch b { x with spent := true }).addHandle (.run b)).batches[b]? =
            some { x with spent := true } := hself
        exact k.trans hspend (k.trans hadd
          (k.sendBatch hself' (hs b x hx hsp) _ _ _))

/-! ## Giving up -/

theorem cancelRun (k : Kept R)
    (hc : ∀ (s : Session) (c : Connection Listener) (t : Ticket), s.connection = some c →
      R s { s with connection := some (c.cancel t).1 })
    (b : BatchId) (s : Session) : R s (s.cancelRun b) := by
  -- each exchange is given up in turn
  have hall (ts : List Ticket) (s : Session) :
      R s (ts.foldl (fun s t => s.happen (Connection.cancel t)) s) := by
    refine List.foldlRecOn ts _ (k.refl s) fun u hu t _ => k.trans hu ?_
    cases hconn : u.connection with
    | none => exact k.happen_of_none hconn _
    | some c => exact k.trans (hc u c t hconn) (k.happen hconn _)
  unfold Session.cancelRun
  split
  · exact k.refl s
  · next x hx =>
    split
    · exact k.refl s
    · next r hr =>
      refine k.trans (k.later (y := { x with run := some { r with cancelled := true } }) hx
        ⟨rfl, rfl, rfl, ?_⟩) (hall ..)
      rw [hr]
      rfl

theorem cancel (k : Kept R)
    (hc : ∀ (s : Session) (c : Connection Listener) (t : Ticket), s.connection = some c →
      R s { s with connection := some (c.cancel t).1 })
    (h : HandleId) (s : Session) : R s (s.cancel h).1 := by
  unfold Session.cancel
  split
  · next source _ =>
    cases source with
    | exchange t =>
      cases hconn : s.connection with
      | none => exact k.happen_of_none hconn (Connection.cancel t)
      | some c => exact k.trans (hc s c t hconn) (k.happen hconn (Connection.cancel t))
    | slot b i => exact k.fillSlot ..
    | run b => exact k.cancelRun hc b s
    | alone => exact k.endHandle ..
  · exact k.refl s

/-- An act of the client by which it gives nothing up. -/
theorem act (k : Kept R) {s : Session} (hs : s.OnlySpentRun) {a : Act}
    (hq : a.isEnqueue = true → KeptByQueueing R) (ha : a.isOwn = true) : R s (s.act a) := by
  cases a with
  | call method args named => exact k.call method args named s
  | execute name args => exact k.sendFor name args .direct false s
  | select db => exact k.select db s
  | step i step => exact k.step i step s
  | closeCursor i => exact k.closeCursor i s
  | newBatch transactional => exact k.newBatch transactional s
  | enqueue b method args named => exact k.enqueue (hq rfl) b method args named s
  | run b collectsErrors => exact k.run hs b collectsErrors
  | setBuffered on => exact k.setBuffered on s
  | close => exact k.close s
  | awaitClosed v => exact k.awaitClosed v s
  | cancel | receive | lose => cases ha

end Kept

/-- Each batch is there, and perhaps has grown. -/
def Grown (s t : Session) : Prop :=
  ∀ (b : BatchId) (x : Batch), s.batches[b]? = some x →
    ∃ x', t.batches[b]? = some x' ∧ x.Grows x'

theorem Grown.trans {s t u : Session} (h : s.Grown t) (h' : t.Grown u) : s.Grown u := by
  intro b x hx
  obtain ⟨y, hy, hxy⟩ := h b x hx
  obtain ⟨z, hz, hyz⟩ := h' b y hy
  exact ⟨z, hz, hxy.trans hyz⟩

/-- What changes no batch. -/
theorem Grown.of_batches {s t : Session} (h : t.batches = s.batches) : s.Grown t :=
  fun _ x hx => ⟨x, h ▸ hx, .refl x⟩

/-- Everything lets each batch grow. -/
theorem kept_grown : Kept Grown where
  trans h h' := h.trans h'
  inner _ hb _ := .of_batches hb
  send name args l s := .of_batches (batches_send s name args l)
  later hx h := exists_setBatch hx Batch.Grows.refl h.grows
  close _ := .of_batches rfl
  spend hx hs := exists_setBatch hx Batch.Grows.refl
    ⟨rfl, List.prefix_refl _, fun h => absurd h (by simp [hs]), fun r hr => ⟨r, hr, rfl⟩⟩
  startRun hx hr _ := exists_setBatch hx Batch.Grows.refl
    ⟨rfl, List.prefix_refl _, fun h => ⟨h, rfl⟩, fun r h => by cases hr.symm.trans h⟩
  newBatch _ s b x hx := ⟨x, by
    rw [newBatch, List.getElem?_append_left (List.getElem?_eq_some_iff.1 hx).1, hx], .refl x⟩
  setBuffered _ _ := .of_batches rfl

theorem keptByQueueing_grown : KeptByQueueing Grown := by
  intro s b x hx hs slot
  refine exists_setBatch hx Batch.Grows.refl ⟨rfl, ?_, fun h => ?_, fun r hr => ⟨r, hr, rfl⟩⟩
  · rw [List.map_append]
    exact List.prefix_append ..
  · cases hs.symm.trans h

/-- A batch that was sent is spent. -/
theorem spent_run {s : Session} (hs : s.OnlySpentRun) {b : BatchId} {x : Batch}
    (hx : s.batches[b]? = some x) (collectsErrors : Bool) :
    ∃ y, (s.run b collectsErrors).batches[b]? = some y ∧ y.spent = true := by
  cases hsp : x.spent with
  | true => exact ⟨x, by simp [Session.run, hx, hsp, addEnded], hsp⟩
  | false =>
    have hself := getElem?_setBatch_self s { x with spent := true } hx
    -- an empty batch is spent without being sent
    by_cases hne : x.slots.isEmpty = true
    · refine ⟨{ x with spent := true }, ?_, rfl⟩
      simp only [Session.run, hx, hsp, hne]
      exact hself
    · have hself' : ((s.setBatch b { x with spent := true }).addHandle (.run b)).batches[b]? =
          some { x with spent := true } := hself
      obtain ⟨y, hy, hxy⟩ := kept_grown.sendBatch hself' (hs b x hx hsp) { x with spent := true }
        (s.setBatch b { x with spent := true }).nextHandle collectsErrors b _ hself'
      refine ⟨y, ?_, (hxy.spent rfl).1⟩
      simp only [Session.run, hx, hsp, hne]
      exact hy

/-- A handle ends once, whatever is told and done. -/
theorem kept_endingsStay : Kept EndingsStay where
  trans h h' k e he := h' k e (h k e he)
  inner _ _ hs := hs
  send name args l s h _ he := (ending?_send s h name args l).trans he
  later _ _ _ _ he := he
  close _ _ _ he := he
  spend _ _ _ _ he := he
  startRun _ _ _ _ _ he := he
  newBatch _ _ _ _ he := he
  setBuffered _ _ _ _ he := he

/-- What every act keeps, whoever gives something up. -/
theorem Kept.act_of_connection {R : Session → Session → Prop} (k : Kept R) {a : Act}
    (hq : a.isEnqueue = true → KeptByQueueing R)
    (hr : ∀ (s : Session) (c : Connection Listener), R s { s with connection := some c })
    {s : Session} (hs : s.OnlySpentRun) : R s (s.act a) := by
  have hhappen (s : Session) (f : Connection Listener → Connection Listener × List (Notice Listener)) :
      R s (s.happen f) := by
    cases hc : s.connection with
    | none => exact k.happen_of_none hc f
    | some c => exact k.trans (hr s _) (k.happen hc f)
  cases ha : a.isOwn with
  | true => exact k.act hs hq ha
  | false =>
    cases a with
    | cancel h => exact k.cancel (fun s c t _ => hr s _) h s
    | receive piece => exact hhappen s _
    | lose e => exact k.trans (hhappen s _) (k.endClosers _)
    | _ => cases ha

end Session

end SortedSets

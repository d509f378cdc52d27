import SortedSets.Proofs.Session.Writes

/-!
# What steps have delivered

A step delivers a page or an item with the end of its handle. Only a reply brings a delivery, and
only to the step that waits for it: whatever else a session does leaves a cursor where it stands and
delivers nothing to its steps.

## Main definitions

* `Session.delivered?`: what a step has delivered
* `Session.Still`: a cursor stands where it stood, and its steps delivered nothing more
* `Session.Idle`: nothing is due at the connection

## Main results

* `Session.Still.tellWith`: whoever is told of a failure delivers nothing
* `Session.Still.requestPage`, `Session.Still.sendFor`, `Session.Still.run`, `Session.Still.cancel`,
  …: nor do commands that are sent, batches, and what is given up
-/

namespace SortedSets

/-- What the end of a step delivers. -/
def Ending.delivery? : Ending → Option Delivery
  | .result (.page p) => some (.page p)
  | .result (.value v) => some (.item v)
  | _ => none

theorem Ending.delivery?_endingOf (r : Except Error Delivery) :
    (Session.endingOf (r.map Session.deliveryResult)).delivery? = r.toOption := by
  cases r with
  | error e => rfl
  | ok d => cases d <;> rfl

/-- Without a reply nothing is delivered. -/
theorem Outcome.delivery?_ending {o : Outcome} (ho : o.isReply = false)
    (f : Value → Except Error Result) : (o.ending f).delivery? = none := by
  cases o with
  | reply r => cases ho
  | failed | cancelled => rfl

namespace Session

variable {c i : CursorId} {K : List HandleId} {s t u : Session} {h : HandleId} {b : BatchId}

/-- What the step whose handle is `h` has delivered. -/
def delivered? (s : Session) (h : HandleId) : Option Delivery :=
  (s.ending? h).bind Ending.delivery?

/-- The end of a batch delivers nothing. -/
theorem delivery?_batchEnding (s : Session) (x : Batch) (r : Run) :
    (s.batchEnding x r).delivery? = none := by
  unfold batchEnding
  split
  · rfl
  · split
    · rfl
    · split <;> rfl

/-- A step that fails leaves its cursor as it is. -/
theorem proceed_failed_eq {scan : Scan} (hi : s.scans[i]? = some scan)
    (again : Session → Session) (h : HandleId) (step : Step) (e : Error) :
    s.proceed again h i (scan.cursor.resume decodePairs step (.error e)) =
      s.endHandle h (.failed e) :=
  congrArg (endHandle h _) (setCursor_self hi)

/-! ## Nothing is due -/

/-- Nothing is due at the connection. -/
def Idle (s : Session) : Prop :=
  ∀ d, s.connection = some d → d.due = []

theorem Holds.idle {terms : Terms} {owners : List Owner} {ns : List (Notice Listener)}
    (hs : Holds terms owners ns s) : s.Idle :=
  fun _ hd => hs.due hd

theorem Idle.of_connection (hs : s.Idle) (h : t.connection = s.connection) : t.Idle := by
  intro d hd
  exact hs d (h ▸ hd)

theorem Idle.mapConnection (hs : s.Idle) {f : Connection Listener → Connection Listener}
    (hf : ∀ d, (f d).due = d.due) : (s.mapConnection f).Idle := by
  intro d hd
  obtain ⟨d', hd', rfl⟩ := Option.map_eq_some_iff.1 hd
  exact (hf d').trans (hs d' hd')

section Sent

variable (name : Value) (args : List Value) (l : Listener)

theorem Idle.send (hs : s.Idle) : (s.send name args l).1.Idle := by
  unfold Session.send
  split
  · exact hs
  · intro d hd
    obtain rfl := Option.some.inj hd
    exact Connection.due_followAll _

/-- A command that is sent brings nobody a reply. -/
theorem Idle.isReply_send (hs : s.Idle) :
    ∀ n ∈ (s.send name args l).2.1, n.outcome.isReply = false := by
  intro n hn
  unfold Session.send at hn
  split at hn
  · cases hn
  · next d hd => exact Connection.isReply_execute (hs d hd) hn

end Sent

/-! ## Cursors that stand still -/

/-- The cursor `c` stands where it stood, and the steps whose handles are in `K` delivered nothing
more. -/
structure Still (c : CursorId) (K : List HandleId) (s t : Session) : Prop where
  scan_eq : t.scans[c]? = s.scans[c]?
  delivered_eq : ∀ h ∈ K, t.delivered? h = s.delivered? h

namespace Still

theorem trans (h : Still c K s t) (h' : Still c K t u) : Still c K s u where
  scan_eq := h'.scan_eq.trans h.scan_eq
  delivered_eq k hk := (h'.delivered_eq k hk).trans (h.delivered_eq k hk)

theorem of_same (hscan : t.scans[c]? = s.scans[c]?) (hend : ∀ k, t.ending? k = s.ending? k) :
    Still c K s t where
  scan_eq := hscan
  delivered_eq k _ := congrArg (Option.bind · Ending.delivery?) (hend k)

theorem of_handles (hscans : t.scans = s.scans) (hh : t.handles = s.handles) : Still c K s t := by
  refine of_same (by rw [hscans]) fun k => ?_
  rw [ending?, hh, ending?]

theorem refl (s : Session) : Still c K s s := of_handles rfl rfl

/-- What changes first is neither a cursor nor a handle. -/
theorem of_before (h : Still c K t u) (hscans : t.scans = s.scans) (hh : t.handles = s.handles) :
    Still c K s u :=
  (of_handles hscans hh).trans h

/-- A handle ends that is none of these steps, or it ends without a delivery. -/
theorem endHandle {e : Ending} (he : h ∉ K ∨ e.delivery? = none) :
    Still c K s (s.endHandle h e) where
  scan_eq := by rw [scans_endHandle]
  delivered_eq k hk := by
    rw [delivered?, delivered?, ending?_endHandle]
    split
    · next hkh =>
      obtain ⟨rfl, -⟩ := hkh
      have he := he.resolve_left fun hn => hn hk
      cases s.ending? k with
      | none => exact he
      | some a => rfl
    · rfl

theorem addHandle (source : Source) : Still c K s (s.addHandle source) :=
  of_same rfl fun k => ending?_addHandle s k source

theorem addEnded {e : Ending} (he : s.nextHandle ∉ K ∨ e.delivery? = none) :
    Still c K s (s.addEnded e) where
  scan_eq := rfl
  delivered_eq k hk := by
    rw [delivered?, delivered?, ending?_addEnded]
    split
    · next hlen =>
      subst hlen
      rw [ending?_length]
      exact he.resolve_left fun hn => hn hk
    · rfl

theorem setSource (h : HandleId) (source : Source) : Still c K s (s.setSource h source) := by
  refine of_same ?_ fun k => ending?_setSource s h k source
  rw [setSource_eq]

theorem send (name : Value) (args : List Value) (l : Listener) :
    Still c K s (s.send name args l).1 := by
  refine of_handles ?_ (handles_send ..)
  rw [send_frame]

/-! ### Batches -/

theorem concludeBatch (b : BatchId) : Still c K s (s.concludeBatch b) := by
  unfold Session.concludeBatch
  split
  · split
    · split
      · exact endHandle (.inr (delivery?_batchEnding ..))
      · exact refl s
    · exact refl s
  · exact refl s

theorem countDown (b : BatchId) : Still c K s (s.countDown b) := by
  rcases countDown_cases b s with ⟨h, -⟩ | ⟨x, r, -, -, h⟩
  · rw [h]
    exact refl s
  · rw [h]
    exact (concludeBatch b).of_before rfl rfl

/-- A slot is filled that is none of these steps, or it is filled without a reply. -/
theorem fillSlot {k : Nat} {o : Outcome} (ho : o.isReply = false ∨
    ∀ x slot, s.batches[b]? = some x → x.slots[k]? = some slot → slot.handle ∉ K) :
    Still c K s (s.fillSlot b k o) := by
  unfold Session.fillSlot
  split
  · exact refl s
  · next x hx =>
    split
    · exact refl s
    · next slot hk =>
      split
      · exact refl s
      · refine of_before (endHandle ?_) rfl rfl
        rcases ho with ho | ho
        · exact .inr (Outcome.delivery?_ending ho _)
        · exact .inl (ho x slot hx hk)

/-! ### Outcomes -/

theorem proceed_failed {scan : Scan} (hi : s.scans[i]? = some scan)
    (again : Session → Session) (h : HandleId) (step : Step) (e : Error) :
    Still c K s (s.proceed again h i (scan.cursor.resume decodePairs step (.error e))) := by
  rw [proceed_failed_eq hi]
  exact endHandle (.inr rfl)

/-- Whoever is told of a failure, or that something was given up, delivers nothing. -/
theorem tellWith {n : Notice Listener} (hn : n.outcome.isReply = false)
    (again : HandleId → CursorId → Step → Session → Session) :
    Still c K s (s.tellWith again n) := by
  obtain ⟨l, o⟩ := n
  have hend {h : HandleId} (f : Value → Except Error Result) :
      Still c K s (s.endHandle h (o.ending f)) :=
    endHandle (.inr (Outcome.delivery?_ending hn f))
  cases l with
  | direct | converting | deferred | selecting => exact hend _
  | frame b => exact countDown b
  | slot b k => exact (fillSlot (.inl hn)).trans (countDown b)
  | connecting h =>
    cases o with
    | reply r => cases hn
    | failed e =>
      -- the handle may also end later, with the transport
      unfold Session.tellWith giveUpConnecting
      dsimp only
      refine trans (t := (s.mapConnection Connection.close).setSource h .alone) ?_ ?_
      · exact (setSource h .alone).of_before rfl rfl
      · split
        · exact of_handles rfl rfl
        · exact endHandle (.inr rfl)
    | cancelled => exact endHandle (.inr rfl)
  | fetching h i step =>
    unfold Session.tellWith
    dsimp only
    split
    · exact refl s
    · exact endHandle (.inr rfl)
    · next scan e hi => exact proceed_failed hi _ h step e
    · cases hn

/-- Outcomes without a reply are told one after the other. -/
theorem foldl_tellWith {ns : List (Notice Listener)} (hn : ∀ n ∈ ns, n.outcome.isReply = false)
    (again : HandleId → CursorId → Step → Session → Session) :
    Still c K s (ns.foldl (fun s n => s.tellWith again n) s) := by
  induction ns generalizing s with
  | nil => exact refl s
  | cons n ns ih =>
    exact (tellWith (hn n List.mem_cons_self) again).trans
      (ih fun m hm => hn m (List.mem_cons_of_mem n hm))

theorem tellEarly {ns : List (Notice Listener)} (hn : ∀ n ∈ ns, n.outcome.isReply = false) :
    Still c K s (s.tellEarly ns) :=
  foldl_tellWith hn _

/-- Something happens to the connection that brings nobody a reply. -/
theorem happen {f : Connection Listener → Connection Listener × List (Notice Listener)}
    (hf : ∀ d, s.connection = some d → ∀ n ∈ (f d).2, n.outcome.isReply = false) :
    Still c K s (s.happen f) := by
  unfold Session.happen
  split
  · exact refl s
  · next d hd => exact (foldl_tellWith (hf d hd) _).of_before rfl rfl

/-! ### Commands -/

/-- A page is asked for, be it for the same cursor. -/
theorem requestPage (hs : s.Idle) (h : HandleId) (i : CursorId) (step : Step) :
    Still c K s (s.requestPage h i step) := by
  unfold Session.requestPage
  split
  · exact refl s
  · next scan hi =>
    split
    · exact proceed_failed hi id h step _
    · next command _ =>
      -- sending brings nobody a reply, and so delivers nothing
      have hearly := hs.isReply_send (.bytes command.name) command.args (.fetching h i step)
      have hsent : Still c K s
          (s.send (.bytes command.name) command.args (.fetching h i step)).1 := send ..
      dsimp only
      split
      · refine hsent.trans (proceed_failed ?_ id h step _)
        rw [send_frame]
        exact hi
      · exact hsent.trans ((setSource ..).trans (tellEarly hearly))

theorem sendFor (hs : s.Idle) (name : Value) (args : List Value) (l : HandleId → Listener)
    (alone : Bool) : Still c K s (s.sendFor name args l alone).1 := by
  have hearly := hs.isReply_send name args (l s.nextHandle)
  have hsent : Still c K s (s.send name args (l s.nextHandle)).1 := send ..
  unfold Session.sendFor
  dsimp only
  split
  · exact hsent.trans (tellEarly hearly)
  · exact hsent.trans ((addHandle _).trans (tellEarly hearly))

theorem select (hs : s.Idle) (db : Value) : Still c K s (s.select db) := by
  refine (addHandle .alone).trans ?_
  unfold Session.select sendSelect
  dsimp only
  split
  · exact endHandle (.inr rfl)
  · have hidle : (s.addHandle .alone).Idle := hs
    have hearly := hidle.isReply_send (word "SELECT") [db] (.selecting s.nextHandle)
    have hsent : Still c K (s.addHandle .alone)
        ((s.addHandle .alone).send (word "SELECT") [db] (.selecting s.nextHandle)).1 := send ..
    split
    · exact hsent.trans ((tellEarly hearly).trans (endHandle (.inr rfl)))
    · exact hsent.trans ((setSource ..).trans (tellEarly hearly))

theorem enqueue (b : BatchId) (method : String) (args : List Value)
    (named : List (String × Value)) : Still c K s (s.enqueue b method args named).1 := by
  rcases enqueue_cases b method args named s with ⟨e, h⟩ | ⟨x, command, source, -, -, h⟩
  · rw [h]
    exact refl s
  · rw [h]
    exact (addHandle source).trans (of_handles rfl rfl)

end Still

/-! ### Batches that are sent -/

/-- Commands of a batch were handed over: nothing was delivered, and what is to be told is no
reply. -/
structure Sending.Still (c : CursorId) (K : List HandleId) (s : Session) (x : Sending) : Prop where
  still : Session.Still c K s x.session
  idle : x.session.Idle
  isReply : ∀ n ∈ x.early, n.outcome.isReply = false

namespace Sending.Still

variable {x : Sending}

/-- One more command is handed over. -/
theorem send (hx : x.Still c K s) (name : Value) (args : List Value) (l : Listener) :
    Session.Still c K s (x.session.send name args l).1 ∧ (x.session.send name args l).1.Idle ∧
      ∀ n ∈ x.early ++ (x.session.send name args l).2.1, n.outcome.isReply = false := by
  refine ⟨hx.still.trans (.send name args l), hx.idle.send name args l, ?_⟩
  intro n hn
  rcases List.mem_append.1 hn with hn | hn
  · exact hx.isReply n hn
  · exact hx.idle.isReply_send name args l n hn

theorem frame (hx : x.Still c K s) (b : BatchId) (w : String) : (x.frame b w).Still c K s := by
  obtain ⟨hsent, hidle, hearly⟩ := hx.send (.text (.ofString w)) [] (.frame b)
  unfold Sending.frame
  split
  · exact hx
  · dsimp only
    split
    · exact ⟨hsent, hidle, hearly⟩
    · exact ⟨hsent, hidle, hearly⟩

theorem slot (hx : x.Still c K s) (b : BatchId) (k : Nat) (slot : Slot) :
    (x.slot b k slot).Still c K s := by
  obtain ⟨hsent, hidle, hearly⟩ :=
    hx.send (.bytes slot.command.name) slot.command.args (.slot b k)
  unfold Sending.slot
  split
  · exact hx
  · dsimp only
    split
    · exact ⟨hsent, hidle, hearly⟩
    · split
      · exact ⟨hsent, hidle, hearly⟩
      · -- the slot has the error of its command
        exact ⟨hsent.trans (.fillSlot (.inl rfl)), hidle.of_connection (connection_fillSlot ..),
          hearly⟩

theorem slots (hx : x.Still c K s) (b : BatchId) (k : Nat) (slots : List Slot) :
    (Sending.slots b k slots x).Still c K s := by
  induction slots generalizing k x with
  | nil => exact hx
  | cons slot rest ih => exact ih (hx.slot b k slot) (k + 1)

theorem all (hs : s.Idle) (b : BatchId) (x : Batch) : (Sending.all b x s).Still c K s := by
  have hstart : (Sending.mk s [] [] none).Still c K s := ⟨.refl s, hs, by simp⟩
  unfold Sending.all
  dsimp only
  split
  · exact ((hstart.frame b "MULTI").slots b 0 x.slots).frame b "EXEC"
  · exact hstart.slots b 0 x.slots

end Sending.Still

namespace Still

theorem sendBatch (hs : s.Idle) (b : BatchId) (x : Batch) (h : HandleId) (collectsErrors : Bool) :
    Still c K s (s.sendBatch b x h collectsErrors) := by
  have hentered : Still c K s (s.mapConnection Connection.enterBuffer) := of_handles rfl rfl
  have hidle : (s.mapConnection Connection.enterBuffer).Idle := hs.mapConnection fun _ => rfl
  have hall := Sending.Still.all (c := c) (K := K) hidle b x
  have hsent : Still c K s ((Sending.all b x (s.mapConnection Connection.enterBuffer)).session
      |>.mapConnection Connection.leaveBuffer) :=
    hentered.trans (hall.still.trans (of_handles rfl rfl))
  unfold Session.sendBatch
  dsimp only
  split
  · exact hsent.trans ((tellEarly hall.isReply).trans (endHandle (.inr rfl)))
  · split
    · exact hsent
    · exact hsent.trans (((tellEarly hall.isReply).trans (concludeBatch b)).of_before rfl rfl)

theorem run (hs : s.Idle) (b : BatchId) (collectsErrors : Bool) :
    Still c K s (s.run b collectsErrors) := by
  unfold Session.run
  split
  · exact refl s
  · next x _ =>
    split
    · exact addEnded (.inr rfl)
    · have hspent : Still c K s (s.setBatch b { x with spent := true }) := of_handles rfl rfl
      dsimp only
      split
      · exact hspent.trans (addEnded (.inr rfl))
      · have hidle : ((s.setBatch b { x with spent := true }).addHandle (.run b)).Idle := hs
        exact hspent.trans ((addHandle (.run b)).trans (sendBatch hidle ..))

/-! ### Giving up -/

theorem happen_cancel (hs : s.Idle) (t : Ticket) :
    Still c K s (s.happen (Connection.cancel t)) ∧ (s.happen (Connection.cancel t)).Idle := by
  constructor
  · refine happen fun d hd n hn => ?_
    rw [Connection.outcome_cancel (hs d hd) hn]
    rfl
  · cases hc : s.connection with
    | none => simpa only [Session.happen, hc] using hs
    | some d =>
      intro d' hd'
      rw [connection_happen_cancel hc (hs d hc)] at hd'
      obtain rfl := Option.some.inj hd'
      exact Connection.due_followAll _

theorem cancelRun (hs : s.Idle) (b : BatchId) : Still c K s (s.cancelRun b) := by
  -- each exchange is given up in turn, and nothing is due after it
  have hall (ts : List Ticket) {s : Session} (hs : s.Idle) :
      Still c K s (ts.foldl (fun s t => s.happen (Connection.cancel t)) s) := by
    refine (List.foldlRecOn (motive := fun u => Still c K s u ∧ u.Idle) ts _ ⟨refl s, hs⟩ ?_).1
    rintro u ⟨hu, hidle⟩ t -
    obtain ⟨hstill, hidle⟩ := happen_cancel (c := c) (K := K) hidle t
    exact ⟨hu.trans hstill, hidle⟩
  unfold Session.cancelRun
  split
  · exact refl s
  · next x _ =>
    split
    · exact refl s
    · next r _ =>
      have hmark : Still c K s
          (s.setBatch b { x with run := some { r with cancelled := true } }) := of_handles rfl rfl
      exact hmark.trans (hall r.tickets hs)

/-- Whatever is given up, no step delivers anything. -/
theorem cancel (hs : s.Idle) (h : HandleId) : Still c K s (s.cancel h).1 := by
  unfold Session.cancel
  split
  · next source _ =>
    cases source with
    | exchange t => exact (happen_cancel hs t).1
    | slot b k => exact fillSlot (.inl rfl)
    | run b => exact cancelRun hs b
    | alone => exact endHandle (.inr rfl)
  · exact refl s

/-! ### The connection -/

/-- The transport is lost. The handles that wait for its end are none of these steps. -/
theorem lose (hs : s.Idle) {e : Option Error}
    (hclosers : ∀ p ∈ (s.happen (Connection.lose e)).closers, p.1 ∉ K) :
    Still c K s (s.lose e) := by
  have hends (ps : List (HandleId × Ending)) (s : Session) (hp : ∀ p ∈ ps, p.1 ∉ K) :
      Still c K s (ps.foldl (fun s p => s.endHandle p.1 p.2) s) := by
    induction ps generalizing s with
    | nil => exact refl s
    | cons p ps ih =>
      exact (endHandle (.inl (hp p List.mem_cons_self))).trans
        (ih _ fun q hq => hp q (List.mem_cons_of_mem p hq))
  refine (happen (f := Connection.lose e) fun d hd n hn => ?_).trans ?_
  · exact Connection.isReply_lose (hs d hd) hn
  · exact (hends _ _ hclosers).of_before rfl rfl

theorem awaitClosed (hK : s.nextHandle ∉ K) (v : Value) : Still c K s (s.awaitClosed v) := by
  unfold Session.awaitClosed
  split
  · exact (addHandle .alone).trans (of_handles rfl rfl)
  · exact addEnded (.inl hK)

end Still

end Session

end SortedSets

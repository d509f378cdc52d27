import SortedSets.Proofs.Session.Sending

/-!
# Batches that are sent

When all commands of a batch were handed over, or the sending was broken off, their bytes are
written and what they brought about at once is told. From then on the batch counts its exchanges and
ends with the last of them. A batch whose sending was broken off has ended already, and the handles
of the commands that were not reached stay as they are.

## Main definitions

* `Session.Launched`: the session after a batch was sent

## Main results

* `Session.Holds.launched`: a batch is sent
-/

namespace SortedSets

namespace Session

variable {terms : Terms} {owners : List Owner} {s : Session} {b : BatchId} {h : HandleId}

theorem ending?_length (s : Session) : s.ending? s.handles.length = none := by
  simp [ending?]

/-- The session `t` after the batch `x` was sent over the connection `c` for the handle `h`; the
sending reached the slots before `j`. -/
structure Launched (terms : Terms) (owners : List Owner) (b : BatchId) (x : Batch) (h : HandleId)
    (collectsErrors : Bool) (c : Connection Listener) (j : Nat) (t : Session) : Prop where
  holds : Holds (terms.strand b j x.slots.length) owners [] t
  connection : t.connection = some (c.enterBuffer.executeAll (x.row b c)).leaveBuffer
  failed : ∀ e, x.failure? c = some e → t.ending? h = some (.failed e)
  counts : x.failure? c = none → ∃ (y : Batch) (r : Run), t.batches[b]? = some y ∧
    y.spent = true ∧ y.slots.map Slot.claim = x.slots.map Slot.claim ∧ y.run = some r ∧
      r.key = (h, collectsErrors, List.range' c.exchanges.length (x.row b c).length)
  /-- A slot that was reached and is pending waits for its exchange. -/
  reached : ∀ (i : Nat) (slot : Slot), i < j → x.slots[i]? = some slot →
    t.ending? slot.handle = none →
      ∃ u, (c.enterBuffer.executeAll (x.row b c)).leaveBuffer.listener? u = some (.slot b i)

namespace Holds

/-- The handle of a batch that does not count yet ends. -/
theorem endHandle_sending (hs : Holds terms owners [] s) {b : BatchId} {h : HandleId}
    (ho : owners[h]? = some (.batch b)) (hrun : ∀ x : Batch, s.batches[b]? = some x → x.run = none)
    (e : Ending) : Holds terms owners [] (s.endHandle h e) :=
  hs.of_consistent (connection_endHandle s h e) fun _ _ hc =>
    hc.endHandle_of_not_relied ho (fun hr => by
      obtain ⟨x, hx, hr⟩ := hr
      exact hr (hrun x hx)) (hc.not_fetches (by simp [ho])) e

theorem concludeBatch (hs : Holds terms owners [] s) (b : BatchId) :
    Holds terms owners [] (s.concludeBatch b) :=
  hs.of_consistent connection_concludeBatch fun _ _ hc => hc.concludeBatch b

end Holds

namespace Sending

variable {slots : List Slot} {j : Nat} {listener? : Ticket → Option Listener}
  {told? : Ticket → Option Outcome} {x : Sending}

/-- The bytes are written. The handles of the places that were not reached are pending, and nobody
listens for them. -/
theorem SoundFor.leave (hx : x.SoundFor terms owners b slots h j listener? told?) :
    View listener? told? (x.early ++ []) (x.session.mapConnection Connection.leaveBuffer) ∧
      Consistent (terms.strand b j slots.length) owners listener? told? none
        (x.session.mapConnection Connection.leaveBuffer) := by
  obtain ⟨z, hz, hzsp, -, -, hsame⟩ := hx.batch
  have hc : Consistent terms owners listener? told? none
      (x.session.mapConnection Connection.leaveBuffer) := hx.consistent.congr rfl rfl rfl
  refine ⟨by rw [List.append_nil]; exact hx.view.leaveBuffer, hc.restate rfl ?_⟩
  rintro d i (hd | ⟨rfl, hji, hi⟩)
  · exact hc.stranded d i hd
  · have hslot : slots[i]? = some slots[i] := List.getElem?_eq_getElem hi
    obtain ⟨hnone, hk⟩ := hx.rest i _ hji hslot
    exact ⟨z, slots[i], hz, (hsame i hji).trans hslot, hzsp, hnone, hk⟩

/-- A sending that was broken off: the batch never counts, and its handle has failed. -/
theorem SoundFor.abort (hx : x.SoundFor terms owners b slots h j listener? told?) {s : Session}
    (hs : s = x.session.mapConnection Connection.leaveBuffer) (e : Error) :
    Holds (terms.strand b j slots.length) owners [] ((s.tellEarly x.early).endHandle h (.failed e)) ∧
      ((s.tellEarly x.early).endHandle h (.failed e)).ending? h = some (.failed e) ∧
      ((s.tellEarly x.early).endHandle h (.failed e)).connection = s.connection := by
  obtain ⟨hv, hc⟩ := hx.leave
  rw [← hs] at hv hc
  have hholds : Holds (terms.strand b j slots.length) owners (x.early ++ []) s :=
    ⟨listener?, told?, hv, hc⟩
  have htold := hholds.tellEarly
  obtain ⟨z, hz, -, hzrun, -, -⟩ := hx.batch
  have hsz : s.batches[b]? = some z := by
    rw [hs]
    exact hz
  -- the batch does not count, so that its handle ends by the failure only
  have hidle (w : Batch) (hw : s.batches[b]? = some w) : w.run = none := by
    obtain rfl := Option.some.inj (hsz.symm.trans hw)
    exact hzrun
  refine ⟨htold.endHandle_sending hx.owner (fun w hw => ?_) _, ?_, ?_⟩
  · obtain ⟨w', hw', hlater⟩ := keptByTelling_later.tellEarly x.early s b z hsz
    obtain rfl := Option.some.inj (hw.symm.trans hw')
    simpa [hzrun] using hlater.run_eq
  · have hlt : h < (s.tellEarly x.early).handles.length := by
      obtain ⟨L, T, -, hc⟩ := htold
      exact hc.lt_length hx.owner
    have hpending : s.ending? h = none := by
      rw [hs]
      exact hx.pending
    rw [ending?_endHandle_self _ _ hlt, hholds.ending?_tellEarly hx.owner hidle, hpending]
    rfl
  · rw [connection_endHandle, hholds.connection_tellEarly]

/-- A sending that reached all places: the batch counts its exchanges. -/
theorem SoundFor.startRun (hx : x.SoundFor terms owners b slots h j listener? told?) {s : Session}
    (hs : s = x.session.mapConnection Connection.leaveBuffer) (hj : slots.length ≤ j)
    (collectsErrors : Bool) {w : Batch} (hw : s.batches[b]? = some w) {t : Session}
    (ht : t = ((s.setBatch b { w with
      run := some ⟨h, collectsErrors, x.tickets, x.tickets.length, false⟩ }).tellEarly
        x.early).concludeBatch b) :
    Holds (terms.strand b j slots.length) owners [] t ∧ t.connection = s.connection ∧
      ∃ (y : Batch) (r : Run), t.batches[b]? = some y ∧ y.spent = true ∧
        y.slots.map Slot.claim = slots.map Slot.claim ∧ y.run = some r ∧
          r.key = (h, collectsErrors, x.tickets) := by
  obtain ⟨hv, hc⟩ := hx.leave
  rw [← hs] at hv hc
  obtain ⟨z, hz, hzsp, -, hclaims, -⟩ := hx.batch
  have hsz : s.batches[b]? = some z := by
    rw [hs]
    exact hz
  obtain rfl := Option.some.inj (hsz.symm.trans hw)
  have hpending : s.ending? h = none := by
    rw [hs]
    exact hx.pending
  have hrun := hc.startRun hsz hzsp hx.owner hpending collectsErrors hx.nodup hx.mem_tickets
    hx.untold fun i slot hi hp => by
      -- its place among the commands that were sent
      obtain ⟨slot', hslot', hh, -⟩ := exists_of_claims hclaims hi
      have hlt := Nat.lt_of_lt_of_le (List.getElem?_eq_some_iff.1 hslot').1 hj
      rw [hs] at hp
      exact hx.sent i slot' hlt hslot' (by rw [hh]; exact hp)
  have hholds : Holds (terms.strand b j slots.length) owners (x.early ++ []) (s.setBatch b { z with
      run := some ⟨h, collectsErrors, x.tickets, x.tickets.length, false⟩ }) :=
    ⟨listener?, told?, hv.congr (connection_setBatch ..), hrun⟩
  rw [ht]
  refine ⟨hholds.tellEarly.concludeBatch b, ?_, ?_⟩
  · rw [connection_concludeBatch, hholds.connection_tellEarly, connection_setBatch]
  · -- telling leaves the run what it is
    obtain ⟨y, hy, hlater⟩ := keptByTelling_later.tellEarly x.early _ b _
      (getElem?_setBatch_self s { z with
        run := some ⟨h, collectsErrors, x.tickets, x.tickets.length, false⟩ } hsz)
    obtain ⟨r, hr, hkey⟩ := Option.map_eq_some_iff.1 hlater.run_eq
    exact ⟨y, r, by rwa [batches_concludeBatch], hlater.spent_eq.trans hzsp,
      hlater.claims_eq.trans hclaims, hr, hkey⟩

/-- Commands are gathered from here on. -/
theorem Sound.enterBuffer {i : Nat} {s : Session}
    (hs : (Sending.mk s [] [] none).Sound terms owners b slots h i) :
    (Sending.mk (s.mapConnection Connection.enterBuffer) [] [] none).Sound terms owners b slots h
      i := by
  obtain ⟨L, T, hs⟩ := hs
  exact ⟨L, T, { hs with
    view := hs.view.enterBuffer
    consistent := hs.consistent.congr rfl rfl rfl }⟩

end Sending

namespace Holds

/-- A batch is sent for a handle of its own. -/
theorem launched_sendBatch {y : Batch} {c : Connection Listener}
    (hs : (Sending.mk s [] [] none).Sound terms owners b y.slots h 0) (hconn : s.connection = some c)
    (collectsErrors : Bool) : ∃ j, y.slots.drop j = y.unreached c ∧
      Launched terms owners b y h collectsErrors c j (s.sendBatch b y h collectsErrors) := by
  have hstart := hs.enterBuffer
  have hbuffer : (s.mapConnection Connection.enterBuffer).connection = some c.enterBuffer := by
    rw [mapConnection, hconn]
    rfl
  have hopen : c.enterBuffer.isClosed = c.isClosed := rfl
  obtain ⟨hsent, htickets, hfailure⟩ : _ ∧ _ ∧ _ := by
    obtain ⟨L, T, hfor⟩ := hstart
    exact Sending.all_eq hbuffer (hfor.view.due hbuffer) (b := b) (x := y) hfor.verb
  obtain ⟨j, hj, L, T, hall⟩ := Sending.sound_all hstart hbuffer
  rw [Batch.row_congr hopen] at hsent htickets
  rw [Batch.failure?_congr hopen] at hfailure
  rw [Batch.unreached_congr hopen] at hj
  refine ⟨j, hj, ?_⟩
  set x := Sending.all b y (s.mapConnection Connection.enterBuffer) with hx
  set left := x.session.mapConnection Connection.leaveBuffer with hleft
  have hconn' : left.connection = some (c.enterBuffer.executeAll (y.row b c)).leaveBuffer := by
    rw [hleft, mapConnection, hsent]
    rfl
  -- whatever ends afterwards, a pending handle waits for an exchange
  have hreached {t : Session} (ht : left.EndingsStay t) (i : Nat) (slot : Slot) (hi : i < j)
      (hslot : y.slots[i]? = some slot) (hp : t.ending? slot.handle = none) :
      ∃ u, (c.enterBuffer.executeAll (y.row b c)).leaveBuffer.listener? u = some (.slot b i) := by
    obtain ⟨u, hu⟩ := hall.sent i slot hi hslot (pending_of_stays (ht slot.handle) hp)
    exact ⟨u, by rw [hall.leave.1.listener?_eq hconn', hu]⟩
  have hstay := kept_endingsStay.toKeptByTelling
  unfold Session.sendBatch
  dsimp only
  rw [← hx, ← hleft]
  split
  · next e he =>
    obtain ⟨hholds, hend, hc⟩ := hall.abort hleft e
    refine ⟨hholds, hc.trans hconn', fun e' he' => ?_, fun hn => ?_,
      hreached (hstay.trans (hstay.tellEarly _ _) (hstay.endHandle _ _ _))⟩
    · obtain rfl := Option.some.inj (he.symm.trans (hfailure.trans he'))
      exact hend
    · cases he.symm.trans (hfailure.trans hn)
  · next he =>
    have hnone : y.failure? c = none := hfailure.symm.trans he
    have hall' : y.slots.length ≤ j := by
      rw [Batch.unreached_of_failure? hnone] at hj
      exact List.drop_eq_nil_iff.1 hj
    split
    · next hb =>
      obtain ⟨z, hz, -⟩ := hall.batch
      cases hb.symm.trans hz
    · next w hw =>
      obtain ⟨hholds, hc, z, r, hz, hzsp, hclaims, hr, hkey⟩ :=
        hall.startRun hleft hall' collectsErrors hw rfl
      refine ⟨hholds, hc.trans hconn', fun e' he' => ?_,
        fun _ => ⟨z, r, hz, hzsp, hclaims, hr, ?_⟩, hreached ?_⟩
      · cases hnone.symm.trans he'
      · rw [hkey, htickets]
        rfl
      · refine hstay.trans (hstay.trans ?_ (hstay.tellEarly _ _)) (hstay.concludeBatch _ _)
        exact fun _ _ ha => ha

/-- The state in which a batch is sent: it is spent and has a handle of its own. -/
theorem sound_spent (hs : Holds terms owners [] s) {b : BatchId} {x : Batch}
    (hx : s.batches[b]? = some x) (hsp : x.spent = false) :
    (Sending.mk ((s.setBatch b { x with spent := true }).addHandle (.run b)) [] [] none).Sound terms
      (owners ++ [.batch b]) b x.slots s.nextHandle 0 := by
  obtain ⟨L, T, hv, hc⟩ := hs
  have hspent := hc.spend hx hsp
  have hself := getElem?_setBatch_self s { x with spent := true } hx
  -- the batch has had no handle before
  have hnew (k : HandleId) : owners[k]? ≠ some (.batch b) := by
    intro hk
    obtain ⟨y, hy, hysp⟩ := hc.spent k b hk
    obtain rfl := Option.some.inj (hx.symm.trans hy)
    cases hsp.symm.trans hysp
  have hall := hspent.concat ⟨.run b, none⟩ (.batch b) (by simp) (by simp) (by simp)
    (fun c hcb => by rw [Source.run.inj hcb]) fun c hcb => by
      obtain rfl := Owner.batch.inj hcb
      exact ⟨⟨_, hself, rfl⟩, hnew⟩
  have hsilent {t : Ticket} {l : Listener} (hl : L t = some l) : l.batch? ≠ some b := by
    intro hb
    cases hc.listening t l hl with
    | reading hr => cases l <;> simp [Listener.batch?, Listener.reading?] at hb hr
    | frame hy hysp =>
      cases hb
      obtain rfl := Option.some.inj (hx.symm.trans hy)
      cases hsp.symm.trans hysp
    | slot hy hysp =>
      cases hb
      obtain rfl := Option.some.inj (hx.symm.trans hy)
      cases hsp.symm.trans hysp
    | fetching => cases hb
  refine ⟨L, T, ⟨hv.congr rfl, hall, ⟨_, hself, rfl, (hc.unspent b x hx hsp).1, rfl,
    fun _ _ => rfl⟩, ?_, ?_, List.nodup_nil, fun t => ?_, by simp, fun j slot _ hj => ⟨?_, ?_⟩,
    by simp, fun j hj => ?_⟩⟩
  · exact (congrArg ((owners ++ [.batch b])[·]?) hc.length_eq.symm).trans
      List.getElem?_concat_length
  · exact (ending?_addHandle _ _ _).trans (ending?_length s)
  · refine iff_of_false List.not_mem_nil fun hb => ?_
    obtain ⟨l, hl, hlb⟩ := Option.bind_eq_some_iff.1 hb
    exact hsilent hl hlb
  · exact fun t ht => hsilent ht rfl
  · rw [Knows, ending?_addHandle, ending?_setBatch]
    exact (hc.unspent b x hx hsp).2 slot (List.mem_of_getElem? hj)
  · -- commands that are never sent belong to batches that are spent
    obtain ⟨y, -, hy, -, hysp, -⟩ := hc.stranded b j hj
    obtain rfl := Option.some.inj (hx.symm.trans hy)
    cases hsp.symm.trans hysp

/-- A batch is sent, with a new handle of its own. -/
theorem launched (hs : Holds terms owners [] s) {x : Batch} (hx : s.batches[b]? = some x)
    (hsp : x.spent = false) (hne : x.slots ≠ []) {c : Connection Listener}
    (hc : s.connection = some c) (collectsErrors : Bool) : ∃ j, x.slots.drop j = x.unreached c ∧
      Launched terms (owners ++ [.batch b]) b x s.nextHandle collectsErrors c j
        (s.run b collectsErrors) := by
  have hrun : s.run b collectsErrors =
      ((s.setBatch b { x with spent := true }).addHandle (.run b)).sendBatch b
        { x with spent := true } s.nextHandle collectsErrors := by
    simp only [Session.run, hx, hsp, List.isEmpty_eq_false_iff.2 hne]
    rfl
  have hsound := hs.sound_spent hx hsp
  obtain ⟨j, hj, h⟩ := launched_sendBatch (y := { x with spent := true }) hsound hc collectsErrors
  rw [hrun]
  exact ⟨j, hj, h.holds, h.connection, h.failed, h.counts, h.reached⟩

end Holds

end Session

end SortedSets

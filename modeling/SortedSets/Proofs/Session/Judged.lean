import SortedSets.Proofs.Session.Blocks

/-!
# How arguments are judged

A call is judged by what its method makes of the arguments, and this is the same on a batch as on
the client itself. A command that is sent at once is then encoded, which judges the arguments a
second time; a command that is queued is encoded only when the batch is sent. So a batch accepts
calls that the client refuses: those whose commands cannot be encoded. Such a call fails when the
batch is sent, and the batch is sent without its command.

## Main definitions

* `MethodCall.judged`: what a method makes of the arguments of a call

## Main results

* `Session.enqueue_error_iff`, `Session.call_error_iff`: which calls a batch and a client refuse
* `Session.Sending.ending?_slots_of_misfit`: a command that cannot be encoded fails when it is sent
* `Session.judged_when_sent`: the calls on a batch, and what becomes of them
-/

namespace SortedSets

/-- What a method makes of the arguments of a call: a command, or the error of the call. -/
def MethodCall.judged (mode : Mode) (k : MethodCall) : Except Error Command :=
  match Method.named? k.method with
  | none => .error .noAttribute
  | some m =>
    match m.call mode k.args k.named with
    | .error e => .error e
    | .ok (.scan _ _) => .error .badType
    | .ok (.send command) => .ok command

/-- Only a method that scans makes a cursor. -/
theorem Method.scans_of_call {m : Method} {mode : Mode} {args : List Value}
    {named : List (String × Value)} {key : Value} {cursor : Cursor ScanOptions}
    (h : m.call mode args named = .ok (.scan key cursor)) : m.scans = true := by
  have hsend {r : Except Error Command} (hr : r.map Call.send = .ok (.scan key cursor)) :
      m.scans = true := by
    cases r <;> cases hr
  unfold call at h
  cases ha : m.signature.bind args named with
  | error e =>
    rw [ha] at h
    cases h
  | ok a =>
    rw [ha] at h
    cases m with
    | zscan | zscanIter | izscan => rfl
    | _ => exact hsend h

namespace MethodCall

variable {k : MethodCall}

theorem judged_eq_ok_iff {mode : Mode} {command : Command} :
    k.judged mode = .ok command ↔ k.command? mode = some command := by
  unfold judged command?
  cases Method.named? k.method with
  | none => exact iff_of_false nofun nofun
  | some m =>
    dsimp only
    cases m.call mode k.args k.named with
    | error e => exact iff_of_false nofun nofun
    | ok made =>
      cases made with
      | scan => exact iff_of_false nofun nofun
      | send c => simp

/-- But for the scans a call is judged the same in every mode. -/
theorem judged_mode (hk : k.scans = false) (mode mode' : Mode) :
    k.judged mode = k.judged mode' := by
  unfold judged
  cases hm : Method.named? k.method with
  | none => rfl
  | some m =>
    have hs : m.scans = false := by simpa [scans, hm] using hk
    simp only [Method.call_mode hs mode mode']

end MethodCall

namespace Session

variable {s : Session} {c : Connection Listener} {k : MethodCall}

/-! ## Calls -/

/-- A batch that was not sent refuses a call if its method does, and takes its command else. -/
theorem enqueue_of_unspent {b : BatchId} {x : Batch} (hx : s.batches[b]? = some x)
    (hsp : x.spent = false) (k : MethodCall) :
    (s.enqueue b k.method k.args k.named).2 =
      (k.judged x.mode).map fun _ => .handle s.nextHandle := by
  unfold enqueue MethodCall.judged
  simp only [hx, hsp, Bool.false_eq_true, if_false]
  cases Method.named? k.method with
  | none => rfl
  | some m =>
    dsimp only
    cases m.call x.mode k.args k.named with
    | error e => rfl
    | ok made => cases made <;> rfl

/-- A call on the client is refused by its method, or its command is sent. -/
theorem call_of_judged (hk : k.scans = false) (s : Session) :
    (∃ e, k.judged s.mode = .error e ∧ (s.call k.method k.args k.named).2 = .error e) ∨
      ∃ command l alone, k.judged s.mode = .ok command ∧
        s.call k.method k.args k.named =
          s.sendFor (.bytes command.name) command.args l alone := by
  cases hj : k.judged s.mode with
  | ok command =>
    obtain ⟨l, alone, -, -, -, hcall⟩ := call_of_command? (MethodCall.judged_eq_ok_iff.1 hj)
    exact .inr ⟨command, l, alone, rfl, hcall⟩
  | error e =>
    refine .inl ⟨e, rfl, ?_⟩
    cases hm : Method.named? k.method with
    | none =>
      simp only [MethodCall.judged, hm] at hj
      simp only [call, hm, Except.error.inj hj]
    | some m =>
      cases hc : m.call s.mode k.args k.named with
      | error e' =>
        simp only [MethodCall.judged, hm, hc] at hj
        simp only [call, hm, hc, Except.error.inj hj]
      | ok made =>
        cases made with
        | scan key cursor =>
          -- only the scans make a cursor
          simp [MethodCall.scans, hm, Method.scans_of_call hc] at hk
        | send command =>
          simp only [MethodCall.judged, hm, hc] at hj
          cases hj

/-- The command of a method is sent if there is a request for it. -/
theorem sendFor_of_made (hc : s.connection = some c) {command : Command} {mode : Mode}
    (hm : command.Made mode) (l : HandleId → Listener) (alone : Bool) :
    (s.sendFor (.bytes command.name) command.args l alone).2 =
      (c.requestOf (.bytes command.name) command.args).map fun _ => .handle s.nextHandle := by
  have hticket : (s.send (.bytes command.name) command.args (l s.nextHandle)).2.2 =
      (c.submit (.bytes command.name) command.args (l s.nextHandle)).ticket := by
    simp only [send, hc]
    rfl
  have hsend : (s.sendFor (.bytes command.name) command.args l alone).2 =
      (c.submit (.bytes command.name) command.args (l s.nextHandle)).ticket.map
        fun _ => .handle s.nextHandle := by
    rw [← hticket]
    unfold sendFor
    dsimp only
    split
    · next he =>
      rw [he]
      rfl
    · next t ht =>
      rw [ht]
      rfl
  rw [hsend]
  rcases c.submit_cases (.bytes command.name) command.args (l s.nextHandle) with
    ⟨e, he, -, ht⟩ | ⟨data, e, -, hv, -⟩ | ⟨data, verb, hd, -, -, ht⟩
  · rw [ht, he]
    rfl
  · -- the word of a method is understood
    cases hv.symm.trans hm.verb
  · rw [ht, hd]
    rfl

/-- A command of a method is sent over an open connection if it can be encoded. -/
theorem sendFor_error_iff (hc : s.connection = some c) (ho : c.isClosed = false)
    {command : Command} {mode : Mode} (hm : command.Made mode) (l : HandleId → Listener)
    (alone : Bool) (e : Error) :
    (s.sendFor (.bytes command.name) command.args l alone).2 = .error e ↔
      Wire.encode (.bytes command.name :: command.args) = .error e := by
  rw [sendFor_of_made hc hm, Connection.requestOf_of_open (.inr rfl) ho]
  cases Wire.encode (.bytes command.name :: command.args) <;> simp [Except.map]

/-- Over an open connection a call is refused by its method, or because its command cannot be
encoded. -/
theorem call_error_iff (hc : s.connection = some c) (ho : c.isClosed = false)
    (hk : k.scans = false) (e : Error) :
    (s.call k.method k.args k.named).2 = .error e ↔
      k.judged s.mode = .error e ∨ ∃ command, k.judged s.mode = .ok command ∧
        Wire.encode (.bytes command.name :: command.args) = .error e := by
  rcases call_of_judged hk s with ⟨e', hj, hcall⟩ | ⟨command, l, alone, hj, hcall⟩
  · rw [hcall, hj]
    simp
  · obtain ⟨m, -, hm⟩ := MethodCall.exists_of_command? (MethodCall.judged_eq_ok_iff.1 hj)
    rw [hcall, sendFor_error_iff hc ho ⟨m, k.args, k.named, hm⟩, hj]
    simp

/-! ## Sending -/

namespace Sending

variable {terms : Terms} {owners : List Owner} {b : BatchId} {slots : List Slot} {h : HandleId}
  {i : Nat} {x : Sending}

theorem Sound.due (hx : x.Sound terms owners b slots h i) (hc : x.session.connection = some c) :
    c.due = [] := by
  obtain ⟨L, T, hfor⟩ := hx
  exact hfor.view.due hc

theorem Sound.verb (hx : x.Sound terms owners b slots h i) (slot : Slot) (hs : slot ∈ slots) :
    Verb.ofWord (.bytes slot.command.name) = .ok .other := by
  obtain ⟨L, T, hfor⟩ := hx
  exact hfor.verb slot hs

/-- A command that cannot be encoded fails when it is its turn, unless its handle was given up. -/
theorem ending?_slot_of_misfit (hx : x.Sound terms owners b slots h i) (he : x.error = none)
    (hc : x.session.connection = some c) {slot : Slot} (hi : slots[i]? = some slot)
    (hf : slot.filled = false) {e : Error}
    (hr : c.requestOf (.bytes slot.command.name) slot.command.args = .error e) :
    (x.slot b i slot).session.ending? slot.handle = some (.failed e) ∨
      terms.given slot.handle ∧
        (x.slot b i slot).session.ending? slot.handle = some .cancelled := by
  obtain ⟨L, T, hfor⟩ := hx
  obtain ⟨y, hy, -, -, -, hsame⟩ := hfor.batch
  have hyi : y.slots[i]? = some slot := (hsame i (Nat.le_refl i)).trans hi
  have hlt := hfor.consistent.lt_length (hfor.consistent.slot b y i slot hy hyi)
  have heq : (x.slot b i slot).session = (x.session.endHandle slot.handle (.failed e)).setBatch b
      (y.fill i slot) := by
    simp only [Sending.slot, he, send_of_error hc (hfor.view.due hc) hr, hf, Bool.false_eq_true,
      if_false]
    rw [fillSlot_eq hy hyi, hf, setBatch_endHandle]
    rfl
  rw [heq, ending?_setBatch, ending?_endHandle_self _ _ hlt]
  -- the handle was pending, or given up
  rcases (hfor.rest i slot (Nat.le_refl i) hi).2 with hk | ⟨hg, hk⟩
  · rw [hk]
    exact .inl rfl
  · rw [hk]
    exact .inr ⟨hg, rfl⟩

/-- Among commands whose sending is not broken off, one that cannot be encoded fails. -/
theorem ending?_slots_of_misfit {rest : List Slot} (hrest : slots.drop i = rest)
    (hx : x.Sound terms owners b slots h i) (he : x.error = none)
    (hc : x.session.connection = some c) (hb : rest.any (Slot.blocks c) = false) {slot : Slot}
    (hslot : slot ∈ rest) {e : Error}
    (hr : c.requestOf (.bytes slot.command.name) slot.command.args = .error e) :
    (Sending.slots b i rest x).session.ending? slot.handle = some (.failed e) ∨
      terms.given slot.handle ∧
        (Sending.slots b i rest x).session.ending? slot.handle = some .cancelled := by
  induction rest generalizing i x c with
  | nil => cases hslot
  | cons first rest ih =>
    rw [List.any_cons, Bool.or_eq_false_iff] at hb
    have hi : slots[i]? = some first := by
      rw [← Nat.add_zero i, ← List.getElem?_drop, hrest]
      rfl
    have hnext : slots.drop (i + 1) = rest := by
      rw [← List.tail_drop, hrest]
      rfl
    have hsound := hx.slot he hi
    rw [Sending.slots]
    rcases List.mem_cons.1 hslot with rfl | hslot
    · -- what comes later leaves the ending as it is
      have hf : slot.fits c = false := by simp [Slot.fits, Slot.request?, hr, Except.toOption]
      have hfill : slot.filled = false := by simpa [Slot.blocks, hf] using hb.1
      have hstay := kept_endingsStay.toKeptByTelling.sendSlots b (i + 1) rest (x.slot b i slot)
      exact (ending?_slot_of_misfit hx he hc hi hfill hr).imp (hstay _ _) fun hk =>
        ⟨hk.1, hstay _ _ hk.2⟩
    · have hv := hx.verb first (List.mem_of_getElem? hi)
      have hd := hx.due hc
      cases hf : first.fits c with
      | true =>
        have hclosed : (c.executeAll [first.dispatch b i]).isClosed = c.isClosed :=
          Connection.isClosed_execute ..
        have heq := slot_of_fits (b := b) (i := i) he hc hf hv
        refine ih hnext hsound (by rw [heq]) (by rw [heq]) ?_ hslot ?_
        · rw [Slot.blocks_congr hclosed]
          exact hb.2
        · rwa [Connection.requestOf_congr hclosed]
      | false =>
        have hfill : first.filled = false := by simpa [Slot.blocks, hf] using hb.1
        obtain ⟨e', heq⟩ := slot_of_misfit (b := b) (i := i) he hc hd hf hfill
        exact ih hnext hsound (by rw [heq]; exact he) (by rw [heq]; simpa using hc) hb.2 hslot hr

/-- Of a batch whose sending is not broken off, a command that cannot be encoded fails. -/
theorem ending?_all_of_misfit {y : Batch} {s : Session}
    (hx : Sound terms owners b y.slots h 0 ⟨s, [], [], none⟩) (hc : s.connection = some c)
    (ho : c.isClosed = false) (hb : y.stops c = false) {slot : Slot} (hslot : slot ∈ y.slots)
    {e : Error} (hr : c.requestOf (.bytes slot.command.name) slot.command.args = .error e) :
    (Sending.all b y s).session.ending? slot.handle = some (.failed e) ∨
      terms.given slot.handle ∧
        (Sending.all b y s).session.ending? slot.handle = some .cancelled := by
  unfold Sending.all
  dsimp only
  cases y.transactional with
  | false => exact ending?_slots_of_misfit rfl hx rfl hc hb hslot hr
  | true =>
    have hclosed : (c.executeAll [b.frame "MULTI"]).isClosed = c.isClosed :=
      Connection.isClosed_execute ..
    have heq := frame_of_sendable (b := b) (x := ⟨s, [], [], none⟩) rfl hc (sendable_frame ho b).1
    -- the end of the transaction is sent last, and changes no ending
    have hstay := kept_endingsStay.toKeptByTelling.sendFrame b "EXEC"
      (Sending.slots b 0 y.slots ((Sending.mk s [] [] none).frame b "MULTI"))
    rw [if_pos rfl]
    refine Or.imp (hstay _ _) (fun hk => ⟨hk.1, hstay _ _ hk.2⟩) <|
      ending?_slots_of_misfit rfl (hx.frame "MULTI") (by rw [heq]) (by rw [heq]) ?_ hslot ?_
    · rw [Slot.blocks_congr hclosed]
      exact hb
    · rwa [Connection.requestOf_congr hclosed]

end Sending

/-- What happens after the commands of a batch were sent ends no handle anew. -/
theorem endingsStay_sendBatch (b : BatchId) (y : Batch) (h : HandleId) (collectsErrors : Bool)
    (s : Session) :
    (Sending.all b y (s.mapConnection Connection.enterBuffer)).session.EndingsStay
      (s.sendBatch b y h collectsErrors) := by
  have k := kept_endingsStay.toKeptByTelling
  set x := Sending.all b y (s.mapConnection Connection.enterBuffer) with hx
  have hleft : x.session.EndingsStay (x.session.mapConnection Connection.leaveBuffer) :=
    fun _ _ he => he
  unfold sendBatch
  dsimp only
  rw [← hx]
  -- what follows are elementary changes, each of which lets endings stay
  refine k.trans hleft ?_
  split
  · exact k.trans (k.tellEarly _ _) (k.endHandle _ _ _)
  · split
    · exact k.refl _
    · next batch _ =>
      have hbatch : (x.session.mapConnection Connection.leaveBuffer).EndingsStay
          ((x.session.mapConnection Connection.leaveBuffer).setBatch b { batch with
            run := some ⟨h, collectsErrors, x.tickets, x.tickets.length, false⟩ }) :=
        fun _ _ he => he
      exact k.trans hbatch (k.trans (k.tellEarly _ _) (k.concludeBatch _ _))

/-- A batch is sent over an open connection and its sending is not broken off: a command that cannot
be encoded fails, unless its handle was given up before. -/
theorem Holds.ending?_run_of_misfit {terms : Terms} {owners : List Owner}
    (hs : Holds terms owners [] s) {b : BatchId} {x : Batch} (hx : s.batches[b]? = some x)
    (hsp : x.spent = false) (hc : s.connection = some c) (ho : c.isClosed = false)
    (hb : x.stops c = false) {slot : Slot} (hslot : slot ∈ x.slots) {e : Error}
    (hr : Wire.encode (.bytes slot.command.name :: slot.command.args) = .error e)
    (collectsErrors : Bool) :
    (s.run b collectsErrors).ending? slot.handle = some (.failed e) ∨
      terms.given slot.handle ∧
        (s.run b collectsErrors).ending? slot.handle = some .cancelled := by
  have hrun : s.run b collectsErrors =
      ((s.setBatch b { x with spent := true }).addHandle (.run b)).sendBatch b
        { x with spent := true } s.nextHandle collectsErrors := by
    simp only [Session.run, hx, hsp, List.isEmpty_eq_false_iff.2 (List.ne_nil_of_mem hslot)]
    rfl
  -- the sending starts with an empty buffer on the connection of the session
  have hbuffer : (((s.setBatch b { x with spent := true }).addHandle (.run b)).mapConnection
      Connection.enterBuffer).connection = some c.enterBuffer := by
    simp only [mapConnection, addHandle, setBatch, hc, Option.map_some]
  have hrequest : c.enterBuffer.requestOf (.bytes slot.command.name) slot.command.args =
      .error e := (Connection.requestOf_of_open (.inr rfl) ho).trans hr
  have hstay := endingsStay_sendBatch b { x with spent := true } s.nextHandle collectsErrors
    ((s.setBatch b { x with spent := true }).addHandle (.run b))
  rw [hrun]
  exact (Sending.ending?_all_of_misfit (y := { x with spent := true })
    (hs.sound_spent hx hsp).enterBuffer hbuffer ho hb hslot hrequest).imp (hstay _ _)
      fun hk => ⟨hk.1, hstay _ _ hk.2⟩

/-- Calls on a batch that was not sent yet, at some time in a run and over an open connection in
direct mode. But for the scans, the client refuses a call if the batch does, with the same error; and
it refuses besides each call that the batch accepts and whose command cannot be encoded. When the
batch is sent and its sending is not broken off, such a command fails with the error that the client
would have given, unless its handle was given up before; and the batch writes the requests of the
other commands, a transaction between the requests that begin and end it. -/
theorem judged_when_sent (address : Value × Value) (timeout : Timeout) (before : List Act)
    (b : BatchId) {x : Batch} {c : Connection Listener}
    (hx : ((connected address timeout).after before).batches[b]? = some x) (hsp : x.spent = false)
    (hc : ((connected address timeout).after before).connection = some c) (ho : c.isClosed = false)
    (hmode : c.mode = .direct) :
    let s := (connected address timeout).after before
    (∀ k : MethodCall, k.scans = false → ∀ e,
      ((s.call k.method k.args k.named).2 = .error e ↔
        (s.enqueue b k.method k.args k.named).2 = .error e ∨
          ∃ command, k.command? x.mode = some command ∧
            (s.enqueue b k.method k.args k.named).2 = .ok (.handle s.nextHandle) ∧
            Wire.encode (.bytes command.name :: command.args) = .error e)) ∧
    ∀ collectsErrors, x.stops c = false →
      (∀ slot ∈ x.slots, ∀ e,
        Wire.encode (.bytes slot.command.name :: slot.command.args) = .error e →
          (s.run b collectsErrors).ending? slot.handle = some (.failed e) ∨
            .cancel slot.handle ∈ before ∧
              (s.run b collectsErrors).ending? slot.handle = some .cancelled) ∧
      ∃ d, (s.run b collectsErrors).connection = some d ∧ d.writes = c.writes ++ x.block := by
  intro s
  have hs : s.mode = .direct := by
    rw [mode, hc]
    exact hmode
  obtain ⟨owners, hholds⟩ := exists_holds (fun h => .cancel h ∈ before) address timeout before
    fun _ h => h
  refine ⟨?calls, fun collectsErrors hstops => ⟨?fails, ?writes⟩⟩
  case calls =>
    intro k hk e
    rw [call_error_iff hc ho hk, hs, MethodCall.judged_mode hk .direct x.mode,
      enqueue_of_unspent hx hsp]
    cases hj : k.judged x.mode with
    | error e' =>
      have hnone : k.command? x.mode = none := by
        rw [Option.eq_none_iff_forall_ne_some]
        intro command hcommand
        cases hj.symm.trans (MethodCall.judged_eq_ok_iff.2 hcommand)
      simp [Except.map, hnone]
    | ok command =>
      simp [s, Except.map, MethodCall.judged_eq_ok_iff.1 hj]
  case fails =>
    intro slot hslot e he
    exact hholds.ending?_run_of_misfit hx hsp hc ho hstops hslot he collectsErrors
  case writes =>
    by_cases hne : x.slots = []
    · -- nothing is sent
      refine ⟨c, ?_, by simp [Batch.block, hne]⟩
      simp [s, Session.run, hx, hsp, hne, addEnded, hc]
    · obtain ⟨j, -, hl⟩ := hholds.launched hx hsp hne hc collectsErrors
      refine ⟨_, hl.connection, ?_⟩
      rw [writes_launch_eq ho, Batch.written_of_unstopped ho hstops hne]

/-- A call with a list in the place of a key. -/
def listForKey : MethodCall :=
  ⟨"zcard", [.list [.int 1]], []⟩

/-- The client refuses the call. A transaction has accepted it, and is run without its command, which
fails. -/
theorem judged_when_sent_halfSendable :
    let s := (connected (.none, .none) .none).after halfSendable
    (s.call listForKey.method listForKey.args listForKey.named).2 =
        .error (.notEncodable (.list [.int 1])) ∧
      (s.run 0 false).ending? 0 = some (.failed (.notEncodable (.list [.int 1]))) ∧
      ∃ d, (s.run 0 false).connection = some d ∧ d.writes =
        [beginRequest ++ (Bytes.ascii "*2\r\n$5\r\nZCARD\r\n$1\r\nk\r\n" ++ endRequest)] := by
  let slot : Slot := ⟨.plain "ZCARD" [.list [.int 1]], 0, false⟩
  have hx : ((connected (.none, .none) .none).after halfSendable).batches[0]? =
      some ⟨true, [slot, ⟨.plain "ZCARD" [.text (.ofString "k")], 1, false⟩], false, none⟩ := rfl
  obtain ⟨hcalls, hrun⟩ := judged_when_sent (.none, .none) .none halfSendable 0 hx rfl rfl rfl rfl
  obtain ⟨hfails, d, hd, hw⟩ := hrun false rfl
  refine ⟨(hcalls listForKey rfl _).2 (.inr ⟨slot.command, rfl, rfl, rfl⟩), ?_, d, hd, hw.trans rfl⟩
  refine (hfails slot List.mem_cons_self _ rfl).resolve_right fun h => ?_
  simp [halfSendable] at h

/-- A batch may accept a call that the client refuses. -/
theorem not_judged_alike :
    ¬ ∀ (before : List Act) (b : BatchId) (x : Batch) (c : Connection Listener) (k : MethodCall)
      (e : Error),
      let s := (connected (.none, .none) .none).after before
      s.batches[b]? = some x → x.spent = false → s.connection = some c → c.isClosed = false →
        c.mode = .direct → k.scans = false →
          ((s.enqueue b k.method k.args k.named).2 = .error e ↔
            (s.call k.method k.args k.named).2 = .error e) := by
  intro h
  have hcall := (h [.newBatch true] 0 _ _ listForKey (.notEncodable (.list [.int 1])) rfl rfl rfl
    rfl rfl rfl).2 rfl
  cases hcall

end Session

end SortedSets

import SortedSets.Proofs.Connection.Failures
import SortedSets.Proofs.Session.Calls

/-!
# What a session writes

Only commands that are sent write something. As long as no bytes are gathered, each of them is a
write of its own, which is there as soon as the command was sent. What is told to handles and to
batches writes nothing; a page that a cursor is told may be followed by the request for the next
one.

## Main definitions

* `Session.written?`: all writes, unless bytes are gathered
* `Session.Appends`: a session that has written more than another one
* `PageRequest`: the request for a page of a scan

## Main results

* `Session.appends_sendFor`, `Session.appends_call`, `Session.appends_select`,
  `Session.appends_step`: commands that are sent at once
* `Session.appends_cancel`: nothing is written when something is given up
* `Session.appends_receive`: replies are followed by requests for pages only
-/

namespace SortedSets

namespace Connection

variable {c : Connection Listener}

/-- What follows from answers writes nothing. -/
theorem writes_followAll (c : Connection Listener) :
    c.followAll.1.buffer = c.buffer ∧ c.followAll.1.writes = c.writes :=
  have hquiet := quiet_followMany c.due.length c
  ⟨hquiet.buffer_eq, hquiet.writes_eq⟩

/-- A command is written at once, unless bytes are gathered. -/
theorem writes_execute (hb : c.buffer = none) (name : Value) (args : List Value) (l : Listener) :
    (c.execute name args l).connection.buffer = none ∧
      (c.execute name args l).connection.writes =
        c.writes ++ (c.requestOf name args).toOption.toList := by
  obtain ⟨hfb, hfw⟩ := writes_followAll (c.submit name args l).connection
  have hout := step_outside c (.submit name args l)
  have hsent : (c.outside (.submit name args l)).buffer = none ∧
      (c.outside (.submit name args l)).writes =
        c.writes ++ (c.requestOf name args).toOption.toList := by
    rw [outside]
    split
    · next h => simp [h, hb, Except.toOption]
    · next h => simp [h, hb, emit, enlist, Except.toOption]
  exact ⟨hfb.trans (hout.buffer_eq.trans hsent.1), hfw.trans (hout.writes_eq.trans hsent.2)⟩

theorem writes_receive (piece : Bytes) (c : Connection Listener) :
    (c.receive piece).1.buffer = c.buffer ∧ (c.receive piece).1.writes = c.writes := by
  obtain ⟨hb, hw⟩ := writes_followAll (c.deliver piece)
  have hout := step_outside c (.deliver piece)
  exact ⟨hb.trans hout.buffer_eq, hw.trans hout.writes_eq⟩

theorem writes_cancel (t : Ticket) (c : Connection Listener) :
    (c.cancel t).1.buffer = c.buffer ∧ (c.cancel t).1.writes = c.writes := by
  obtain ⟨hb, hw⟩ := writes_followAll (c.giveUp t).1
  have hquiet := quiet_giveUp t c
  exact ⟨hb.trans hquiet.buffer_eq, hw.trans hquiet.writes_eq⟩

end Connection

theorem ok_of_toOption {α : Type} {r : Except Error α} {a : α} (h : r.toOption = some a) :
    r = .ok a := by
  cases r with
  | error e => cases h
  | ok b => exact congrArg Except.ok (Option.some.inj h)

theorem Command.eq_of_scanPage {mode : Mode} {key : Value} {cursor : Int} {o : ScanOptions}
    {conversion : Option Conversion} {command : Command}
    (h : Command.scanPage mode key cursor o conversion = .ok command) :
    command = ⟨Bytes.ascii "ZSCAN", key :: .int cursor :: o.arguments, conversion⟩ := by
  simp only [scanPage, bind, Except.bind] at h
  split at h
  · cases h
  · exact (Except.ok.inj h).symm

/-- A step that needs a page leaves the cursor as it is. -/
theorem Cursor.eq_of_begin {Options : Type} {c d : Cursor Options} {step : Step}
    (h : c.begin step = .fetch d) : d = c := by
  have hrequest (h : c.request = .fetch d) : d = c := by
    unfold request at h
    split at h
    · cases h
    · exact (Progress.fetch.inj h).symm
  cases step with
  | page => exact hrequest h
  | item =>
    unfold begin take at h
    dsimp only at h
    split at h
    · cases h
    · exact hrequest h

/-- The request for a page of a scan. -/
def PageRequest (w : Bytes) : Prop :=
  ∃ (key : Value) (cursor : Int) (o : ScanOptions),
    Wire.encode (.bytes (Bytes.ascii "ZSCAN") :: key :: .int cursor :: o.arguments) = .ok w

namespace Session

variable {s t u : Session} {ws more : List Bytes}

/-- All that was written, unless bytes are gathered. -/
def written? (s : Session) : Option (List Bytes) :=
  s.connection.bind fun c => if c.buffer = none then some c.writes else none

/-- The session `t` has written what `s` has, and then `ws`. -/
def Appends (s : Session) (ws : List Bytes) (t : Session) : Prop :=
  ∀ before, s.written? = some before → t.written? = some (before ++ ws)

/-- The request of a command that is sent now. -/
def request? (s : Session) (name : Value) (args : List Value) : Option Bytes :=
  s.connection.bind fun c => (c.requestOf name args).toOption

theorem written?_of_connection {c : Connection Listener} (hc : s.connection = some c)
    (hb : c.buffer = none) : s.written? = some c.writes := by
  simp [written?, hc, hb]

theorem exists_of_written? (h : s.written? = some ws) :
    ∃ c, s.connection = some c ∧ c.buffer = none ∧ c.writes = ws := by
  obtain ⟨c, hc, h⟩ := Option.bind_eq_some_iff.1 h
  split at h
  · next hb => exact ⟨c, hc, hb, Option.some.inj h⟩
  · cases h

namespace Appends

theorem trans (h : s.Appends ws t) (h' : t.Appends more u) : s.Appends (ws ++ more) u := by
  intro before hs
  rw [h' _ (h before hs), List.append_assoc]

/-- What comes next writes nothing. -/
theorem silent (h : s.Appends ws t) (h' : t.Appends [] u) : s.Appends ws u := by
  simpa using h.trans h'

/-- A connection that shows the same writes. -/
theorem of_same {f : Connection Listener → Connection Listener}
    (hf : ∀ c, (f c).buffer = c.buffer ∧ (f c).writes = c.writes)
    (h : t.connection = s.connection.map f) : s.Appends [] t := by
  intro before hs
  obtain ⟨c, hc, hb, rfl⟩ := exists_of_written? hs
  rw [hc, Option.map_some] at h
  rw [written?_of_connection h ((hf c).1.trans hb), (hf c).2, List.append_nil]

theorem of_connection (h : t.connection = s.connection) : s.Appends [] t :=
  of_same (f := id) (fun _ => ⟨rfl, rfl⟩) (by rw [h, Option.map_id_fun, id])

theorem refl (s : Session) : s.Appends [] s := of_connection rfl

end Appends

/-! ## Commands -/

/-- A command that is sent is a write, unless it must not be sent. -/
theorem appends_send (name : Value) (args : List Value) (l : Listener) (s : Session) :
    s.Appends (s.request? name args).toList (s.send name args l).1 := by
  intro before hs
  obtain ⟨c, hc, hb, rfl⟩ := exists_of_written? hs
  obtain ⟨hb', hw⟩ := Connection.writes_execute hb name args l
  rw [written?_of_connection (c := (c.execute name args l).connection) (by simp only [send, hc]) hb',
    hw, request?, hc, Option.bind_some]

/-! ## What is told -/

/-- The session `t` has written what `s` has, and then only what satisfies `P`. -/
def AppendsOnly (P : Bytes → Prop) (s t : Session) : Prop :=
  ∃ ws, s.Appends ws t ∧ ∀ w ∈ ws, P w

section Told

variable {P : Bytes → Prop}

theorem AppendsOnly.of_nil (h : s.Appends [] t) : AppendsOnly P s t :=
  ⟨[], h, by simp⟩

theorem AppendsOnly.of_connection (h : t.connection = s.connection) : AppendsOnly P s t :=
  .of_nil (.of_connection h)

theorem AppendsOnly.trans (h : AppendsOnly P s t) (h' : AppendsOnly P t u) : AppendsOnly P s u := by
  obtain ⟨ws, hws, hp⟩ := h
  obtain ⟨more, hmore, hp'⟩ := h'
  exact ⟨ws ++ more, hws.trans hmore, fun w hw => (List.mem_append.1 hw).elim (hp w) (hp' w)⟩

/-- Nothing was written if nothing could satisfy `P`. -/
theorem AppendsOnly.appends_nil (h : AppendsOnly P s t) (hP : ∀ w, ¬ P w) : s.Appends [] t := by
  obtain ⟨ws, hws, hp⟩ := h
  obtain rfl : ws = [] := List.eq_nil_iff_forall_not_mem.2 fun w hw => hP w (hp w hw)
  exact hws

theorem appendsOnly_proceed {again : Session → Session} (ha : ∀ s, AppendsOnly P s (again s))
    (h : HandleId) (i : CursorId) (p : Progress ScanOptions) (s : Session) :
    AppendsOnly P s (s.proceed again h i p) := by
  cases p with
  | ended cursor r =>
    exact .of_connection ((connection_endHandle ..).trans (connection_setCursor ..))
  | fetch cursor => exact (AppendsOnly.of_connection (connection_setCursor ..)).trans (ha _)

/-- What is told writes nothing, unless a cursor asks for its next page. -/
theorem appendsOnly_tellWith {again : HandleId → CursorId → Step → Session → Session}
    (ha : ∀ h i step s, AppendsOnly P s (again h i step s)) (n : Notice Listener) (s : Session) :
    AppendsOnly P s (s.tellWith again n) := by
  obtain ⟨l, o⟩ := n
  cases l with
  | direct | converting | deferred | selecting => exact .of_connection (connection_endHandle ..)
  | frame b => exact .of_connection connection_countDown
  | slot b i => exact .of_connection (connection_countDown.trans (connection_fillSlot ..))
  | connecting h =>
    cases o with
    | reply =>
      refine .of_connection ?_
      unfold tellWith becomeReady
      dsimp only
      split <;> simp
    | failed e =>
      -- the end of the connection is no write
      refine .of_nil (.of_same (f := Connection.close) (fun c => ?_) ?_)
      · rw [Connection.close_frame]
        exact ⟨rfl, rfl⟩
      · unfold tellWith giveUpConnecting
        dsimp only
        split
        · exact connection_setSource ..
        · exact (connection_endHandle ..).trans (connection_setSource ..)
    | cancelled => exact .of_connection (connection_endHandle ..)
  | fetching h i step =>
    simp only [tellWith]
    split
    · exact .of_connection rfl
    · exact .of_connection (connection_endHandle ..)
    · exact appendsOnly_proceed (ha h i step) ..
    · exact appendsOnly_proceed (ha h i step) ..

theorem appends_tellEarly (ns : List (Notice Listener)) (s : Session) :
    s.Appends [] (s.tellEarly ns) := by
  induction ns generalizing s with
  | nil => exact .refl s
  | cons n ns ih =>
    have htold : AppendsOnly (fun _ => False) s (s.tellWith (fun _ _ _ s => s) n) :=
      appendsOnly_tellWith (fun _ _ _ _ => .of_connection rfl) n s
    exact (htold.appends_nil fun _ h => h).trans (ih _)

end Told

/-! ## Pages -/

/-- The command for the next page of a cursor. -/
def pageCommand? (s : Session) (i : CursorId) : Option Command :=
  s.scans[i]?.bind fun scan =>
    (Command.scanPage s.mode scan.key scan.cursor.id scan.cursor.options none).toOption

/-- The command that a step of a cursor sends at once. -/
def stepCommand? (s : Session) (i : CursorId) (step : Step) : Option Command :=
  s.scans[i]?.bind fun scan =>
    match scan.cursor.begin step with
    | .fetch cursor =>
      (Command.scanPage s.mode scan.key cursor.id cursor.options none).toOption
    | .ended .. => none

theorem pageRequest_of_pageCommand? {i : CursorId} {command : Command}
    (hc : s.pageCommand? i = some command) {w : Bytes}
    (hw : s.request? (.bytes command.name) command.args = some w) : PageRequest w := by
  obtain ⟨scan, -, h⟩ := Option.bind_eq_some_iff.1 hc
  obtain ⟨c, -, hw⟩ := Option.bind_eq_some_iff.1 hw
  obtain rfl := Command.eq_of_scanPage (ok_of_toOption h)
  exact ⟨scan.key, scan.cursor.id, scan.cursor.options,
    (Connection.requestOf_eq_ok_iff.1 (ok_of_toOption hw)).2.2⟩

/-- A cursor asks for its next page. -/
theorem appends_requestPage (h : HandleId) (i : CursorId) (step : Step) (s : Session) :
    s.Appends ((s.pageCommand? i).bind fun command =>
      s.request? (.bytes command.name) command.args).toList (s.requestPage h i step) := by
  -- a step that fails asks for nothing
  have hfail (e : Error) (scan : Scan) (t : Session) : t.Appends []
      (t.proceed id h i (scan.cursor.resume decodePairs step (.error e))) :=
    (appendsOnly_proceed (P := fun _ => False) (fun _ => .of_connection rfl) ..).appends_nil
      fun _ h => h
  unfold requestPage pageCommand?
  split
  · next hi =>
    rw [hi]
    exact .refl s
  · next scan hi =>
    rw [hi, Option.bind_some]
    split
    · next e he =>
      rw [he]
      exact hfail e scan s
    · next command hcommand =>
      rw [hcommand]
      have hsend := appends_send (.bytes command.name) command.args (.fetching h i step) s
      dsimp only
      split
      · next e _ => exact hsend.silent (hfail e scan _)
      · exact (hsend.silent (.of_connection (connection_setSource ..))).silent
          (appends_tellEarly _ _)

theorem appendsOnly_requestPage (h : HandleId) (i : CursorId) (step : Step) (s : Session) :
    AppendsOnly PageRequest s (s.requestPage h i step) :=
  ⟨_, appends_requestPage h i step s, fun _ hw => by
    obtain ⟨command, hcommand, hw⟩ := Option.bind_eq_some_iff.1 (Option.mem_toList.1 hw)
    exact pageRequest_of_pageCommand? hcommand hw⟩

theorem appendsOnly_tellAll (ns : List (Notice Listener)) (s : Session) :
    AppendsOnly PageRequest s (s.tellAll ns) := by
  induction ns generalizing s with
  | nil => exact .of_connection rfl
  | cons n ns ih => exact (appendsOnly_tellWith appendsOnly_requestPage n s).trans (ih _)

/-! ## Giving up -/

/-- Whoever is told that something was given up does nothing to the connection. -/
theorem connection_tellAll_of_cancelled {ns : List (Notice Listener)}
    (hn : ∀ n ∈ ns, n.outcome = .cancelled) (s : Session) :
    (s.tellAll ns).connection = s.connection := by
  induction ns generalizing s with
  | nil => rfl
  | cons n ns ih =>
    refine (ih (fun m hm => hn m (List.mem_cons_of_mem n hm)) _).trans ?_
    obtain ⟨l, o⟩ := n
    obtain rfl : o = .cancelled := hn ⟨l, o⟩ List.mem_cons_self
    -- only a page that arrives makes a step ask for another one
    cases l with
    | direct | converting | deferred | selecting | connecting => exact connection_endHandle ..
    | frame b => exact connection_countDown
    | slot b i => exact connection_countDown.trans (connection_fillSlot ..)
    | fetching h i step =>
      simp only [tell, tellWith]
      split
      · rfl
      · exact connection_endHandle ..
      · next h => cases h
      · next h => cases h

theorem connection_happen_cancel {c : Connection Listener} (hc : s.connection = some c)
    (hd : c.due = []) (t : Ticket) :
    (s.happen (Connection.cancel t)).connection = some (c.cancel t).1 := by
  simp only [happen, hc]
  exact connection_tellAll_of_cancelled (fun n hn => Connection.outcome_cancel hd hn) _

theorem appends_happen_cancel {c : Connection Listener} (hc : s.connection = some c)
    (hd : c.due = []) (t : Ticket) : s.Appends [] (s.happen (Connection.cancel t)) := by
  refine .of_same (f := fun c => (c.cancel t).1) (Connection.writes_cancel t) ?_
  rw [connection_happen_cancel hc hd, hc, Option.map_some]

/-- Whoever gives a batch up gives up its exchanges, and writes nothing. -/
theorem appends_cancelRun {c : Connection Listener} (hc : s.connection = some c) (hd : c.due = [])
    (b : BatchId) : s.Appends [] (s.cancelRun b) := by
  have hall (ts : List Ticket) {s : Session} (hc : s.connection = some c) :
      s.Appends [] (ts.foldl (fun s t => s.happen (Connection.cancel t)) s) := by
    -- while the exchanges are given up, nothing is due
    refine (List.foldlRecOn (motive := fun u => s.Appends [] u ∧
      ∃ d, u.connection = some d ∧ d.due = []) ts _ ⟨.refl s, c, hc, hd⟩ ?_).1
    rintro u ⟨hu, d, hconn, hdue⟩ t -
    exact ⟨hu.silent (appends_happen_cancel hconn hdue t), _, connection_happen_cancel hconn hdue t,
      Connection.due_followAll _⟩
  unfold cancelRun
  split
  · exact .refl s
  · next x _ =>
    split
    · exact .refl s
    · next r _ =>
      have hmark : s.Appends [] (s.setBatch b { x with run := some { r with cancelled := true } }) :=
        .of_connection rfl
      exact hmark.silent (hall r.tickets ((connection_setBatch ..).trans hc))

/-- Whoever gives something up writes nothing. -/
theorem appends_cancel {c : Connection Listener} (hc : s.connection = some c) (hd : c.due = [])
    (h : HandleId) : s.Appends [] (s.cancel h).1 := by
  unfold cancel
  split
  · next source _ =>
    cases source with
    | exchange t => exact appends_happen_cancel hc hd t
    | slot b i => exact .of_connection (connection_fillSlot ..)
    | run b => exact appends_cancelRun hc hd b
    | alone => exact .of_connection (connection_endHandle ..)
  · exact .refl s

/-! ## Acts -/

theorem appends_sendFor (name : Value) (args : List Value) (l : HandleId → Listener)
    (alone : Bool) (s : Session) :
    s.Appends (s.request? name args).toList (s.sendFor name args l alone).1 := by
  have hsend := appends_send name args (l s.nextHandle) s
  unfold sendFor
  dsimp only
  split
  · exact hsend.silent (appends_tellEarly _ _)
  · next t _ =>
    have hnew : Appends (s.send name args (l s.nextHandle)).1 []
        ((s.send name args (l s.nextHandle)).1.addHandle
          (if alone then .alone else .exchange t)) := .of_connection rfl
    exact (hsend.silent hnew).silent (appends_tellEarly _ _)

/-- A call sends the command that it makes. -/
theorem appends_call (method : String) (args : List Value) (named : List (String × Value))
    (s : Session) :
    s.Appends ((MethodCall.command? s.mode ⟨method, args, named⟩).bind fun command =>
      s.request? (.bytes command.name) command.args).toList (s.call method args named).1 := by
  cases hk : MethodCall.command? s.mode ⟨method, args, named⟩ with
  | some command =>
    obtain ⟨l, alone, -, -, -, hcall⟩ := call_of_command? hk
    dsimp only at hcall
    rw [hcall]
    exact appends_sendFor (.bytes command.name) command.args l alone s
  | none =>
    refine .of_connection ?_
    unfold MethodCall.command? at hk
    -- a call without a command fails, or starts a cursor, and nothing is sent
    unfold call
    split
    · rfl
    · next m hm =>
      split
      · rfl
      · rfl
      · next command hcall => simp [hm, hcall] at hk

theorem appends_select (db : Value) (s : Session) :
    s.Appends ((checkDatabase db).toOption.bind fun _ => s.request? (word "SELECT") [db]).toList
      (s.select db) := by
  have hnew : s.Appends [] (s.addHandle .alone) := .of_connection rfl
  unfold select sendSelect
  dsimp only
  split
  · next e he =>
    rw [he]
    exact hnew.trans (.of_connection (connection_endHandle ..))
  · next he =>
    rw [he]
    have hsend := hnew.trans
      (appends_send (word "SELECT") [db] (.selecting s.nextHandle) (s.addHandle .alone))
    split
    · exact (hsend.silent (appends_tellEarly _ _)).silent (.of_connection (connection_endHandle ..))
    · exact (hsend.silent (.of_connection (connection_setSource ..))).silent
        (appends_tellEarly _ _)

/-- A step of a cursor that needs a page asks for it. -/
theorem appends_step (i : CursorId) (step : Step) (s : Session) :
    s.Appends ((s.stepCommand? i step).bind fun command =>
      s.request? (.bytes command.name) command.args).toList (s.step i step) := by
  have hnew : s.Appends [] (s.addHandle .alone) := .of_connection rfl
  unfold Session.step stepCommand?
  dsimp only
  split
  · next hi =>
    have hi : s.scans[i]? = none := hi
    rw [hi]
    exact hnew
  · next scan hi =>
    have hi : s.scans[i]? = some scan := hi
    rw [hi, Option.bind_some]
    cases hp : scan.cursor.begin step with
    | ended cursor r =>
      exact hnew.silent (.of_connection ((connection_endHandle ..).trans (connection_setCursor ..)))
    | fetch cursor =>
      obtain rfl := Cursor.eq_of_begin hp
      -- the cursor is what it was
      have hsame : (s.addHandle .alone).setCursor i scan.cursor = s.addHandle .alone :=
        setCursor_self hi
      rw [proceed, hsame]
      have hask := appends_requestPage s.nextHandle i step (s.addHandle .alone)
      have hi' : (s.addHandle .alone).scans[i]? = some scan := hi
      rw [pageCommand?, hi', Option.bind_some] at hask
      exact hnew.trans hask

/-- Replies are followed by requests for pages only. -/
theorem appendsOnly_receive (piece : Bytes) (s : Session) :
    AppendsOnly PageRequest s (s.receive piece) := by
  cases hc : s.connection with
  | none => simpa only [receive, happen, hc] using .of_connection rfl
  | some c =>
    have harrived : s.Appends [] { s with connection := some (c.receive piece).1 } :=
      .of_same (f := fun c => (c.receive piece).1) (Connection.writes_receive piece) (by simp [hc])
    have htold := appendsOnly_tellAll (c.receive piece).2
      { s with connection := some (c.receive piece).1 }
    simpa only [receive, happen, hc] using (AppendsOnly.of_nil harrived).trans htold

end Session

end SortedSets

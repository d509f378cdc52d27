import SortedSets.Proofs.Connection.Block
import SortedSets.Proofs.Connection.Closed
import SortedSets.Proofs.Connection.Failures
import SortedSets.Proofs.Session.Kept

/-!
# Connecting

A client that connects opens a transport, and selects its database before it is ready. What it waits for
may come in many ways: the server answers, refuses, or sends garbage, the timeout runs out, the transport
is lost, or the caller waits no longer. Whoever is given the connection has one that is not closed.
Whoever is told of an error is told when the transport is gone. Only a caller who waits no longer may
leave the transport behind: nobody closes it if the reply to the selection was still to come.

## Main definitions

* `Incident`, `Session.meet`: what can happen to a client that waits for its connection
* `Asking`, `Leaving`: a client that waits for its database, and one that waits for the loss of a
  connection that it gave up
* `ConnectingEnds`: what becomes of the connection when the waiting ends

## Main results

* `Connecting.meet`, `Connecting.meetAll`: what an incident and a run of incidents do to a client that
  waits
* `connect_cases`: a client whose transport was opened has its connection, or waits for it
* `connecting_closes_transport`: what becomes of the connection, in every run
-/

namespace SortedSets

open Wire (Reader)

/-! ## The connection -/

namespace Connection

variable {L : Type}

/-- The first command of a connection. -/
theorem execute_start {address : Value × Value} {timeout : Timeout} {name : Value}
    {args : List Value} {l : L} {data : Bytes}
    (hr : (start address timeout : Connection L).requestOf name args = .ok data)
    (hv : Verb.ofWord name = .ok .other) :
    let sent := (start address timeout : Connection L).execute name args l
    sent.ticket = .ok 0 ∧
      sent.notices = (timeout.atOnce?.map fun e => ⟨l, .failed e⟩).toList ∧
      sent.connection.closing = false ∧ sent.connection.attached = true ∧
      sent.connection.due = [] ∧
      ∃ answer, sent.connection.exchanges =
        [⟨.plain, answer, timeout.atOnce?.map .failed, some l⟩] := by
  intro sent
  simp only [sent, execute, submit, hr, hv]
  cases timeout <;> exact ⟨rfl, rfl, rfl, rfl, rfl, _, rfl⟩

/-- The timeout of a command runs out, with all that follows. -/
def runOut (t : Ticket) (c : Connection L) : Connection L × List (Notice L) :=
  let (c, first) := c.expire t
  let (c, others) := c.followAll
  (c, first ++ others)

end Connection

/-! ## What can happen -/

/-- What can happen to a client that waits for its connection. -/
inductive Incident where
  | receive (piece : Bytes)
  | lose (e : Option Error)
  /-- The timeout of the selection runs out. -/
  | expire
  /-- The caller waits no longer. -/
  | cancel

namespace Incident

/-- What an incident is to the connection while the reply to the selection is awaited. -/
def event : Incident → Event Listener
  | .receive piece => .deliver piece
  | .lose e => .drop e
  | .expire => .expire 0
  | .cancel => .giveUp 0

/-- The event, with all that follows. -/
def operate : Incident → Connection Listener → Connection Listener × List (Notice Listener)
  | .receive piece => Connection.receive piece
  | .lose e => Connection.lose e
  | .expire => Connection.runOut 0
  | .cancel => Connection.cancel 0

/-- The bytes that arrive in an incident. -/
def piece (i : Incident) : Bytes := i.event.piece

variable (i : Incident) (c : Connection Listener)

theorem operate_eq : (i.operate c).1 = (c.step i.event).followAll.1 := by
  cases i <;> rfl

theorem reports_operate : Connection.Reports c (i.operate c) := by
  cases i with
  | receive piece => exact Connection.reports_receive piece c
  | lose e => exact Connection.reports_lose e c
  | expire => exact (Connection.reports_expire 0 c).trans (Connection.reports_followAll _)
  | cancel => exact Connection.reports_cancel 0 c

theorem due_operate : (i.operate c).1.due = [] := by
  rw [operate_eq]
  exact Connection.due_followAll _

/-- An incident does not close the connection, but the transport may be lost in it. -/
theorem flags_operate :
    (i.operate c).1.closing = c.closing ∧
      (i.operate c).1.attached = (c.attached && !i.event.ends) := by
  have hquiet : Connection.Quiet _ (c.step i.event).followAll.1 := Connection.quiet_followMany _ _
  have hsame := Connection.step_outside c i.event
  rw [operate_eq, hquiet.sameOutside.closing_eq, hquiet.attached_eq, hsame.closing_eq,
    hsame.attached_eq]
  cases i with
  | lose e => exact ⟨rfl, (Bool.and_false _).symm⟩
  | receive | expire | cancel => exact ⟨rfl, (Bool.and_true _).symm⟩

/-- Without the loss of the transport the connection is as open as before. -/
theorem open_operate (he : i.event.ends = false) :
    (i.operate c).1.attached = c.attached ∧ (i.operate c).1.isClosed = c.isClosed := by
  obtain ⟨hclosing, hattached⟩ := i.flags_operate c
  rw [he, Bool.not_false, Bool.and_true] at hattached
  refine ⟨hattached, ?_⟩
  rw [Connection.isClosed, Connection.isClosed, hclosing, hattached]

/-- The events of the connection in an incident. -/
def events : List (Event Listener) :=
  i.event :: List.replicate (c.step i.event).due.length .follow

theorem operate_eq_run : (i.operate c).1 = c.run (i.events c) := by
  rw [operate_eq, Connection.followAll, Connection.followMany_eq_run, events, Connection.run_cons]

theorem received_append_events (es : List (Event Listener)) :
    received (es ++ i.events c) = received es ++ i.piece := by
  rw [received_append]
  exact congrArg _ (Connection.received_follows _ _)

theorem spares_events (hi : i.event.spares 0 = true) : ∀ e ∈ i.events c, e.spares 0 = true :=
  Connection.spares_follows hi _

end Incident

namespace Session

/-- What an incident does to a session in which a client waits for its connection. -/
def meet (s : Session) : Incident → Session
  | .receive piece => s.receive piece
  | .lose e => s.lose e
  | .expire => s.happen (Connection.runOut 0)
  | .cancel => (s.cancel 0).1

/-- What the incidents of a run do to a session. -/
def meetAll (s : Session) (is : List Incident) : Session :=
  is.foldl meet s

@[simp] theorem meetAll_nil (s : Session) : s.meetAll [] = s := rfl

@[simp] theorem meetAll_snoc (s : Session) (is : List Incident) (i : Incident) :
    s.meetAll (is ++ [i]) = (s.meetAll is).meet i := List.foldl_concat ..

/-- A handle that has ended stays as it is. -/
theorem endingsStay_meet (s : Session) (i : Incident) : s.EndingsStay (s.meet i) := by
  have hhappen (s : Session)
      (f : Connection Listener → Connection Listener × List (Notice Listener)) :
      s.EndingsStay (s.happen f) := by
    cases hc : s.connection with
    | none => exact kept_endingsStay.happen_of_none hc f
    | some c => exact kept_endingsStay.happen hc f
  cases i with
  | receive piece => exact hhappen s _
  | lose e => exact kept_endingsStay.trans (hhappen s _) (kept_endingsStay.endClosers _)
  | expire => exact hhappen s _
  | cancel => exact kept_endingsStay.cancel (fun _ _ _ _ _ _ he => he) 0 s

theorem endingsStay_meetAll (s : Session) (is : List Incident) : s.EndingsStay (s.meetAll is) := by
  induction is using List.reverseRec with
  | nil => exact kept_endingsStay.refl s
  | append_singleton is i ih =>
    rw [meetAll_snoc]
    exact kept_endingsStay.trans ih (endingsStay_meet _ i)

/-- In a run a client that connects is told how its waiting ends, and before the last incident it was not
told anything. -/
structure ToldIn (s : Session) (is : List Incident) (e : Ending) : Prop where
  told : (s.meetAll is).ending? 0 = some e
  pending : is ≠ [] → (s.meetAll is.dropLast).ending? 0 = none

/-- Whoever was told at once is told in no longer run. -/
theorem ToldIn.eq_nil {s : Session} {is : List Incident} {e a : Ending} (h : s.ToldIn is e)
    (ha : s.ending? 0 = some a) : is = [] := by
  by_contra hne
  cases (h.pending hne).symm.trans (endingsStay_meetAll s is.dropLast 0 a ha)

/-- The selection of the database was sent, and its client was not told the outcome. -/
def Asks (s : Session) : Prop :=
  ∃ c, s.connection = some c ∧ c.listener? 0 = some (.connecting 0) ∧ c.outcome? 0 = none

end Session

/-! ## A client that waits -/

/-- What becomes of the connection `c` when the client that waits for it is told `e` in the incident
`last`. The session was `s` before, and the bytes `heard` had arrived. -/
structure ConnectingEnds (s : Session) (heard : Bytes) (last : Option Incident) (e : Ending)
    (c : Connection Listener) : Prop where
  returned : ∀ r, e = .result r → (∃ shown, r = .client c.address shown) ∧ c.isClosed = false
  /-- The client closed the connection, and the transport was lost. -/
  failed : ∀ x, e = .failed x → c.closing = true ∧ c.attached = false
  /-- A transport is left behind if the reply was still to come and no fault was found. -/
  cancelled : e = .cancelled → last = some .cancel ∧
    (¬ c.TransportEnds ↔ s.Asks ∧ (Reader.start.feed heard).2.fault = none)

namespace ConnectingEnds

variable {s : Session} {heard : Bytes} {last : Option Incident} {c : Connection Listener}

theorem of_returned (shown : Text) (hc : c.isClosed = false) :
    ConnectingEnds s heard last (.result (.client c.address shown)) c where
  returned := by
    rintro _ ⟨⟩
    exact ⟨⟨shown, rfl⟩, hc⟩
  failed := by rintro _ ⟨⟩
  cancelled := by rintro ⟨⟩

theorem of_failed {x : Error} (hc : c.closing = true) (ha : c.attached = false) :
    ConnectingEnds s heard last (.failed x) c where
  returned := by rintro _ ⟨⟩
  failed _ _ := ⟨hc, ha⟩
  cancelled := by rintro ⟨⟩

theorem of_cancelled
    (h : ¬ c.TransportEnds ↔ s.Asks ∧ (Reader.start.feed heard).2.fault = none) :
    ConnectingEnds s heard (some .cancel) .cancelled c where
  returned := by rintro _ ⟨⟩
  failed := by rintro _ ⟨⟩
  cancelled _ := ⟨rfl, h⟩

end ConnectingEnds

/-- The waiting for a connection is over. -/
def Over (s : Session) (heard : Bytes) (last : Option Incident) (t : Session) : Prop :=
  ∃ e c, t.connection = some c ∧ t.ending? 0 = some e ∧ ConnectingEnds s heard last e c

section Waiting

variable (address : Value × Value) (timeout : Timeout) (es : List (Event Listener))
  (c : Connection Listener) (s : Session)

/-- A client waits for the reply to the selection of its database. -/
structure Asking : Prop where
  connection : s.connection = some c
  handles : s.handles = [⟨.exchange 0, none⟩]
  closers : s.closers = []
  run_eq : c = (Connection.start address timeout).run es
  /-- Nobody gave the selection up. -/
  spared : timeout.atOnce? = none ∧ ∀ e ∈ es, e.spares 0 = true
  due : c.due = []
  closing : c.closing = false
  attached : c.attached = true
  role : c.role? 0 = some .plain
  listener : c.listener? 0 = some (.connecting 0)
  sole : ∀ t, t ≠ 0 → c.listener? t = none
  pending : c.outcome? 0 = none

/-- A client has given up its connection and waits for the loss of the transport. -/
structure Leaving : Prop where
  connection : s.connection = some c
  handles : s.handles = [⟨.alone, none⟩]
  closers : ∃ e, s.closers = [(0, .failed e)]
  run_eq : c = (Connection.start address timeout).run es
  closing : c.closing = true
  attached : c.attached = true
  allTold : c.AllTold

/-- A client waits for its connection, and the bytes `heard` have arrived. -/
def Connecting (heard : Bytes) : Prop :=
  ∃ es c, received es = heard ∧ (Asking address timeout es c s ∨ Leaving address timeout es c s)

end Waiting

variable {address : Value × Value} {timeout : Timeout} {es : List (Event Listener)}
  {c : Connection Listener} {s : Session} {heard : Bytes}

namespace Session

/-- The connection given up because of an error, while the transport is there. -/
theorem leaving_giveUpConnecting {source : Source} (hc : s.connection = some c)
    (hh : s.handles = [⟨source, none⟩]) (hcl : s.closers = [])
    (hr : c = (Connection.start address timeout).run es) (ha : c.attached = true) (ht : c.AllTold)
    (e : Error) :
    Leaving address timeout (es ++ [.close]) c.close (s.giveUpConnecting 0 e) := by
  have hframe := c.close_frame
  have hattached : c.close.attached = true := by rw [hframe]; exact ha
  have hgive : s.giveUpConnecting 0 e =
      { s with
        connection := some c.close
        handles := [⟨.alone, none⟩]
        closers := [(0, .failed e)] } := by
    simp [giveUpConnecting, mapConnection, setSource, isAttached, hc, hh, hcl, hattached]
  rw [hgive]
  refine ⟨rfl, rfl, ⟨e, rfl⟩, ?_, ?_, hattached, ht.of_exchanges ?_⟩
  · rw [Connection.run_append, ← hr]
    rfl
  · rw [hframe]
  · rw [hframe]

/-- The connection given up because of an error, when the transport was lost. -/
theorem giveUpConnecting_of_lost {source : Source} (hc : s.connection = some c)
    (hh : s.handles = [⟨source, none⟩]) (ha : c.attached = false) (e : Error) :
    s.giveUpConnecting 0 e =
      { s with connection := some c.close, handles := [⟨.alone, some (.failed e)⟩] } := by
  have hattached : c.close.attached = false := by rw [c.close_frame]; exact ha
  simp [giveUpConnecting, mapConnection, setSource, isAttached, endHandle, hc, hh, hattached]

end Session

namespace Asking

variable (h : Asking address timeout es c s) (i : Incident)

include h

theorem asks : s.Asks := ⟨c, h.connection, h.listener, h.pending⟩

theorem isClosed_eq_false : c.isClosed = false := by
  rw [Connection.isClosed, h.closing, h.attached]
  rfl

/-- The connection is sound after every incident, and what is known of the selection stays. -/
theorem sound_operate :
    Sound (GivenUp (.start address timeout) (es ++ i.events c)) (i.operate c).1 ∧
      (i.operate c).1 = (Connection.start address timeout).run (es ++ i.events c) ∧
      (i.operate c).1.role? 0 = some .plain := by
  have hrun : (i.operate c).1 = (Connection.start address timeout).run (es ++ i.events c) := by
    rw [Connection.run_append, ← h.run_eq, i.operate_eq_run]
  refine ⟨?_, hrun, ?_⟩
  · rw [hrun]
    exact sound_run address timeout _
  · rw [i.operate_eq_run]
    exact Connection.role?_run h.role _

/-- The client is told the outcome of the selection, if it has one. -/
theorem happen_operate :
    s.happen i.operate =
      match (i.operate c).1.outcome? 0 with
      | none => { s with connection := some (i.operate c).1 }
      | some o => { s with connection := some (i.operate c).1 }.tell ⟨.connecting 0, o⟩ := by
  have hnotices := (i.reports_operate c).of_sole h.sole h.listener h.pending
  simp only [Session.happen, h.connection, hnotices]
  cases (i.operate c).1.outcome? 0 <;> rfl

theorem told {o : Outcome} (ho : (i.operate c).1.outcome? 0 = some o) :
    (i.operate c).2 = [⟨.connecting 0, o⟩] := by
  have hnotices := (i.reports_operate c).of_sole h.sole h.listener h.pending
  rwa [ho] at hnotices

/-- Only the caller gives the selection up. -/
theorem outcome?_ne_cancelled (hi : i.event.spares 0 = true) :
    (i.operate c).1.outcome? 0 ≠ some .cancelled := by
  obtain ⟨hsound, -, hrole⟩ := h.sound_operate i
  refine hsound.outcome?_ne_cancelled hrole fun o => ?_
  refine not_givenUp_of_spares h.spared.1 (fun e he => ?_) o
  exact (List.mem_append.1 he).elim (h.spared.2 e) (i.spares_events c hi e)

/-- As long as the selection has no outcome, the client waits for it. -/
theorem connecting_of_pending (hi : i.event.spares 0 = true) (he : i.event.ends = false)
    (hn : (i.operate c).1.outcome? 0 = none) :
    Connecting address timeout (s.happen i.operate) (received es ++ i.piece) := by
  obtain ⟨-, hrun, hrole⟩ := h.sound_operate i
  obtain ⟨hclosing, -⟩ := i.flags_operate c
  obtain ⟨ps, hends, -⟩ := i.reports_operate c
  have hhappen := h.happen_operate i
  rw [hn] at hhappen
  rw [hhappen]
  refine ⟨es ++ i.events c, (i.operate c).1, i.received_append_events c es, .inl ?_⟩
  refine ⟨rfl, h.handles, h.closers, hrun, ⟨h.spared.1, fun e hm => ?_⟩, i.due_operate c,
    hclosing.trans h.closing, ?_, hrole, (hends.listener?_eq 0).trans h.listener,
    fun t ht => (hends.listener?_eq t).trans (h.sole t ht), hn⟩
  · exact (List.mem_append.1 hm).elim (h.spared.2 e) (i.spares_events c hi e)
  · exact (i.open_operate c he).1.trans h.attached

/-- A failed selection makes the client give up its connection. -/
theorem connecting_of_failed (he : i.event.ends = false) {x : Error}
    (ho : (i.operate c).1.outcome? 0 = some (.failed x)) :
    Connecting address timeout (s.happen i.operate) (received es ++ i.piece) := by
  obtain ⟨-, hrun, -⟩ := h.sound_operate i
  have hattached := (i.open_operate c he).1.trans h.attached
  have hleaving := Session.leaving_giveUpConnecting
    (s := { s with connection := some (i.operate c).1 }) rfl h.handles h.closers hrun hattached
    ((i.reports_operate c).allTold_of_sole h.sole (by simp [ho])) x
  have hhappen := h.happen_operate i
  rw [ho] at hhappen
  rw [hhappen]
  refine ⟨_, _, ?_, .inr hleaving⟩
  rw [received_append, i.received_append_events]
  exact List.append_nil _

/-- The reply to the selection, whatever it says, makes the client ready. -/
theorem over_of_reply (he : i.event.ends = false) {r : Wire.Reply}
    (ho : (i.operate c).1.outcome? 0 = some (.reply r)) :
    Over s (received es) (some i) (s.happen i.operate) := by
  have hhappen := h.happen_operate i
  rw [ho] at hhappen
  rw [hhappen]
  refine ⟨.result (.client (i.operate c).1.address (Session.clientShown (i.operate c).1)),
    (i.operate c).1, ?_, ?_, .of_returned _ ((i.open_operate c he).2.trans h.isClosed_eq_false)⟩
  · simp [Session.tell, Session.tellWith, Session.becomeReady]
  · simp [Session.tell, Session.tellWith, Session.becomeReady, Session.endHandle, Session.ending?,
      h.handles]

/-- Bytes arrive, and perhaps the reply. -/
theorem receive (piece : Bytes) :
    Connecting address timeout (s.meet (.receive piece)) (received es ++ piece) ∨
      Over s (received es) (some (.receive piece)) (s.meet (.receive piece)) := by
  cases ho : ((Incident.receive piece).operate c).1.outcome? 0 with
  | none => exact .inl (h.connecting_of_pending (.receive piece) rfl rfl ho)
  | some o =>
    cases o with
    | reply r => exact .inr (h.over_of_reply (.receive piece) rfl ho)
    | failed x => exact .inl (h.connecting_of_failed (.receive piece) rfl ho)
    | cancelled => exact absurd ho (h.outcome?_ne_cancelled (.receive piece) rfl)

/-- The transport is lost, by which the selection fails. -/
theorem lose (x : Option Error) : Over s (received es) (some (.lose x)) (s.meet (.lose x)) := by
  set i : Incident := .lose x with hi
  obtain ⟨hsound, -, hrole⟩ := h.sound_operate i
  have hattached : (i.operate c).1.attached = false := by
    rw [(i.flags_operate c).2]
    exact Bool.and_false _
  -- no place is left without an answer
  obtain ⟨a, ha⟩ := hsound.answered_of_lost hattached (Connection.lt_of_role? hrole)
  obtain ⟨o, ho⟩ :=
    Option.ne_none_iff_exists'.1 (hsound.outcome?_of_answered (i.due_operate c) hrole ha)
  have hreply : o.isReply = false := by
    refine Connection.isReply_lose h.due (e := x) (n := ⟨.connecting 0, o⟩) ?_
    exact (h.told i ho).symm ▸ List.mem_singleton_self _
  have hhappen := h.happen_operate i
  rw [ho] at hhappen
  cases o with
  | reply r => cases hreply
  | cancelled => exact absurd ho (h.outcome?_ne_cancelled i rfl)
  | failed e =>
    have hgive := Session.giveUpConnecting_of_lost
      (s := { s with connection := some (i.operate c).1 }) rfl h.handles hattached e
    have hmeet : s.meet i = Session.endClosers
        { s with
          connection := some (i.operate c).1.close
          handles := [⟨.alone, some (.failed e)⟩] } :=
      congrArg Session.endClosers (hhappen.trans hgive)
    rw [hmeet]
    have hclose := Connection.close_frame (i.operate c).1
    refine ⟨.failed e, (i.operate c).1.close, ?_, ?_, .of_failed ?_ ?_⟩
    · simp [Session.endClosers, h.closers]
    · simp [Session.endClosers, h.closers, Session.ending?]
    · rw [hclose]
    · rw [hclose]
      exact hattached

/-- The timeout of the selection runs out, by which the selection fails. -/
theorem expire : Connecting address timeout (s.meet .expire) (received es) := by
  have hexpire : (c.expire 0).1.outcome? 0 = some (.failed .timedOut) := by
    have hlt := Connection.lt_of_role? h.role
    rcases Connection.expire_cases 0 c with ⟨-, hended⟩ | ⟨-, hqueued, -⟩ | ⟨-, -, he⟩
    · exact absurd h.pending (hended.resolve_right (Nat.not_le.2 hlt))
    · cases hqueued.symm.trans h.role
    · rw [he, Connection.outcome?_vacate, Connection.outcome?_settle, if_pos ⟨rfl, hlt⟩, h.pending]
      rfl
  -- it stays the outcome
  have ho : (Incident.expire.operate c).1.outcome? 0 = some (.failed .timedOut) := by
    rw [Incident.operate_eq_run]
    exact Connection.outcome?_run hexpire _
  have hconnecting := h.connecting_of_failed .expire rfl ho
  have hnone : received es ++ Incident.expire.piece = received es := List.append_nil _
  rwa [hnone] at hconnecting

/-- The caller waits no longer, and the client closes nothing. -/
theorem cancel : Over s (received es) (some .cancel) (s.meet .cancel) := by
  set i : Incident := .cancel with hi
  obtain ⟨hsound, hrun, hrole⟩ := h.sound_operate i
  have hlt := Connection.lt_of_role? h.role
  have hvacate : ∃ a, (c.giveUp 0).1.answer? 0 = some a := by
    rcases Connection.giveUp_cases 0 c with ⟨-, hended⟩ | ⟨-, hqueued, -⟩ | ⟨-, -, he⟩
    · exact absurd h.pending (hended.resolve_right (Nat.not_le.2 hlt))
    · cases hqueued.symm.trans h.role
    · rw [he, Connection.answer?_vacate, if_pos ⟨rfl, hlt⟩]
      cases c.answer? 0 with
      | none => exact ⟨_, rfl⟩
      | some a => exact ⟨a, rfl⟩
  obtain ⟨a, ha⟩ := hvacate
  have hanswer : (i.operate c).1.answer? 0 = some a := by
    rw [i.operate_eq_run]
    exact Connection.answer?_run ha _
  obtain ⟨o, ho⟩ :=
    Option.ne_none_iff_exists'.1 (hsound.outcome?_of_answered (i.due_operate c) hrole hanswer)
  obtain rfl : o = .cancelled := by
    refine Connection.outcome_cancel h.due (t := 0) (n := ⟨.connecting 0, o⟩) ?_
    exact (h.told i ho).symm ▸ List.mem_singleton_self _
  have hhappen := h.happen_operate i
  rw [ho] at hhappen
  have hmeet : s.meet i = s.happen i.operate := by
    simp only [hi, Session.meet, Session.cancel, h.handles, List.getElem?_cons_zero,
      Session.cancelSource]
    rfl
  rw [hmeet, hhappen]
  refine ⟨.cancelled, (i.operate c).1, ?_, ?_, .of_cancelled ?_⟩
  · simp [Session.tell, Session.tellWith]
  · simp [Session.tell, Session.tellWith, Session.endHandle, Session.ending?, h.handles]
  · -- only a fault in what arrived before has closed the transport
    have hends := (Connection.endsBy_run address timeout (es ++ i.events c)).transport
    have hclosed := (i.open_operate c rfl).2.trans h.isClosed_eq_false
    have hreceived : received (es ++ i.events c) = received es :=
      (i.received_append_events c es).trans (List.append_nil _)
    rw [← hrun, hclosed, hreceived] at hends
    rw [hends]
    simp [h.asks]

end Asking

namespace Leaving

variable (h : Leaving address timeout es c s) (i : Incident)

include h

theorem not_asks : ¬ s.Asks := by
  rintro ⟨d, hd, hl, hn⟩
  obtain rfl := Option.some.inj (h.connection.symm.trans hd)
  exact h.allTold 0 (by simp [hl]) hn

/-- The client was told all, and hears no more of its connection. -/
theorem happen_operate :
    s.happen i.operate = { s with connection := some (i.operate c).1 } := by
  have hnotices := ((i.reports_operate c).of_allTold h.allTold).1
  simp only [Session.happen, h.connection, hnotices]
  rfl

/-- As long as the transport is there, the client waits for its loss. -/
theorem connecting (he : i.event.ends = false) :
    Connecting address timeout (s.happen i.operate) (received es ++ i.piece) := by
  obtain ⟨hclosing, -⟩ := i.flags_operate c
  rw [h.happen_operate]
  refine ⟨es ++ i.events c, (i.operate c).1, i.received_append_events c es, .inr ?_⟩
  refine ⟨rfl, h.handles, h.closers, ?_, hclosing.trans h.closing,
    (i.open_operate c he).1.trans h.attached, ((i.reports_operate c).of_allTold h.allTold).2⟩
  rw [Connection.run_append, ← h.run_eq, i.operate_eq_run]

/-- The transport is lost, and the client fails with the error because of which it gave up. -/
theorem lose (x : Option Error) : Over s (received es) (some (.lose x)) (s.meet (.lose x)) := by
  obtain ⟨e, he⟩ := h.closers
  obtain ⟨hclosing, hattached⟩ := (Incident.lose x).flags_operate c
  have hmeet : s.meet (.lose x) = Session.endClosers
      { s with connection := some ((Incident.lose x).operate c).1 } :=
    congrArg Session.endClosers (h.happen_operate (.lose x))
  rw [hmeet]
  refine ⟨.failed e, ((Incident.lose x).operate c).1, ?_, ?_,
    .of_failed (hclosing.trans h.closing) (hattached.trans (Bool.and_false _))⟩
  · simp [Session.endClosers, he]
  · simp [Session.endClosers, he, Session.endHandle, Session.ending?, h.handles]

/-- The caller waits no longer, but the connection is closed already. -/
theorem cancel : Over s (received es) (some .cancel) (s.meet .cancel) := by
  have hends := (Connection.endsBy_run address timeout es).transport
  rw [← h.run_eq] at hends
  have hclosed : c.isClosed = true := by
    rw [Connection.isClosed, h.closing]
    rfl
  refine ⟨.cancelled, c, ?_, ?_, .of_cancelled ?_⟩
  · simp [Session.meet, Session.cancel, Session.cancelSource, h.handles, h.connection]
  · simp [Session.meet, Session.cancel, Session.cancelSource, Session.endHandle, Session.ending?,
      h.handles]
  · exact iff_of_false (not_not_intro (hends.2 (.inl hclosed))) fun hasks => h.not_asks hasks.1

end Leaving

namespace Connecting

variable (h : Connecting address timeout s heard)

include h

theorem ending?_eq_none : s.ending? 0 = none := by
  obtain ⟨es, c, -, h | h⟩ := h <;> simp [Session.ending?, h.handles]

/-- What an incident does to a client that waits. -/
theorem meet (i : Incident) :
    Connecting address timeout (s.meet i) (heard ++ i.piece) ∨ Over s heard (some i) (s.meet i) := by
  obtain ⟨es, c, rfl, h | h⟩ := h
  · cases i with
    | receive piece => exact h.receive piece
    | lose x => exact .inr (h.lose x)
    | expire => exact .inl ((List.append_nil (received es)).symm ▸ h.expire)
    | cancel => exact .inr h.cancel
  · cases i with
    | receive piece => exact .inl (h.connecting (.receive piece) rfl)
    | lose x => exact .inr (h.lose x)
    | expire => exact .inl (h.connecting .expire rfl)
    | cancel => exact .inr h.cancel

/-- The loss of the transport is the end of the waiting. -/
theorem over_of_lose (x : Option Error) : Over s heard (some (.lose x)) (s.meet (.lose x)) := by
  obtain ⟨es, c, rfl, h | h⟩ := h
  · exact h.lose x
  · exact h.lose x

/-- A client waits in a run as long as it was not told anything. -/
theorem meetAll (is : List Incident) (hn : (s.meetAll is).ending? 0 = none) :
    Connecting address timeout (s.meetAll is) (heard ++ is.flatMap Incident.piece) := by
  induction is using List.reverseRec with
  | nil => simpa using h
  | append_singleton is i ih =>
    rw [Session.meetAll_snoc] at hn ⊢
    -- what the client was told before it would know now
    have hbefore : (s.meetAll is).ending? 0 = none :=
      Session.pending_of_stays (Session.endingsStay_meet _ i 0) hn
    rcases (ih hbefore).meet i with hconnecting | ⟨e, c, -, he, -⟩
    · simpa using hconnecting
    · cases hn.symm.trans he

end Connecting

/-! ## The selection -/

namespace Session

variable {a : Value × Value} {t : Timeout}

/-- A selection that was sent: the client waits for the reply, unless the timeout has expired. -/
theorem connecting_of_sent {d : Value} {data : Bytes} (hh : s.handles = [⟨.alone, none⟩])
    (hcl : s.closers = [])
    (hr : (Connection.start a t : Connection Listener).requestOf (word "SELECT") [d] = .ok data) :
    let sent := (Connection.start a t : Connection Listener).execute (word "SELECT") [d] (.connecting 0)
    Connecting a t (({ s with connection := some sent.connection }.setSource 0 (.exchange 0)).tellEarly
      sent.notices) [] := by
  intro sent
  obtain ⟨-, hnotices, hclosing, hattached, hdue, answer, hx⟩ :=
    Connection.execute_start (l := Listener.connecting 0) hr rfl
  obtain ⟨n, hrun⟩ := Connection.execute_run (word "SELECT") [d] (Listener.connecting 0)
    (Connection.start a t)
  set es : List (Event Listener) := Event.submit (word "SELECT") [d] (.connecting 0) ::
    List.replicate n .follow with hes
  have hreceived : received es = [] := Connection.received_follows _ n
  have hspared : ∀ e ∈ es, e.spares 0 = true := Connection.spares_follows rfl n
  have hsole (u : Ticket) (hu : u ≠ 0) : sent.connection.listener? u = none := by
    rw [Connection.listener?, hx, List.getElem?_singleton, if_neg hu]
    rfl
  have hsource : { s with connection := some sent.connection }.setSource 0 (.exchange 0) =
      { s with connection := some sent.connection, handles := [⟨.exchange 0, none⟩] } := by
    simp [setSource, hh]
  rw [hsource, hnotices]
  -- a timeout that has expired ends the selection before any reply
  cases ht : t.atOnce? with
  | none =>
    rw [ht] at hx
    refine ⟨es, sent.connection, hreceived, .inl ?_⟩
    refine ⟨rfl, rfl, hcl, hrun, ⟨ht, hspared⟩, hdue, hclosing, hattached, ?_, ?_, hsole, ?_⟩
    · rw [Connection.role?, hx]
      rfl
    · rw [Connection.listener?, hx]
      rfl
    · rw [Connection.outcome?, hx]
      rfl
  | some e =>
    rw [ht] at hx
    have htold : sent.connection.AllTold := by
      intro u hu
      by_cases h0 : u = 0
      · rw [h0, Connection.outcome?, hx]
        simp
      · exact absurd (hsole u h0) hu
    have hleaving := leaving_giveUpConnecting
      (s := { s with connection := some sent.connection, handles := [⟨.exchange 0, none⟩] })
      rfl rfl hcl hrun hattached htold e
    refine ⟨_, _, ?_, .inr hleaving⟩
    rw [received_append, hreceived]
    rfl

/-- A client that selects its database waits for the reply, or for the loss of a connection that it gave
up at once. -/
theorem connecting_sendSelect (d : Value) (hc : s.connection = some (.start a t))
    (hh : s.handles = [⟨.alone, none⟩]) (hcl : s.closers = []) :
    Connecting a t (s.sendSelect d 0 (.connecting 0) fun e s => s.giveUpConnecting 0 e) [] := by
  have hgive (e : Error) : Connecting a t (s.giveUpConnecting 0 e) [] := by
    have htold : (Connection.start a t : Connection Listener).AllTold :=
      fun _ ht => absurd rfl ht
    have hleaving := leaving_giveUpConnecting hc hh hcl (Connection.run_nil _).symm rfl htold e
    exact ⟨_, _, rfl, .inr hleaving⟩
  unfold sendSelect
  cases checkDatabase d with
  | error e => exact hgive e
  | ok u =>
    cases hr : (Connection.start a t : Connection Listener).requestOf (word "SELECT") [d] with
    | error e =>
      -- nothing was sent
      have hexecute : (Connection.start a t).execute (word "SELECT") [d] (Listener.connecting 0) =
          ⟨.start a t, [], .error e⟩ := by
        simp only [Connection.execute, Connection.submit, hr]
        rfl
      have hsame : { s with connection := some (.start a t) } = s := by rw [← hc]
      simp only [send, hc, hexecute, tellEarly, List.foldl_nil, hsame]
      exact hgive e
    | ok data =>
      obtain ⟨hticket, -⟩ := Connection.execute_start (l := Listener.connecting 0) hr rfl
      simp only [send, hc, hticket]
      exact connecting_of_sent hh hcl hr

end Session

/-- A client whose transport was opened has its connection, or waits for it. -/
theorem connect_cases {address db timeout : Value} {refusal : Option Text}
    {a : Value × Value} {d : Value} {t : Timeout}
    (ho : Session.opening address db timeout refusal = .ok (a, d, t)) (heard : Bytes) (s : Session) :
    Over s heard none (Session.empty.connect address db timeout refusal) ∨
      Connecting a t (Session.empty.connect address db timeout refusal) [] := by
  simp only [Session.connect, ho]
  split
  · left
    refine ⟨.result (.client a (Session.clientShown (.start a t))), .start a t, rfl, rfl, ?_⟩
    exact .of_returned (c := .start a t) _ rfl
  · exact .inr (Session.connecting_sendSelect d rfl rfl rfl)

/-- The connection of a client that waited, when it is told how that ends. -/
theorem Connecting.ends (h : Connecting address timeout s []) {is : List Incident} {e : Ending}
    (ht : s.ToldIn is e) :
    ∃ c, (s.meetAll is).connection = some c ∧
      ConnectingEnds (s.meetAll is.dropLast) (is.dropLast.flatMap Incident.piece) is.getLast? e c := by
  rcases List.eq_nil_or_concat is with rfl | ⟨before, i, rfl⟩
  · cases h.ending?_eq_none.symm.trans ht.told
  · rw [List.concat_eq_append] at ht ⊢
    obtain ⟨htold, hpending⟩ := ht
    rw [List.dropLast_concat] at hpending ⊢
    rw [Session.meetAll_snoc] at htold ⊢
    rw [List.getLast?_concat]
    rcases (h.meetAll before (hpending (by simp))).meet i with hstill | ⟨a, c, hc, ha, hends⟩
    · cases hstill.ending?_eq_none.symm.trans htold
    · obtain rfl := Option.some.inj (htold.symm.trans ha)
      exact ⟨c, hc, hends⟩

/-- A client that connects, in every run of incidents until it is told how that ends. If there is no
transport, it is told so at once. If it is given the connection, this is not closed. If it fails, it has
closed the connection, and the transport was lost. If its caller waits no longer, the transport was told
to close or was lost before, but for one case: the reply to the selection was still to come, and what
had arrived has no fault. The loss of the transport ends the waiting. -/
theorem connecting_closes_transport (address db timeout : Value) (refusal : Option Text) :
    let s := Session.empty.connect address db timeout refusal
    (∀ (is : List Incident) (e : Ending), s.ToldIn is e →
      match Session.opening address db timeout refusal with
      | .error x => e = .failed x ∧ (s.meetAll is).connection = none
      | .ok _ => ∃ c, (s.meetAll is).connection = some c ∧
          ConnectingEnds (s.meetAll is.dropLast) (is.dropLast.flatMap Incident.piece) is.getLast? e c) ∧
    ∀ (is : List Incident) (x : Option Error), (s.meetAll (is ++ [.lose x])).ending? 0 ≠ none := by
  intro s
  have hstays {is : List Incident} {e : Ending} (he : s.ending? 0 = some e) :
      (s.meetAll is).ending? 0 ≠ none := by
    rw [Session.endingsStay_meetAll s is 0 e he]
    simp
  cases ho : Session.opening address db timeout refusal with
  | error x =>
    have hs : s = Session.empty.addEnded (.failed x) := by
      simp only [s, Session.connect, ho]
    have hfailed : s.ending? 0 = some (.failed x) := by
      rw [hs]
      rfl
    refine ⟨fun is e ht => ?_, fun is x => hstays hfailed⟩
    obtain rfl := ht.eq_nil hfailed
    refine ⟨Option.some.inj (ht.told.symm.trans hfailed), ?_⟩
    rw [Session.meetAll_nil, hs]
    rfl
  | ok target =>
    obtain ⟨a, d, t⟩ := target
    rcases connect_cases ho [] s with ⟨e', c, hc, he', hends⟩ | hconnecting
    · -- no database is wanted
      refine ⟨fun is e ht => ?_, fun is x => hstays he'⟩
      obtain rfl := ht.eq_nil he'
      obtain rfl := Option.some.inj (ht.told.symm.trans he')
      exact ⟨c, hc, hends⟩
    · refine ⟨fun is e ht => hconnecting.ends ht, fun is x => ?_⟩
      rw [Session.meetAll_snoc]
      cases hp : (s.meetAll is).ending? 0 with
      | some e =>
        rw [Session.endingsStay_meet _ _ 0 e hp]
        simp
      | none =>
        obtain ⟨e, c, -, he, -⟩ := (hconnecting.meetAll is hp).over_of_lose x
        rw [he]
        simp

/-- A client that asks for a database. -/
def selectingClient : Session :=
  Session.empty.connect (.list [.text (.ofString "h"), .int 1]) (.int 1) .none none

/-- The server refuses the selection, and the transport is lost. -/
def refusedSelection : List Incident :=
  [.receive (Bytes.ascii "-ERR\r\n"), .lose none]

/-- Whoever is refused has closed the connection, and whoever waits no longer has not. -/
theorem connecting_closes_transport_refused :
    selectingClient.ToldIn refusedSelection (.failed (.reply (.ofString "ERR"))) ∧
      (∃ c, (selectingClient.meetAll refusedSelection).connection = some c ∧ c.closing = true ∧
        c.attached = false) ∧
      selectingClient.ToldIn [.cancel] .cancelled ∧
      ∃ c, (selectingClient.meetAll [.cancel]).connection = some c ∧ ¬ c.TransportEnds := by
  have hrefused : selectingClient.ToldIn refusedSelection (.failed (.reply (.ofString "ERR"))) :=
    ⟨by with_unfolding_all rfl, fun _ => by with_unfolding_all rfl⟩
  have hcancelled : selectingClient.ToldIn [.cancel] .cancelled := ⟨rfl, fun _ => rfl⟩
  obtain ⟨hends, -⟩ := connecting_closes_transport (.list [.text (.ofString "h"), .int 1]) (.int 1)
    .none none
  obtain ⟨c, hc, h⟩ := hends refusedSelection _ hrefused
  obtain ⟨d, hd, h'⟩ := hends [.cancel] _ hcancelled
  refine ⟨hrefused, ⟨c, hc, h.failed _ rfl⟩, hcancelled, d, hd, ?_⟩
  exact (h'.cancelled rfl).2.2 ⟨⟨_, rfl, rfl, rfl⟩, by decide +kernel⟩

/-- Not every client that is not given its connection has closed the transport. -/
theorem not_connecting_closes_transport :
    ¬ ∀ (address db timeout : Value) (refusal : Option Text) (is : List Incident) (e : Ending)
      (c : Connection Listener),
      let s := (Session.empty.connect address db timeout refusal).meetAll is
      s.ending? 0 = some e → s.connection = some c →
        (∃ r, e = .result r) ∧ c.closing = false ∨ c.TransportEnds := by
  intro h
  have hcancelled := h (.list [.text (.ofString "h"), .int 1]) (.int 1) .none none [.cancel] .cancelled
    _ rfl rfl
  rcases hcancelled with ⟨⟨r, hr⟩, -⟩ | hcloses | hlost
  · cases hr
  · cases hcloses
  · cases hlost

end SortedSets

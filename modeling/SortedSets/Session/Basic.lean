import SortedSets.Command.Method
import SortedSets.Connection.Basic

/-!
# Sessions

A session is what a client program does with one connection. Each awaited result is a handle: it
is pending until it ends with a result, with an error, or by being given up. Batches queue
commands that are sent together, and cursors scan sets.

Nothing in a session runs by itself: an operation of the client or an event of the transport is
carried through to all its consequences before the next one.

## Main definitions

* `Result`, `Ending`, `Handle`: awaited results
* `Batch`, `Slot`, `Run`: commands queued to be sent together
* `Listener`: who waits for the outcome of an exchange
* `Session`
-/

namespace SortedSets

/-- The number of a handle in the order of creation. -/
abbrev HandleId := Nat

/-- The number of a batch in the order of creation. -/
abbrev BatchId := Nat

/-- The number of a cursor in the order of creation. -/
abbrev CursorId := Nat

/-- What is awaited. -/
inductive Result where
  | value (v : Value)
  | page (p : Page)
  /-- The replies to the commands of a batch, in the order of the calls. -/
  | batch (replies : List (Except Error Converted))
  /-- A client, shown as messages show it. -/
  | client (address : Value × Value) (shown : Text)

/-- How a handle ends. -/
inductive Ending where
  | result (r : Result)
  | failed (e : Error)
  | cancelled

/-- What giving up a handle gives up with it. -/
inductive Source where
  /-- An exchange of the connection. -/
  | exchange (t : Ticket)
  /-- The place of a command in a batch. -/
  | slot (b : BatchId) (i : Nat)
  /-- All commands of a batch that was sent. -/
  | run (b : BatchId)
  /-- Nothing else. -/
  | alone
deriving DecidableEq, Repr

/-- An awaited result. -/
structure Handle where
  source : Source
  ending : Option Ending

/-- A command queued in a batch, and the handle of its converted reply. A filled slot has its
reply, its error, or was given up. -/
structure Slot where
  command : Command
  handle : HandleId
  filled : Bool

/-- A batch that was sent: the handle of the whole, the exchanges it waits for, and how many of
them have not ended. -/
structure Run where
  handle : HandleId
  /-- Failed commands leave their errors among the results. -/
  collectsErrors : Bool
  tickets : List Ticket
  outstanding : Nat
  /-- The whole was given up. -/
  cancelled : Bool

/-- Commands queued to be sent together, perhaps as a transaction. A batch is sent once. -/
structure Batch where
  transactional : Bool
  slots : List Slot
  spent : Bool
  run : Option Run

/-- The mode in which a batch takes commands. -/
def Batch.mode (b : Batch) : Mode :=
  if b.transactional then .transactional else .pipelined

/-- Who waits for the outcome of an exchange. -/
inductive Listener where
  /-- A handle of the reply as it is. -/
  | direct (h : HandleId)
  /-- A handle of the converted reply to a command sent at once. -/
  | converting (h : HandleId) (c : Conversion)
  /-- A handle of the converted reply to a command of a transaction. -/
  | deferred (h : HandleId) (c : Conversion)
  /-- A handle that asks whether the database was selected. -/
  | selecting (h : HandleId)
  /-- A batch, for the commands around it. -/
  | frame (b : BatchId)
  /-- A command of a batch. -/
  | slot (b : BatchId) (i : Nat)
  /-- A step of a cursor. -/
  | fetching (h : HandleId) (c : CursorId) (step : Step)
  /-- A client that is about to be ready. -/
  | connecting (h : HandleId)
deriving DecidableEq, Repr

/-- A scan of a set. -/
structure Scan where
  key : Value
  cursor : Cursor ScanOptions

/-- What a client program does with one connection. -/
structure Session where
  connection : Option (Connection Listener)
  /-- The client has its connection. -/
  ready : Bool
  handles : List Handle
  batches : List Batch
  scans : List Scan
  /-- Handles that end when the transport is lost, and how. -/
  closers : List (HandleId × Ending)

namespace Session

/-- A session without a connection. -/
def empty : Session where
  connection := none
  ready := false
  handles := []
  batches := []
  scans := []
  closers := []

/-- A session whose client has a connection. -/
def connected (address : Value × Value) (timeout : Timeout) : Session :=
  { empty with connection := some (.start address timeout), ready := true }

/-- The handle that the next operation would create. -/
def nextHandle (s : Session) : HandleId :=
  s.handles.length

/-- A new handle. -/
def addHandle (source : Source) (s : Session) : Session :=
  { s with handles := s.handles ++ [⟨source, none⟩] }

/-- The end of a handle; a handle ends once. -/
def endHandle (h : HandleId) (e : Ending) (s : Session) : Session :=
  match s.handles[h]? with
  | some ⟨source, none⟩ => { s with handles := s.handles.set h ⟨source, some e⟩ }
  | _ => s

/-- What giving up a handle gives up with it, from now on. -/
def setSource (h : HandleId) (source : Source) (s : Session) : Session :=
  match s.handles[h]? with
  | some x => { s with handles := s.handles.set h { x with source := source } }
  | none => s

/-- A handle that has ended as soon as it is there. -/
def addEnded (e : Ending) (s : Session) : Session :=
  { s with handles := s.handles ++ [⟨.alone, some e⟩] }

/-- The end of a handle as the outcome of something that can fail. -/
def endingOf (r : Except Error Result) : Ending :=
  match r with
  | .ok r => .result r
  | .error e => .failed e

/-- A batch changed. -/
def setBatch (b : BatchId) (x : Batch) (s : Session) : Session :=
  { s with batches := s.batches.set b x }

/-- A cursor changed. -/
def setCursor (c : CursorId) (x : Cursor ScanOptions) (s : Session) : Session :=
  match s.scans[c]? with
  | some scan => { s with scans := s.scans.set c { scan with cursor := x } }
  | none => s

/-- A command sent over the connection of the session. -/
def send (name : Value) (args : List Value) (l : Listener) (s : Session) :
    Session × List (Notice Listener) × Except Error Ticket :=
  match s.connection with
  | none => (s, [], .error (.closed .before))
  | some c =>
    let sent := c.execute name args l
    ({ s with connection := some sent.connection }, sent.notices, sent.ticket)

/-- The connection of the session changed. -/
def mapConnection (f : Connection Listener → Connection Listener) (s : Session) : Session :=
  { s with connection := s.connection.map f }

/-- The connection is there and was not lost. -/
def isAttached (s : Session) : Bool :=
  s.connection.any fun c => c.attached

/-- The mode of the connection. -/
def mode (s : Session) : Mode :=
  match s.connection with
  | some c => c.mode
  | none => .direct

end Session

end SortedSets

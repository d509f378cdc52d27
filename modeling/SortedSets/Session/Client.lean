import SortedSets.Session.Notice
import SortedSets.Url.Target

/-!
# The operations of a client

A client connects, calls methods, sends commands of any name, selects a database, steps cursors,
waits for the end of its connection, and gives up what it no longer waits for. On the other side
bytes arrive and the transport is lost.

## Main definitions

* `Session.connect`: a connection opened for a client
* `Session.call`, `Session.execute`, `Session.select`: commands
* `Session.step`, `Session.closeCursor`: cursors
* `Session.receive`, `Session.lose`, `Session.close`, `Session.awaitClosed`: the connection
-/

namespace SortedSets

namespace Session

/-- What a call of a client returns at once: a handle to wait for, or a cursor. -/
inductive Returned where
  | handle (h : HandleId)
  | cursor (c : CursorId)
deriving DecidableEq, Repr

/-- A command sent for a new handle, which is made only if the command was sent. -/
def sendFor (name : Value) (args : List Value) (l : HandleId → Listener) (alone : Bool)
    (s : Session) : Session × Except Error Returned :=
  let h := s.nextHandle
  let (s, early, r) := s.send name args (l h)
  match r with
  | .error e => (s.tellEarly early, .error e)
  | .ok t =>
    ((s.addHandle (if alone then .alone else .exchange t)).tellEarly early, .ok (.handle h))

/-- A command of any name. -/
def execute (name : Value) (args : List Value) (s : Session) :
    Session × Except Error Returned :=
  s.sendFor name args .direct false

/-- A method of the client called. Inside a transaction the converted reply has a handle of its
own, which can be given up without the command. -/
def call (method : String) (args : List Value) (named : List (String × Value)) (s : Session) :
    Session × Except Error Returned :=
  match Method.named? method with
  | none => (s, .error .noAttribute)
  | some m =>
    match m.call s.mode args named with
    | .error e => (s, .error e)
    | .ok (.scan key cursor) =>
      ({ s with scans := s.scans ++ [⟨key, cursor⟩] }, .ok (.cursor s.scans.length))
    | .ok (.send command) =>
      -- the mode of now decides, not that of the time when the reply comes
      match command.conversion, s.mode with
      | none, _ => s.sendFor (.bytes command.name) command.args .direct false
      | some c, .direct =>
        s.sendFor (.bytes command.name) command.args (fun h => .converting h c) false
      | some c, _ => s.sendFor (.bytes command.name) command.args (fun h => .deferred h c) true

/-- The number of a database as a caller gives it. -/
def checkDatabase (db : Value) : Except Error Unit :=
  match db with
  | .bool _ => .ok ()
  | .int n => if n < 0 then .error (.databaseNegative n) else .ok ()
  | v => .error (.databaseType v)

/-- The command that selects a database, sent for a handle; an error is for `fail`. -/
def sendSelect (db : Value) (h : HandleId) (l : Listener) (fail : Error → Session → Session)
    (s : Session) : Session :=
  match checkDatabase db with
  | .error e => fail e s
  | .ok () =>
    let (s, early, r) := s.send (word "SELECT") [db] l
    match r with
    | .error e => fail e (s.tellEarly early)
    | .ok t => (s.setSource h (.exchange t)).tellEarly early

/-- A database selected. -/
def select (db : Value) (s : Session) : Session :=
  let h := s.nextHandle
  (s.addHandle .alone).sendSelect db h (.selecting h) fun e s => s.endHandle h (.failed e)

/-- A step of a cursor. -/
def step (c : CursorId) (step : Step) (s : Session) : Session :=
  let h := s.nextHandle
  let s := s.addHandle .alone
  match s.scans[c]? with
  | none => s
  | some scan => s.proceed (fun s => s.requestPage h c step) h c (scan.cursor.begin step)

/-- A cursor closed. -/
def closeCursor (c : CursorId) (s : Session) : Session :=
  match s.scans[c]? with
  | none => s
  | some scan => s.setCursor c scan.cursor.close

/-! ## The connection -/

/-- Bytes arrive. -/
def receive (piece : Bytes) (s : Session) : Session :=
  s.happen (Connection.receive piece)

/-- Handles that wait for the end of the connection end. -/
def endClosers (s : Session) : Session :=
  s.closers.foldl (fun s p => s.endHandle p.1 p.2) { s with closers := [] }

/-- The transport is lost, perhaps because of an error. -/
def lose (e : Option Error) (s : Session) : Session :=
  (s.happen (Connection.lose e)).endClosers

/-- The client closes its connection. -/
def close (s : Session) : Session :=
  s.mapConnection Connection.close

/-- A handle that ends with a value when the transport is lost. -/
def awaitClosed (v : Value) (s : Session) : Session :=
  if s.isAttached then
    { s.addHandle .alone with
      closers := s.closers ++ [(s.nextHandle, .result (.value v))] }
  else s.addEnded (.result (.value v))

/-- Commands are gathered, or the gathered commands are written. -/
def setBuffered (on : Bool) (s : Session) : Session :=
  s.mapConnection (if on then Connection.enterBuffer else Connection.leaveBuffer)

/-- What a client is asked to connect to, as a caller gives it: a URL with options of its own,
or a host and a port. -/
def targetOf (address db timeout : Value) : Except Error ((Value × Value) × Value × Value) := do
  match address.text? with
  | some t =>
    let target ← Target.ofText t
    let db := (target.database.map fun n => Value.int n).getD db
    let timeout := (target.timeout.map Value.float).getD timeout
    return ((.text target.host, .int target.port), db, timeout)
  | none =>
    match address with
    | .list [host, port] => return ((host, port), db, timeout)
    | .list _ => throw .badValue
    | v =>
      match v.fields? with
      | some [host, port] => return ((host, port), db, timeout)
      | some _ => throw .badValue
      | none => throw (.assertion (.addressType v))

/-- The timeout of a connection to be opened. -/
def openingTimeout (timeout : Value) : Except Error Timeout :=
  match Timeout.ofValue timeout with
  | .invalid e => .error e
  | t => .ok t

/-- What is needed to open a connection, or the error of a client that does not get so far. -/
def opening (address db timeout : Value) (refusal : Option Text) :
    Except Error ((Value × Value) × Value × Timeout) := do
  let (address, db, timeout) ← targetOf address db timeout
  let timeout ← openingTimeout timeout
  match refusal with
  | some message => throw (.transport message)
  | none => return (address, db, timeout)

/-- A connection opened for a client. If a database is wanted, the client is ready when it was
selected; the connection is closed again if it was not. -/
def connect (address db timeout : Value) (refusal : Option Text) (s : Session) : Session :=
  match opening address db timeout refusal with
  | .error e => s.addEnded (.failed e)
  | .ok (address, db, timeout) =>
    let h := s.nextHandle
    -- from here on there is a connection, whatever becomes of the client
    let s := { s.addHandle .alone with connection := some (.start address timeout) }
    if db.isNone then s.becomeReady h
    else s.sendSelect db h (.connecting h) fun e s => s.giveUpConnecting h e

end Session

end SortedSets

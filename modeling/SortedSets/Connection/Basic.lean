import SortedSets.Connection.Exchange
import SortedSets.Connection.Timeout
import SortedSets.Wire.Reader
import SortedSets.Wire.Request

/-!
# The connection

A connection sends commands and hands each reply to the oldest command that still waits for one.
Commands between `MULTI` and `EXEC` or `DISCARD` form a transaction and are answered from the
slots of its end. A connection remembers all that it wrote, so that what it did can be stated.

The connection does not know its listeners: an operation returns the outcomes that it brought
about, each with the listener of its exchange. What an answer means for its caller and for the
commands of a transaction follows later than the answer itself; until then it is due, and other
operations may come in between.

## Main definitions

* `Connection`: the state of a connection
* `Connection.submit`, `Connection.deliver`, `Connection.drop`: a command is handed over, bytes
  arrive, the transport is lost
* `Connection.giveUp`, `Connection.abandon`, `Connection.expire`: a caller waits no longer
* `Connection.followNext`, `Connection.followAll`: what is due happens
* `Connection.execute`, `Connection.receive`, `Connection.cancel`, `Connection.lose`: the same
  with all that follows
* `Connection.close`: the client closes the connection
* `Connection.enterBuffer`, `Connection.leaveBuffer`: commands gathered into one write
-/

namespace SortedSets

open Wire (Reply Reader Fault)

/-- What a connection reports about its stream of replies. -/
inductive LogEntry where
  /-- A reply arrived that no command waits for. -/
  | stray (r : Reply)
  | corrupt (f : Fault)
  /-- A command that has its reply was about to be given another one. -/
  | answeredTwice (t : Ticket)

namespace LogEntry

/-- The entry reports an error and not only an oddity. -/
def isError : LogEntry → Bool
  | stray _ => false
  | corrupt _ | answeredTwice _ => true

/-- The text of an entry. -/
def message : LogEntry → String
  | stray r => "Got reply without waiter: " ++ r.toValue.quoted
  | corrupt f =>
    "Protocol error, closing connection: ProtocolError(" ++
      (Text.ofString f.message).quoted ++ ")"
  | answeredTwice _ => "waiting future is in wrong state"

end LogEntry

/-- The state of a connection. -/
structure Connection (Listener : Type) where
  /-- The host and the port, as the caller gave them. -/
  address : Value × Value
  timeout : Timeout
  reader : Reader
  /-- The commands that wait for a reply, in the order of sending. -/
  waiting : List Ticket
  /-- All commands ever sent; the ticket of a command is its place. -/
  exchanges : List (Exchange Listener)
  /-- What is still to follow from answers and from the loss of the transport, the oldest first. -/
  due : List Consequence
  /-- The commands of the open transaction, if there is one. -/
  transaction : Option (List Ticket)
  /-- The bytes gathered for one write, if commands are gathered. -/
  buffer : Option Bytes
  /-- The client closed the connection. -/
  closing : Bool
  /-- The transport is there: it was not lost. -/
  attached : Bool
  /-- Why the transport was closed last. -/
  cause : Option Error
  /-- All writes, in order. -/
  writes : List Bytes
  /-- How often the transport was told to close. -/
  closes : Nat
  log : List LogEntry

/-- What a listener is told. -/
structure Notice (Listener : Type) where
  listener : Listener
  outcome : Outcome

namespace Connection

variable {Listener : Type}

/-- A connection at its beginning. -/
def start (address : Value × Value) (timeout : Timeout) : Connection Listener where
  address := address
  timeout := timeout
  reader := .start
  waiting := []
  exchanges := []
  due := []
  transaction := none
  buffer := none
  closing := false
  attached := true
  cause := none
  writes := []
  closes := 0
  log := []

/-- No command can be sent any more. -/
def isClosed (c : Connection Listener) : Bool :=
  c.closing || !c.attached

/-- A transaction is open. -/
def inTransaction (c : Connection Listener) : Bool :=
  c.transaction.isSome

/-- How commands are treated now. -/
def mode (c : Connection Listener) : Mode :=
  if c.inTransaction then .transactional else .direct

/-! ## Outcomes -/

/-- The outcome of an exchange, told to its listener; an exchange has one outcome only. -/
def settle (t : Ticket) (o : Outcome) (c : Connection Listener) :
    Connection Listener × List (Notice Listener) :=
  ({ c with exchanges := c.exchanges.modify t (Exchange.settled o) },
    -- whoever listens is told only if the exchange had not ended before
    match c.exchanges[t]? with
    | some ⟨_, _, none, some l⟩ => [⟨l, o⟩]
    | _ => [])

/-- Outcomes of exchanges, one after the other. -/
def settleAll : List (Ticket × Outcome) → Connection Listener →
    Connection Listener × List (Notice Listener)
  | [], c => (c, [])
  | (t, o) :: rest, c =>
    let (c, first) := c.settle t o
    let (c, others) := settleAll rest c
    (c, first ++ others)

/-- The answer to a command put into its place. A place that was given up takes the answer in and
nothing follows. That a place has its answer already is a mistake, which is reported. -/
def answer (t : Ticket) (o : Outcome) (c : Connection Listener) : Connection Listener :=
  match c.exchanges[t]? with
  | none => c
  | some x =>
    match x.answer with
    | none =>
      { c with
        exchanges := c.exchanges.modify t (Exchange.answered o)
        due := c.due ++ [.answered t o] }
    | some .cancelled => c
    | some _ => { c with log := c.log ++ [.answeredTwice t] }

/-- The answer to a command understood: what it settles is settled. -/
def conclude (t : Ticket) (o : Outcome) (c : Connection Listener) :
    Connection Listener × List (Notice Listener) :=
  match c.exchanges[t]? with
  | none => (c, [])
  | some x => c.settleAll (x.role.settlements t o)

/-- The commands of an open transaction fail, since its end cannot be sent any more. -/
def failTransaction (c : Connection Listener) : Connection Listener × List (Notice Listener) :=
  { c with transaction := none }.settleAll <|
    (c.transaction.getD []).map fun t => (t, .failed (.closed .insideTransaction))

/-- What follows from an answer or from the loss of the transport. -/
def follow : Consequence → Connection Listener →
    Connection Listener × List (Notice Listener)
  | .answered t o, c => c.conclude t o
  | .lost, c => c.failTransaction

/-- The oldest of what is still to follow. -/
def followNext (c : Connection Listener) : Connection Listener × List (Notice Listener) :=
  match c.due with
  | [] => (c, [])
  | d :: ds => { c with due := ds }.follow d

/-- So many of what is still to follow, one after the other. -/
def followMany : Nat → Connection Listener → Connection Listener × List (Notice Listener)
  | 0, c => (c, [])
  | n + 1, c =>
    let (c, first) := c.followNext
    let (c, others) := followMany n c
    (c, first ++ others)

/-- All that is still to follow. -/
def followAll (c : Connection Listener) : Connection Listener × List (Notice Listener) :=
  -- nothing more falls due on the way, so as many steps are enough
  c.followMany c.due.length

/-! ## Giving up -/

/-- The place of a command given up, unless it has its answer. The reply is still to come and is
absorbed. -/
def vacate (t : Ticket) (c : Connection Listener) : Connection Listener :=
  match c.exchanges[t]? with
  | none => c
  | some x => if x.answer.isSome then c else c.answer t .cancelled

/-- The caller gives up a command. A command of a transaction keeps its place, since the caller
waits for a slot and not for the reply. -/
def giveUp (t : Ticket) (c : Connection Listener) :
    Connection Listener × List (Notice Listener) :=
  match c.exchanges[t]? with
  | none => (c, [])
  | some x =>
    if x.outcome.isSome then (c, [])
    else if x.role = .queued then c.settle t .cancelled
    else (c.vacate t, [])

/-- The caller gives up what it was handed and leaves the command to itself. -/
def abandon (t : Ticket) (c : Connection Listener) :
    Connection Listener × List (Notice Listener) :=
  c.settle t .cancelled

/-- The timeout of a command has expired: the command is given up, and its caller is told so. -/
def expire (t : Ticket) (c : Connection Listener) :
    Connection Listener × List (Notice Listener) :=
  match c.exchanges[t]? with
  | none => (c, [])
  | some x =>
    if x.outcome.isSome then (c, [])
    else
      let (c, notices) := c.settle t (.failed .timedOut)
      -- whoever waits for a slot leaves the place to the acknowledgement
      (if x.role = .queued then c else c.vacate t, notices)

/-- The caller gives up a command, with all that follows. -/
def cancel (t : Ticket) (c : Connection Listener) :
    Connection Listener × List (Notice Listener) :=
  let (c, first) := c.giveUp t
  let (c, others) := c.followAll
  (c, first ++ others)

/-! ## Sending -/

/-- Bytes written, or gathered. -/
def emit (data : Bytes) (c : Connection Listener) : Connection Listener :=
  match c.buffer with
  | some gathered => { c with buffer := some (gathered ++ data) }
  | none => { c with writes := c.writes ++ [data] }

/-- A new exchange that waits for its reply. -/
def enlist (role : Role) (listener : Option Listener) (c : Connection Listener) :
    Connection Listener :=
  { c with
    waiting := c.waiting ++ [c.exchanges.length]
    exchanges := c.exchanges ++ [.fresh role listener] }

/-- The role of a command, and the transaction after it. A transaction inside a transaction is
refused by the server and has no slot. -/
def classify (verb : Verb) (transaction : Option (List Ticket)) (t : Ticket) :
    Role × Option (List Ticket) :=
  match transaction, verb with
  | some queue, .multi => (.plain, some queue)
  | some queue, .exec => (.ending false queue, none)
  | some queue, .discard => (.ending true queue, none)
  | some queue, .other => (.queued, some (queue ++ [t]))
  | none, .multi => (.plain, some [])
  | none, _ => (.plain, none)

/-- A new exchange for a command of a known verb, and the transaction after it. -/
def enrol (verb : Verb) (listener : Listener) (c : Connection Listener) : Connection Listener :=
  let (role, transaction) := classify verb c.transaction c.exchanges.length
  { c.enlist role (some listener) with transaction := transaction }

/-- The timeout of a command that was just sent. -/
def startTimeout (t : Ticket) (c : Connection Listener) :
    Connection Listener × List (Notice Listener) :=
  match c.timeout with
  | .expired => c.expire t
  | .invalid e => c.settle t (.failed e)
  | _ => (c, [])

/-- What came of a command: the connection after it, the outcomes that it brought about, and its
ticket or the error that it raised. -/
structure Sent (Listener : Type) where
  connection : Connection Listener
  notices : List (Notice Listener)
  ticket : Except Error Ticket

/-- The request of a command, unless the command must not be sent. -/
def requestOf (name : Value) (args : List Value) (c : Connection Listener) :
    Except Error Bytes := do
  if name.text?.isNone && name.bytes?.isNone then throw (.assertion (.commandName name))
  if c.isClosed then throw (.closed .before)
  Wire.encode (name :: args)

/-- A command handed over to be sent. The word of a command is understood only after the command
was written: one that is no text leaves an exchange behind that nobody listens to. -/
def submit (name : Value) (args : List Value) (listener : Listener) (c : Connection Listener) :
    Sent Listener :=
  match c.requestOf name args with
  | .error e => ⟨c, [], .error e⟩
  | .ok data =>
    let c := c.emit data
    -- the command is on its way, whatever its word turns out to be
    match Verb.ofWord name with
    | .error e => ⟨c.enlist .plain none, [], .error e⟩
    | .ok verb =>
      let t := c.exchanges.length
      let (c, notices) := (c.enrol verb listener).startTimeout t
      ⟨c, notices, .ok t⟩

/-- A command sent, with all that follows at once. -/
def execute (name : Value) (args : List Value) (listener : Listener) (c : Connection Listener) :
    Sent Listener :=
  let sent := c.submit name args listener
  -- what was put off before follows too, not only what this command brought about
  let (c, others) := sent.connection.followAll
  ⟨c, sent.notices ++ others, sent.ticket⟩

/-- Commands are gathered from here on. -/
def enterBuffer (c : Connection Listener) : Connection Listener :=
  { c with buffer := some [] }

/-- The gathered commands are written at once, unless the connection is closed. -/
def leaveBuffer (c : Connection Listener) : Connection Listener :=
  let gathered := c.buffer.getD []
  let c := { c with buffer := none }
  if gathered = [] ∨ c.isClosed then c else { c with writes := c.writes ++ [gathered] }

/-! ## Receiving and closing -/

/-- The transport is told to close, if it is still there. -/
def closeTransport (cause : Error) (c : Connection Listener) : Connection Listener :=
  { c with cause := some cause, closes := if c.attached then c.closes + 1 else c.closes }

/-- An answer for the command that waits longest. -/
def answerNext (o : Outcome) (c : Connection Listener) : Connection Listener :=
  match c.waiting with
  | [] => c
  | t :: waiting => { c with waiting := waiting }.answer t o

/-- Replies handed out, each to the command that waits longest. -/
def assign : List Reply → Connection Listener → Connection Listener
  | [], c => c
  | r :: rest, c =>
    -- what is given up still waits here, and its reply is not a stray one
    assign rest <|
      if c.waiting.isEmpty then { c with log := c.log ++ [.stray r] } else c.answerNext r.outcome

/-- Bytes arrive. All replies of the piece are handed out before anything follows from them; a
fault closes the transport. -/
def deliver (piece : Bytes) (c : Connection Listener) : Connection Listener :=
  let (replies, reader) := c.reader.feed piece
  let c := { c with reader := reader }.assign replies
  -- a fault stays with the reader, so that every later piece finds it again
  match reader.fault with
  | some f => { c with log := c.log ++ [LogEntry.corrupt f] }.closeTransport (.protocol f)
  | none => c

/-- Bytes arrive, with all that follows. -/
def receive (piece : Bytes) (c : Connection Listener) :
    Connection Listener × List (Notice Listener) :=
  (c.deliver piece).followAll

/-- So many of the commands that wait fail, the oldest first. -/
def failWaiting (e : Error) : Nat → Connection Listener → Connection Listener
  | 0, c => c
  | n + 1, c => failWaiting e n (c.answerNext (.failed e))

/-- The transport is lost, which happens once. The commands that wait fail with the given error,
or the reason of the last close. -/
def drop (e : Option Error) (c : Connection Listener) : Connection Listener :=
  -- what the transport reports comes before the reason of the last close
  let e := (e <|> c.cause).getD (.closed .byServer)
  let lost := c.failWaiting e c.waiting.length
  { lost with
    attached := false
    due := if c.attached then lost.due ++ [.lost] else lost.due }

/-- The transport is lost, with all that follows. -/
def lose (e : Option Error) (c : Connection Listener) :
    Connection Listener × List (Notice Listener) :=
  (c.drop e).followAll

/-- The client closes the connection, which it does once. -/
def close (c : Connection Listener) : Connection Listener :=
  if c.closing then c else { c with closing := true }.closeTransport (.closed .forced)

/-- A connection as messages show it. -/
def shown (c : Connection Listener) : Text :=
  .ofString "<RedisConnection [" ++ c.address.1.plain ++ .ofString ":" ++ c.address.2.plain ++
    .ofString "]>"

end Connection

end SortedSets

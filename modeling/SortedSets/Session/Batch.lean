import SortedSets.Session.Client

/-!
# Batches

A batch checks the arguments of a call at once and queues the command; nothing is written before
the batch is sent. A batch is sent in one write, a transactional one between `MULTI` and `EXEC`,
and ends when all its commands have.

## Main definitions

* `Session.newBatch`, `Session.enqueue`: a batch made, and a method called on it
* `Session.run`: a batch sent
* `Session.cancel`: a handle given up
-/

namespace SortedSets

namespace Session

/-- A new batch. -/
def newBatch (transactional : Bool) (s : Session) : Session :=
  { s with batches := s.batches ++ [⟨transactional, [], false, none⟩] }

/-- A method called on a batch. A reply that is converted has a handle that can be given up
without the command. -/
def enqueue (b : BatchId) (method : String) (args : List Value) (named : List (String × Value))
    (s : Session) : Session × Except Error Returned :=
  match s.batches[b]? with
  | none => (s, .error .noAttribute)
  | some batch =>
    if batch.spent then (s, .error (.assertion .batchSpent))
    else
      match Method.named? method with
      | none => (s, .error .noAttribute)
      | some m =>
        match m.call batch.mode args named with
        | .error e => (s, .error e)
        | .ok (.scan _ _) => (s, .error .badType)
        | .ok (.send command) =>
          let h := s.nextHandle
          -- a reply that is not converted has the slot itself for its handle
          let source : Source :=
            if command.conversion.isSome then .alone else .slot b batch.slots.length
          let batch := { batch with slots := batch.slots ++ [⟨command, h, false⟩] }
          ((s.addHandle source).setBatch b batch, .ok (.handle h))

/-- How the sending of a batch goes: the exchanges it waits for, the outcomes it brought about
at once, and the error that broke it off. -/
structure Sending where
  session : Session
  tickets : List Ticket
  early : List (Notice Listener)
  error : Option Error

namespace Sending

/-- A command around a batch sent; its error breaks the sending off. -/
def frame (b : BatchId) (w : String) (x : Sending) : Sending :=
  match x.error with
  | some _ => x
  | none =>
    let (s, early, r) := x.session.send (.text (.ofString w)) [] (.frame b)
    match r with
    | .ok t => ⟨s, x.tickets ++ [t], x.early ++ early, none⟩
    | .error e => ⟨s, x.tickets, x.early ++ early, some e⟩

/-- A command of a batch sent; its error is the outcome of its slot, which must not be filled
yet. -/
def slot (b : BatchId) (x : Sending) (i : Nat) (slot : Slot) : Sending :=
  match x.error with
  | some _ => x
  | none =>
    let (s, early, r) :=
      x.session.send (.bytes slot.command.name) slot.command.args (.slot b i)
    match r with
    | .ok t => ⟨s, x.tickets ++ [t], x.early ++ early, none⟩
    | .error e =>
      -- its handle was given up before: no second outcome, and nothing more is sent
      if slot.filled then ⟨s, x.tickets, x.early ++ early, some .invalidState⟩
      else ⟨s.fillSlot b i (.failed e), x.tickets, x.early ++ early, none⟩

/-- The commands of a batch sent, one after the other. -/
def slots (b : BatchId) : Nat → List Slot → Sending → Sending
  | _, [], x => x
  | i, t :: rest, x => slots b (i + 1) rest (x.slot b i t)

/-- All commands of a batch sent, between those that make it a transaction. -/
def all (b : BatchId) (batch : Batch) (s : Session) : Sending :=
  let x : Sending := ⟨s, [], [], none⟩
  if batch.transactional then
    (slots b 0 batch.slots (x.frame b "MULTI")).frame b "EXEC"
  else slots b 0 batch.slots x

end Sending

/-- The commands of a batch sent in one write, for a handle of their results. -/
def sendBatch (b : BatchId) (batch : Batch) (h : HandleId) (collectsErrors : Bool)
    (s : Session) : Session :=
  let x := Sending.all b batch (s.mapConnection Connection.enterBuffer)
  let s := x.session.mapConnection Connection.leaveBuffer
  -- what was gathered is written even if an error broke the sending off
  match x.error with
  | some e => (s.tellEarly x.early).endHandle h (.failed e)
  | none =>
    -- read anew, since sending may have filled slots
    match s.batches[b]? with
    | none => s
    | some batch =>
      let run : Run := ⟨h, collectsErrors, x.tickets, x.tickets.length, false⟩
      ((s.setBatch b { batch with run := some run }).tellEarly x.early).concludeBatch b

/-- A batch sent. -/
def run (b : BatchId) (collectsErrors : Bool) (s : Session) : Session :=
  match s.batches[b]? with
  | none => s
  | some batch =>
    if batch.spent then s.addEnded (.failed (.assertion .batchSpent))
    else
      let s := s.setBatch b { batch with spent := true }
      if batch.slots.isEmpty then s.addEnded (.result (.batch []))
      else
        let h := s.nextHandle
        (s.addHandle (.run b)).sendBatch b { batch with spent := true } h collectsErrors

/-- The modes of a batch and of its connection; a batch that was sent no longer knows its
connection's. -/
def modes (b : Batch) : Except Error (Mode × Mode) :=
  if b.spent then .error (.assertion .batchSpent) else .ok (b.mode, b.mode)

/-! ## Giving up -/

/-- All exchanges of a batch given up. -/
def cancelRun (b : BatchId) (s : Session) : Session :=
  match s.batches[b]? with
  | none => s
  | some batch =>
    match batch.run with
    | none => s
    | some r =>
      -- noted first: the exchanges end one by one below, and the last of them concludes the batch
      let s := s.setBatch b { batch with run := some { r with cancelled := true } }
      r.tickets.foldl (fun s t => s.happen (Connection.cancel t)) s

/-- What a handle that is given up gives up with it. -/
def cancelSource (h : HandleId) (source : Source) (s : Session) : Session :=
  match source with
  | .exchange t => s.happen (Connection.cancel t)
  | .slot b i => s.fillSlot b i .cancelled
  | .run b => s.cancelRun b
  | .alone => s.endHandle h .cancelled

/-- A handle given up, and whether it was still pending. -/
def cancel (h : HandleId) (s : Session) : Session × Bool :=
  match s.handles[h]? with
  | some ⟨source, none⟩ => (s.cancelSource h source, true)
  | _ => (s, false)

end Session

end SortedSets

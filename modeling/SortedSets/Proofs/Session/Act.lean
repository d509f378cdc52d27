import SortedSets.Session.Batch

/-!
# Runs of a session

A run of a session is a list of acts in the order in which they happen: a client calls methods,
queues and sends batches, steps cursors and gives up what it waits for; bytes arrive and the
transport is lost. Each act is carried through to all its consequences before the next one.

## Main definitions

* `Act`, `Session.act`, `Session.after`: what can happen to a session, and what it does
* `Act.replies`: the replies that arrive in a run
* `Session.Served`: the server answers no more commands than were sent
* `Session.ending?`: how a handle has ended
-/

namespace SortedSets

open Wire (Reply Reader)

/-- What can happen to a session that has its connection. -/
inductive Act where
  | call (method : String) (args : List Value) (named : List (String × Value))
  | execute (name : Value) (args : List Value)
  | select (db : Value)
  | step (c : CursorId) (step : Step)
  | closeCursor (c : CursorId)
  | newBatch (transactional : Bool)
  | enqueue (b : BatchId) (method : String) (args : List Value) (named : List (String × Value))
  | run (b : BatchId) (collectsErrors : Bool)
  | cancel (h : HandleId)
  | setBuffered (on : Bool)
  | receive (piece : Bytes)
  | lose (e : Option Error)
  | close
  | awaitClosed (v : Value)

/-- What a client does on its own, by which it gives nothing up. -/
def Act.isOwn : Act → Bool
  | .cancel _ | .receive _ | .lose _ => false
  | _ => true

/-- A method is called on a batch. -/
def Act.isEnqueue : Act → Bool
  | .enqueue .. => true
  | _ => false

/-- The step of a cursor that an act is. -/
def Act.step? : Act → Option (CursorId × Step)
  | .step c way => some (c, way)
  | _ => none

namespace Session

/-- What an act does to a session. -/
def act (s : Session) : Act → Session
  | .call method args named => (s.call method args named).1
  | .execute name args => (s.execute name args).1
  | .select db => s.select db
  | .step c step => s.step c step
  | .closeCursor c => s.closeCursor c
  | .newBatch transactional => s.newBatch transactional
  | .enqueue b method args named => (s.enqueue b method args named).1
  | .run b collectsErrors => s.run b collectsErrors
  | .cancel h => (s.cancel h).1
  | .setBuffered on => s.setBuffered on
  | .receive piece => s.receive piece
  | .lose e => s.lose e
  | .close => s.close
  | .awaitClosed v => s.awaitClosed v

/-- What the acts of a run do to a session. -/
def after (s : Session) (acts : List Act) : Session :=
  acts.foldl act s

@[simp] theorem after_nil (s : Session) : s.after [] = s := rfl

@[simp] theorem after_cons (s : Session) (a : Act) (acts : List Act) :
    s.after (a :: acts) = (s.act a).after acts := rfl

@[simp] theorem after_append (s : Session) (acts more : List Act) :
    s.after (acts ++ more) = (s.after acts).after more := List.foldl_append

/-- How a handle has ended, if it has. -/
def ending? (s : Session) (h : HandleId) : Option Ending :=
  s.handles[h]?.bind Handle.ending

/-- How many commands were sent over the connection. -/
def sent (s : Session) : Nat :=
  match s.connection with
  | some c => c.exchanges.length
  | none => 0

end Session

/-! ## What a run receives -/

/-- The bytes that arrive in an act. -/
def Act.piece : Act → Bytes
  | .receive piece => piece
  | _ => []

/-- The complete replies that arrive in a run, in order. -/
def Act.replies (acts : List Act) : List Reply :=
  (Reader.start.feed (acts.flatMap Act.piece)).1

/-- In a run the server answers no more commands than were sent, each once, while the transport is
there. -/
def Session.Served (s : Session) (acts : List Act) : Prop :=
  ∀ before piece, before ++ [.receive piece] <+: acts →
    (s.after before).isAttached = true ∧
      (Act.replies (before ++ [.receive piece])).length ≤ (s.after before).sent

end SortedSets

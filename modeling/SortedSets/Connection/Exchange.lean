import SortedSets.Wire.Reply

/-!
# Exchanges

A command that was sent and the reply to it make an exchange. Inside a transaction the server
only acknowledges a command, and its reply is one of the slots of the reply that ends the
transaction.

## Main definitions

* `Outcome`: how an exchange ends for its caller
* `Role`, `Exchange`: what the reply to a command means, and an exchange under way
* `Consequence`: what is still to follow from an answer
* `slotOutcomes`: what the end of a transaction means for its queue
* `Role.settlements`: what the answer to a command settles
* `Verb`: the commands that open and end transactions
-/

namespace SortedSets

open Wire (Reply)

/-- The number of a command in the order of sending. -/
abbrev Ticket := Nat

/-- How an exchange ends for its caller. -/
inductive Outcome where
  | reply (r : Reply)
  | failed (e : Error)
  | cancelled

/-- The outcome that a reply is: an error reply is a failure. -/
def Wire.Reply.outcome : Reply → Outcome
  | .error message => .failed (.reply message)
  | r => .reply r

/-- What the reply to a command means: it is the command's own; it acknowledges a command of a
transaction; or it ends a transaction and answers its queue. -/
inductive Role where
  | plain
  | queued
  | ending (discards : Bool) (queue : List Ticket)
deriving DecidableEq, Repr

/-- A command that was sent. Whoever listens is told the outcome once. -/
structure Exchange (Listener : Type) where
  role : Role
  /-- What the command's place among those that wait was given: its reply, what stands for it, or
  that the place was given up. -/
  answer : Option Outcome
  /-- How the command ended for its caller. -/
  outcome : Option Outcome
  listener : Option Listener

namespace Exchange

variable {Listener : Type}

/-- A command at its beginning. -/
def fresh (role : Role) (listener : Option Listener) : Exchange Listener where
  role := role
  answer := none
  outcome := none
  listener := listener

/-- A command whose place was given an answer. -/
def answered (o : Outcome) (x : Exchange Listener) : Exchange Listener :=
  { x with answer := some o }

/-- A command that ended for its caller, which it does once. -/
def settled (o : Outcome) (x : Exchange Listener) : Exchange Listener :=
  { x with outcome := x.outcome <|> some o }

end Exchange

/-- What is still to follow: from the answer to a command, or from the loss of the transport. -/
inductive Consequence where
  | answered (t : Ticket) (o : Outcome)
  | lost

/-- The error for the commands of a transaction that the server did not run. -/
def abortedTransaction : Error :=
  .reply (.ofString "EXEC aborted, watched key changed")

/-- The slots of the reply that ends a transaction. -/
def Wire.Reply.slots : Reply → List Outcome
  | .array rs => rs.map Reply.outcome
  | .bytes bs => bs.map fun b => .reply (.int b.toNat)
  | _ => []

/-- What the end of a transaction means for its queue: a discarded queue is cancelled, and so is
one whose end nobody waits for; a failure is every command's failure; else each command has its
slot, and a command without a slot learns nothing. -/
def slotOutcomes (discards : Bool) (queue : List Ticket) (o : Outcome) :
    List (Ticket × Outcome) :=
  match discards, o with
  | true, _ => queue.map fun t => (t, .cancelled)
  | false, .cancelled => queue.map fun t => (t, .cancelled)
  | false, .failed e => queue.map fun t => (t, .failed e)
  | false, .reply .nil => queue.map fun t => (t, .failed abortedTransaction)
  | false, .reply r => queue.zip r.slots

/-- What the answer to a command settles. An acknowledgement settles nothing; the end of a
transaction settles its queue before itself. -/
def Role.settlements (t : Ticket) : Role → Outcome → List (Ticket × Outcome)
  | .queued, .reply _ => []
  | .ending discards queue, o => slotOutcomes discards queue o ++ [(t, o)]
  | _, o => [(t, o)]

/-- The commands that open and end transactions, and the others. -/
inductive Verb where
  | multi
  | exec
  | discard
  | other
deriving DecidableEq, Repr

/-- The upper case of a code point, as far as it may be a letter of a command word. -/
def CodePoint.upperLatin (p : CodePoint) : CodePoint :=
  match p with
  | .scalar 'ı' => .scalar 'I'
  | .scalar 'ſ' => .scalar 'S'
  | .scalar c => .scalar c.toUpper
  | p => p

namespace Verb

/-- The verb of a command word in bytes, of any case. -/
def ofBytes (bs : Bytes) : Verb :=
  let w := bs.upper
  if w = Bytes.ascii "MULTI" then multi
  else if w = Bytes.ascii "EXEC" then exec
  else if w = Bytes.ascii "DISCARD" then discard
  else other

/-- The verb of a command word in text, of any case. -/
def ofText (t : Text) : Verb :=
  let w := t.map CodePoint.upperLatin
  if w = Text.ofString "MULTI" then multi
  else if w = Text.ofString "EXEC" then exec
  else if w = Text.ofString "DISCARD" then discard
  else other

/-- The verb of a command word. A word in bytes must be the encoding of a text. -/
def ofWord (v : Value) : Except Error Verb :=
  match v.bytes? with
  | some bs => if Utf8.isValid bs then .ok (ofBytes bs) else .error .textDecoding
  | none => .ok (ofText (v.text?.getD []))

end Verb

end SortedSets

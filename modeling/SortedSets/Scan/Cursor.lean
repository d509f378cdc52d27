import SortedSets.Conversion

/-!
# Scan cursors

A cursor goes once through the members of a set, page by page or item by item. A step either
ends at once or needs the page of the current cursor; it goes on when the page has arrived.
Between the two the cursor may have been closed, or moved by another step.

## Main definitions

* `CursorState`, `Cursor`: the state of a scan
* `Step`: the two ways to advance, a page or an item at a time
* `Cursor.begin`, `Cursor.resume`: a step up to its next page, and from that page on
* `Cursor.close`
-/

namespace SortedSets

/-- Where a scan stands. -/
inductive CursorState where
  | created
  | active
  | exhausted
  | closed
deriving DecidableEq, Repr

/-- The word of a state. -/
def CursorState.word : CursorState → String
  | created => "created"
  | active => "active"
  | exhausted => "exhausted"
  | closed => "closed"

/-- A scan under way: the cursor of the next page, the items that arrived and were not yet taken
one by one, and the number of those that were. The options go along with every request and are
never looked at. -/
structure Cursor (Options : Type) where
  id : Int
  options : Options
  state : CursorState
  pending : List Value
  position : Nat

/-- A way to advance a cursor. -/
inductive Step where
  | page
  | item
deriving DecidableEq, Repr

/-- What a step delivers. -/
inductive Delivery where
  | page (p : Page)
  | item (v : Value)

/-- How far a step has come: it needs the page of the current cursor, or it has ended. -/
inductive Progress (Options : Type) where
  | fetch (c : Cursor Options)
  | ended (c : Cursor Options) (r : Except Error Delivery)

namespace Cursor

variable {Options : Type}

/-- A cursor at the start of a scan. -/
def start (id : Int) (options : Options) : Cursor Options where
  id := id
  options := options
  state := .created
  pending := []
  position := 0

/-- A cursor as a caller starts it; options that are empty or absent count as none. -/
def ofValues (cursor options : Value) : Except Error (Cursor Value) := do
  let id ← checkCursor cursor
  return start id (if options.isTruthy then options else .options .unrestricted)

/-- The error of a step that needs a page and may not ask for one. -/
def refusal? (c : Cursor Options) : Option Error :=
  match c.state with
  | .closed => some (.cursorClosed false)
  | .exhausted => some .exhausted
  | _ => none

/-- A step that needs a page. -/
def request (c : Cursor Options) : Progress Options :=
  match c.refusal? with
  | some e => .ended c (.error e)
  | none => .fetch c

/-- A step by items: the first item that waits, or the next page. -/
def take (c : Cursor Options) : Progress Options :=
  match c.pending with
  | v :: vs => .ended { c with pending := vs, position := c.position + 1 } (.ok (.item v))
  | [] => c.request

/-- A step up to the page it needs, if it needs one. -/
def begin (step : Step) (c : Cursor Options) : Progress Options :=
  match step with
  | .page => c.request
  | .item => c.take

/-- The state after a page that named the cursor `next`. -/
def stateAfter (state : CursorState) (next : Int) : CursorState :=
  if next = 0 then .exhausted
  else if state = .created then .active
  else state

/-- A page put into the cursor. A page for a closed cursor is dropped; a page whose items cannot
be read has already moved the cursor. -/
def accept (decode : Value → Except Error (List Value)) (next raw : Value) (c : Cursor Options) :
    Cursor Options × Except Error Page :=
  if c.state = .closed then (c, .error (.cursorClosed true))
  else
    match next.toInt with
    | .error e => (c, .error e)
    | .ok n =>
      match decode raw with
      -- the next page is asked for from here although none of this one was delivered
      | .error e => ({ c with id := n }, .error e)
      | .ok items => ({ c with id := n, state := stateAfter c.state n }, .ok ⟨n, items⟩)

/-- A step from the answer to its page on. -/
def resume (decode : Value → Except Error (List Value)) (step : Step)
    (answer : Except Error (Value × Value)) (c : Cursor Options) : Progress Options :=
  match answer with
  | .error e => .ended c (.error e)
  | .ok (next, raw) =>
    match c.accept decode next raw, step with
    | (c, .error e), _ => .ended c (.error e)
    | (c, .ok p), .page => .ended c (.ok (.page p))
    | (c, .ok p), .item => { c with pending := c.pending ++ p.items }.take

/-- The cursor closed: no item is left. -/
def close (c : Cursor Options) : Cursor Options :=
  if c.state = .closed then c else { c with state := .closed, pending := [] }

/-- A cursor as messages show it. -/
def shown (c : Cursor Options) : String :=
  "<ZScanCursor cursor=" ++ showInt c.id ++ " state=" ++ c.state.word ++ ">"

end Cursor

end SortedSets

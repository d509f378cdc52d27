import SortedSets.Scan.Cursor

/-!
# Scans over prepared answers

A cursor over a list of answers that are known beforehand: pages, failures, and pages during
whose fetch the cursor is closed. It is the scan of a server that answers at once.

## Main definitions

* `Answer`: an answer to a request for a page
* `Script`: a cursor with the answers to come and a record of the requests
* `Script.advance`, `Script.collect`, `Script.close`: the steps of a scan
-/

namespace SortedSets

/-- An answer to a request for a page. -/
inductive Answer where
  | page (next raw : Value)
  | failure (message : Text)
  /-- The cursor is closed before the page arrives. -/
  | closing (next raw : Value)

/-- A cursor over prepared answers. -/
structure Script where
  cursor : Cursor Value
  answers : List Answer
  decode : Value → Except Error (List Value)
  /-- The requests made so far, each with the cursor and the options it named. -/
  requests : List (Int × Value)
  /-- How often the cursor reported that it was closed. -/
  closings : Nat

namespace Script

/-- A script before its first step. -/
def start (cursor : Cursor Value) (answers : List Answer)
    (decode : Value → Except Error (List Value)) : Script where
  cursor := cursor
  answers := answers
  decode := decode
  requests := []
  closings := 0

/-- The cursor closed, which is reported once. -/
def close (s : Script) : Script :=
  if s.cursor.state = .closed then s
  else { s with cursor := s.cursor.close, closings := s.closings + 1 }

/-- A request for a page noted. -/
def note (s : Script) (c : Cursor Value) : Script :=
  { s with cursor := c, requests := s.requests ++ [(c.id, c.options)] }

/-- The script and the outcome of the request for a page, with the answers after it. -/
def answer (a : Answer) (rest : List Answer) (s : Script) :
    Script × Except Error (Value × Value) :=
  let s := { s with answers := rest }
  match a with
  | .page next raw => (s, .ok (next, raw))
  | .failure message => (s, .error (.reply message))
  | .closing next raw => (s.close, .ok (next, raw))

/-- The error of a script that has run out of answers. -/
def ranOut : Error :=
  .reply (.ofString "no more pages")

/-- A step carried to its end with the answers to come. -/
def run (step : Step) :
    List Answer → Script → Progress Value → Script × Except Error Delivery
  | _, s, .ended c r => ({ s with cursor := c }, r)
  | [], s, .fetch c => ((s.note c), .error ranOut)
  | a :: rest, s, .fetch c =>
    let (s, r) := (s.note c).answer a rest
    run step rest s (s.cursor.resume s.decode step r)

/-- A step of the cursor. -/
def advance (step : Step) (s : Script) : Script × Except Error Delivery :=
  run step s.answers s (s.cursor.begin step)

/-- All items to the end of the scan, or the error that ended it early; the items taken before
an error are lost. -/
def collectFrom : List Answer → List Value → Script → Script × Except Error (List Value)
  | answers, taken, s =>
    let c := s.cursor
    let taken := taken ++ c.pending
    let c := { c with pending := [], position := c.position + c.pending.length }
    let s := { s with cursor := c }
    -- only with nothing at hand does it matter whether the cursor may ask
    match c.refusal? with
    | some .exhausted => (s, .ok taken)
    | some e => (s, .error e)
    | none =>
      match answers with
      | [] => (s.note c, .error ranOut)
      | a :: rest =>
        let (s, r) := (s.note c).answer a rest
        match r with
        | .error e => (s, .error e)
        | .ok (next, raw) =>
          match s.cursor.accept s.decode next raw with
          | (c, .error e) => ({ s with cursor := c }, .error e)
          | (c, .ok p) =>
            collectFrom rest taken { s with cursor := { c with pending := c.pending ++ p.items } }

/-- All items to the end of the scan. -/
def collect (s : Script) : Script × Except Error (List Value) :=
  collectFrom s.answers [] s

end Script

end SortedSets

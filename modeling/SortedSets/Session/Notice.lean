import SortedSets.Session.Basic

/-!
# The outcomes of exchanges in a session

An outcome goes to whoever waits for it: a handle takes it, converted if need be; a batch counts
it and ends when it has all; a cursor takes its page and may ask for the next one; a client that
is about to be ready is ready, or gives up its connection.

## Main definitions

* `Session.fillSlot`, `Session.countDown`, `Batch.conclude`: the outcomes of a batch
* `Session.proceed`, `Session.requestPage`: the pages of a cursor
* `Session.tell`, `Session.tellAll`: outcomes told to their listeners
-/

namespace SortedSets

/-- A converted reply as a result. -/
def Converted.result : Converted → Result
  | .value v => .value v
  | .page p => .page p

/-- The end of a handle by an outcome, given what a reply means for it. -/
def Outcome.ending (f : Value → Except Error Result) : Outcome → Ending
  | .reply r => Session.endingOf (f r.toValue)
  | .failed e => .failed e
  | .cancelled => .cancelled

/-- The reply says that all went well. -/
def isOk (v : Value) : Bool :=
  v.text? = some (.ofString "OK") || v.bytes? = some (Bytes.ascii "OK")

/-- The end of a handle as one of the results of its batch, unless it is pending or was given
up. -/
def Ending.reply? : Ending → Option (Except Error Converted)
  | .result (.value v) => some (.ok (.value v))
  | .result (.page p) => some (.ok (.page p))
  | .result _ => none
  | .failed e => some (.error e)
  | .cancelled => none

/-- The errors among results, in order. -/
def errorsOf (rs : List (Except Error Converted)) : List Error :=
  rs.filterMap fun
    | .ok _ => none
    | .error e => some e

namespace Session

/-- The end of a handle as one of the results of its batch. -/
def replyOf? (s : Session) (h : HandleId) : Option (Except Error Converted) :=
  (s.handles[h]?.bind Handle.ending).bind Ending.reply?

/-- The end of a batch whose exchanges have all ended. One call that was given up makes the batch
given up; errors make it fail unless they are collected. -/
def batchEnding (s : Session) (b : Batch) (r : Run) : Ending :=
  if r.cancelled then .cancelled
  else
    match b.slots.mapM fun slot => s.replyOf? slot.handle with
    | none => .cancelled
    | some replies =>
      if r.collectsErrors || (errorsOf replies).isEmpty then .result (.batch replies)
      else .failed (.batch b.transactional (errorsOf replies))

/-- A batch ends when none of its exchanges is outstanding. -/
def concludeBatch (b : BatchId) (s : Session) : Session :=
  match s.batches[b]? with
  | some batch =>
    match batch.run with
    | some r => if r.outstanding = 0 then s.endHandle r.handle (s.batchEnding batch r) else s
    | none => s
  | none => s

/-- One more exchange of a batch has ended. -/
def countDown (b : BatchId) (s : Session) : Session :=
  match s.batches[b]? with
  | some batch =>
    match batch.run with
    | some r =>
      let r := { r with outstanding := r.outstanding - 1 }
      (s.setBatch b { batch with run := some r }).concludeBatch b
    | none => s
  | none => s

/-- The outcome of a command of a batch, unless its slot is filled. -/
def fillSlot (b : BatchId) (i : Nat) (o : Outcome) (s : Session) : Session :=
  match s.batches[b]? with
  | none => s
  | some batch =>
    match batch.slots[i]? with
    | none => s
    | some slot =>
      if slot.filled then s
      else
        -- filled even if the reply cannot be converted: the error is then the result
        let s := s.setBatch b { batch with slots := batch.slots.set i { slot with filled := true } }
        let convert (v : Value) : Except Error Result :=
          match slot.command.conversion with
          | some c => (c.apply v).map Converted.result
          | none => .ok (.value v)
        s.endHandle slot.handle (o.ending convert)

/-- The connection closed because of an error while the client was to be made ready. The handle
ends when the transport is lost. -/
def giveUpConnecting (h : HandleId) (e : Error) (s : Session) : Session :=
  let s := (s.mapConnection Connection.close).setSource h .alone
  -- the error is told only when the connection is gone
  if s.isAttached then { s with closers := s.closers ++ [(h, .failed e)] }
  else s.endHandle h (.failed e)

/-- A client as messages show it. -/
def clientShown (c : Connection Listener) : Text :=
  Text.ofString "<ZSetClient " ++ c.shown ++ Text.ofString ">"

/-- The client has its connection. -/
def becomeReady (h : HandleId) (s : Session) : Session :=
  match s.connection with
  | some c =>
    { s with ready := true }.endHandle h
      (.result (.client c.address (clientShown c)))
  | none => s

/-- The cursor and the items of a page as the server answers them. -/
def pageOf (v : Value) : Except Error (Value × Value) := do
  if Conversion.isQueued v then v.both
  else
    let next ← (← v.element 0).toInt
    return (.int next, ← v.element 1)

/-- A delivery of a cursor as a result. -/
def deliveryResult : Delivery → Result
  | .page p => .page p
  | .item v => .value v

/-- A step of a cursor carried as far as it goes; `again` is what is done if it needs one more
page. -/
def proceed (again : Session → Session) (h : HandleId) (c : CursorId)
    (p : Progress ScanOptions) (s : Session) : Session :=
  match p with
  | .ended cursor r => (s.setCursor c cursor).endHandle h (endingOf (r.map deliveryResult))
  | .fetch cursor => again (s.setCursor c cursor)

/-- An outcome told to its listener; `again` is what a step of a cursor does if it needs one more
page. -/
def tellWith (again : HandleId → CursorId → Step → Session → Session) (n : Notice Listener)
    (s : Session) : Session :=
  match n.listener with
  | .direct h => s.endHandle h (n.outcome.ending fun v => .ok (.value v))
  | .converting h c => s.endHandle h (n.outcome.ending fun v => (c.await v).map Converted.result)
  | .deferred h c => s.endHandle h (n.outcome.ending fun v => (c.apply v).map Converted.result)
  | .selecting h => s.endHandle h (n.outcome.ending fun v => .ok (.value (.bool (isOk v))))
  | .frame b => s.countDown b
  -- the slot first: with the last one the batch reads what all its handles have
  | .slot b i => (s.fillSlot b i n.outcome).countDown b
  | .connecting h =>
    match n.outcome with
    | .reply _ => s.becomeReady h
    | .failed e => s.giveUpConnecting h e
    | .cancelled => s.endHandle h .cancelled
  | .fetching h c step =>
    match s.scans[c]?, n.outcome with
    | none, _ => s
    -- a step that is given up leaves the cursor as it was, ready to ask for the page again
    | some _, .cancelled => s.endHandle h .cancelled
    | some scan, .failed e =>
      s.proceed (again h c step) h c (scan.cursor.resume decodePairs step (.error e))
    | some scan, .reply r =>
      s.proceed (again h c step) h c (scan.cursor.resume decodePairs step (pageOf r.toValue))

/-- Outcomes that sending a command brought about at once, told to their listeners. They are
failures, after which no cursor asks for a page. -/
def tellEarly (ns : List (Notice Listener)) (s : Session) : Session :=
  ns.foldl (fun s n => s.tellWith (fun _ _ _ s => s) n) s

/-- The page of a cursor asked for; a step that cannot ask has ended. -/
def requestPage (h : HandleId) (c : CursorId) (step : Step) (s : Session) : Session :=
  match s.scans[c]? with
  | none => s
  | some scan =>
    let fail (e : Error) (s : Session) : Session :=
      s.proceed id h c (scan.cursor.resume decodePairs step (.error e))
    match Command.scanPage s.mode scan.key scan.cursor.id scan.cursor.options none with
    | .error e => fail e s
    | .ok command =>
      let (s, early, r) := s.send (.bytes command.name) command.args (.fetching h c step)
      match r with
      | .error e => fail e s
      | .ok t => (s.setSource h (.exchange t)).tellEarly early

/-- An outcome told to its listener. -/
def tell (n : Notice Listener) (s : Session) : Session :=
  s.tellWith (fun h c step s => s.requestPage h c step) n

/-- Outcomes told to their listeners, one after the other. -/
def tellAll (ns : List (Notice Listener)) (s : Session) : Session :=
  ns.foldl (fun s n => s.tell n) s

/-- Something that happens to the connection, and all that follows from it. -/
def happen (f : Connection Listener → Connection Listener × List (Notice Listener))
    (s : Session) : Session :=
  match s.connection with
  | none => s
  | some c =>
    let (c, ns) := f c
    { s with connection := some c }.tellAll ns

end Session

end SortedSets

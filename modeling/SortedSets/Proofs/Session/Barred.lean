import SortedSets.Proofs.Session.Paging
import SortedSets.Proofs.Session.Refusals

/-!
# Scans beside transactions

A page must not be asked for while a transaction is open, since its command would be queued with
the others. So a scan cannot begin then, and a step that needs a page fails and leaves everything
else as it is; a step that finds an item has it. When the transaction is over, the scan goes on with
the cursor at which it stood.

## Main definitions

* `Session.pageBarred`: the error of a step that needs a page inside a transaction

## Main results

* `Session.call_of_scans`, `Session.step_of_transactional`, `Session.tell_of_transactional`: calls
  and steps that need a page inside a transaction
* `Session.Holds.connection_receive`: replies are followed by no request then
* `Session.scans_beside_transactions`: the scans of a run in which transactions open and end
-/

namespace SortedSets

theorem Command.scanPage_of_transactional (key : Value) (cursor : Int) (o : ScanOptions)
    (conversion : Option Conversion) :
    scanPage .transactional key cursor o conversion =
      .error (.unsupported (.text (.ofString "ZSCAN")) .transactional) :=
  rfl

namespace Session

variable {s t : Session} {i : CursorId} {scan : Scan}

/-- The error of a step that needs a page inside a transaction. -/
def pageBarred : Error :=
  .unsupported (.text (.ofString "ZSCAN")) .transactional

theorem mode_of_connection (h : t.connection = s.connection) : t.mode = s.mode := by
  rw [mode, h, mode]

/-- A handle that ends as soon as it is there. -/
theorem endHandle_addHandle (s : Session) (e : Ending) :
    (s.addHandle .alone).endHandle s.nextHandle e = s.addEnded e := by
  simp [endHandle, addHandle, addEnded, nextHandle]

/-! ## Inside a transaction -/

section Transactional

variable (hm : s.mode = .transactional)

include hm

theorem call_of_scans {method : String} {m : Method} (hmethod : Method.named? method = some m)
    (hscans : m.scans = true) (args : List Value) (named : List (String × Value)) :
    ∃ e, s.call method args named = (s, .error e) ∧
      (e = pageBarred ∨ m.call .direct args named = .error e) := by
  have hbars : Mode.Bars .transactional fun mode => m.call mode args named :=
    Method.bars_call hscans rfl args named
  obtain ⟨e, he, hwhy⟩ := hbars
  exact ⟨e, by simp only [call, hmethod, hm, he], hwhy⟩

theorem requestPage_of_transactional (hi : s.scans[i]? = some scan) (h : HandleId) (way : Step) :
    s.requestPage h i way = s.endHandle h (.failed pageBarred) := by
  unfold requestPage
  simp only [hi, hm, Command.scanPage_of_transactional]
  exact proceed_failed_eq hi id h way _

theorem connection_requestPage_of_transactional (h : HandleId) (i : CursorId) (way : Step) :
    (s.requestPage h i way).connection = s.connection := by
  cases hi : s.scans[i]? with
  | none => simp only [requestPage, hi]
  | some scan =>
    rw [requestPage_of_transactional hm hi]
    exact connection_endHandle ..

/-- A step that needs a page fails, and nothing else happens. -/
theorem step_of_transactional (hi : s.scans[i]? = some scan) {way : Step}
    (hp : scan.cursor.begin way = .fetch scan.cursor) :
    s.step i way = s.addEnded (.failed pageBarred) := by
  have hi' : (s.addHandle .alone).scans[i]? = some scan := hi
  have hm' : (s.addHandle .alone).mode = .transactional := hm
  simp only [step, hi', hp, proceed, setCursor_self hi']
  rw [requestPage_of_transactional hm' hi', endHandle_addHandle]

/-- No step sends anything. -/
theorem connection_step_of_transactional (i : CursorId) (way : Step) :
    (s.step i way).connection = s.connection := by
  unfold step
  dsimp only
  split
  · rfl
  · next scan _ =>
    cases scan.cursor.begin way with
    | ended cursor r => exact (connection_endHandle ..).trans (connection_setCursor ..)
    | fetch cursor =>
      have hconn : ((s.addHandle .alone).setCursor i cursor).connection = s.connection :=
        connection_setCursor ..
      have hm' := (mode_of_connection hconn).trans hm
      exact (connection_requestPage_of_transactional hm' ..).trans hconn

/-- A step that is told a page and needs another one fails, and the cursor keeps the page. -/
theorem tell_of_transactional (hi : s.scans[i]? = some scan) {h : HandleId} {way : Step}
    {r : Wire.Reply} {cursor : Cursor ScanOptions}
    (hp : scan.cursor.resume decodePairs way (pageOf r.toValue) = .fetch cursor) :
    s.tell ⟨.fetching h i way, .reply r⟩ =
      (s.setCursor i cursor).endHandle h (.failed pageBarred) := by
  have hm' : (s.setCursor i cursor).mode = .transactional :=
    (mode_of_connection (connection_setCursor ..)).trans hm
  simp only [tell, tellWith, hi, hp, proceed]
  exact requestPage_of_transactional hm' (getElem?_setCursor_self hi cursor) h way

end Transactional

namespace Holds

variable {terms : Terms} {owners : List Owner} {ns : List (Notice Listener)}

theorem connection_tellAll (hs : Holds terms owners ns s) (hm : s.mode = .transactional) :
    (s.tellAll ns).connection = s.connection := by
  induction ns generalizing s with
  | nil => rfl
  | cons n ns ih =>
    have htold : (s.tell n).connection = s.connection := by
      refine hs.connection_tellWith fun h i way t ht => ?_
      have hm' := (mode_of_connection ht).trans hm
      exact (connection_requestPage_of_transactional hm' h i way).trans ht
    have hnext : Holds terms owners ns (s.tell n) :=
      hs.tellWith fun _ _ _ _ ho hs => hs.requestPage ho
    exact (ih hnext ((mode_of_connection htold).trans hm)).trans htold

/-- Replies do to the connection what they do, and nothing is sent after them. -/
theorem connection_receive (hs : Holds terms owners [] s) (hm : s.mode = .transactional)
    (piece : Bytes) :
    (s.receive piece).connection = s.connection.map fun d => (d.receive piece).1 := by
  obtain ⟨d, hd⟩ := hs.exists_connection
  have htransaction := Connection.transaction_receive (hs.due hd) piece
  have hreport := hs.report hd (Connection.reports_receive piece d) (Connection.due_followAll _)
  have hmode : d.mode = .transactional := by rw [← hm, mode, hd]
  rw [Connection.mode_eq_iff, ← htransaction, ← Connection.mode_eq_iff] at hmode
  have hconn := hreport.connection_tellAll hmode
  simpa only [Session.receive, Session.happen, hd, Option.map_some] using hconn

end Holds

/-! ## In any mode -/

/-- A step by items has the first item that waits. -/
theorem step_of_pending (hi : s.scans[i]? = some scan) {v : Value} {vs : List Value}
    (hp : scan.cursor.pending = v :: vs) :
    s.step i .item = (s.setCursor i { scan.cursor with
      pending := vs, position := scan.cursor.position + 1 }).addEnded (.result (.value v)) := by
  have hi' : (s.addHandle .alone).scans[i]? = some scan := hi
  simp only [step, hi', Cursor.begin, Cursor.take, hp, proceed]
  -- the cursor does not see the new handle
  rw [← endHandle_addHandle]
  simp only [setCursor, hi, hi']
  rfl

/-- In direct mode a step that needs a page asks for it, at the cursor at which the scan stands. -/
theorem appends_step_of_direct (hm : s.mode = .direct) (hi : s.scans[i]? = some scan) {way : Step}
    (hp : scan.cursor.begin way = .fetch scan.cursor) :
    s.Appends (s.request? (.bytes (Bytes.ascii "ZSCAN"))
      (scan.key :: .int scan.cursor.id :: scan.cursor.options.arguments)).toList
        (s.step i way) := by
  have h := appends_step i way s
  simp only [stepCommand?, hi, hp, hm, Option.bind_some] at h
  exact h

/-! ## Runs -/

/-- Scans over a connection on which transactions open and end, with whatever else a client does.
While a transaction is open, calls that scan fail, and neither steps nor what follows from replies
sends anything: the connection does what it would do without them. A step that needs a page fails
then, be it a new one or one that was told a page without items; but for its handle everything stays
as it was. A step that finds an item has it, in every mode; and in direct mode a step that needs a
page asks for it, at the cursor at which the scan stands. So a cursor that nobody closed has an
account that transactions do not touch: it stands where the last answer put it, its position is the
number of items taken, and every item of the pages that arrived was delivered or waits, once only. -/
theorem scans_beside_transactions (address : Value × Value) (timeout : Timeout) :
    let start := connected address timeout
    (∀ acts, (start.after acts).mode = .transactional →
      (∀ method m args named, Method.named? method = some m → m.scans = true →
        ∃ e, (start.after acts).call method args named = (start.after acts, .error e) ∧
          (e = pageBarred ∨ m.call .direct args named = .error e)) ∧
      (∀ i way, ((start.after acts).step i way).connection = (start.after acts).connection) ∧
      ∀ piece, ((start.after acts).receive piece).connection =
        (start.after acts).connection.map fun d => (d.receive piece).1) ∧
    (∀ (s : Session) i scan way, s.scans[i]? = some scan →
      (scan.cursor.begin way = .fetch scan.cursor →
        (s.mode = .transactional → s.step i way = s.addEnded (.failed pageBarred)) ∧
        (s.mode = .direct → s.Appends (s.request? (.bytes (Bytes.ascii "ZSCAN"))
          (scan.key :: .int scan.cursor.id :: scan.cursor.options.arguments)).toList
            (s.step i way))) ∧
      (∀ h r cursor, scan.cursor.resume decodePairs way (pageOf r.toValue) = .fetch cursor →
        s.mode = .transactional → s.tell ⟨.fetching h i way, .reply r⟩ =
          (s.setCursor i cursor).endHandle h (.failed pageBarred)) ∧
      ∀ v vs, scan.cursor.pending = v :: vs →
        s.step i .item = (s.setCursor i { scan.cursor with
          pending := vs, position := scan.cursor.position + 1 }).addEnded (.result (.value v))) ∧
    ∀ acts i scan, (start.after acts).scans[i]? = some scan → scan.cursor.state ≠ .closed →
      ∃ first, made? i start acts = some first ∧ scan.key = first.key ∧
        first.cursor.Account (arrivals i start acts) (deliveries i start acts) scan.cursor := by
  intro start
  refine ⟨?barred, ?steps, ?account⟩
  case barred =>
    intro acts hm
    obtain ⟨owners, hs⟩ := exists_owners address timeout acts
    refine ⟨?_, ?_, ?_⟩
    · intro method m args named hmethod hscans
      exact call_of_scans hm hmethod hscans args named
    · exact connection_step_of_transactional hm
    · exact hs.connection_receive hm
  case steps =>
    intro s i scan way hi
    refine ⟨?_, ?_, ?_⟩
    · intro hp
      exact ⟨fun hm => step_of_transactional hm hi hp, fun hm => appends_step_of_direct hm hi hp⟩
    · intro h r cursor hp hm
      exact tell_of_transactional hm hi hp
    · intro v vs hp
      exact step_of_pending hi hp
  case account =>
    intro acts i scan hi hopen
    obtain ⟨owners, ha⟩ := exists_accounted address timeout i acts
    generalize made? i start acts = first? at ha ⊢
    cases ha.follows with
    | absent hc => cases hc.symm.trans hi
    | @there first scan' hc hkey h =>
      obtain rfl := Option.some.inj (hc.symm.trans hi)
      exact ⟨first, rfl, hkey, h hopen⟩

/-- A scan whose first page has two items; the second one is taken inside a transaction. -/
def takenInside : List Act :=
  [.call "zscan_iter" [.bytes (Bytes.ascii "s")] [], .step 0 .item,
    .receive (Bytes.ascii
      "*2\r\n$1\r\n7\r\n*4\r\n$1\r\na\r\n$3\r\ninf\r\n$1\r\nb\r\n$3\r\ninf\r\n"),
    .execute (.bytes (Bytes.ascii "MULTI")) [], .step 0 .item]

/-- The next step fails. When the transaction is over, another one asks for the last page. -/
def resumedAfter : List Act :=
  takenInside ++ [.step 0 .item, .execute (.bytes (Bytes.ascii "EXEC")) [],
    .receive (Bytes.ascii "+OK\r\n*0\r\n"), .step 0 .item,
    .receive (Bytes.ascii "*2\r\n$1\r\n0\r\n*2\r\n$1\r\nc\r\n$3\r\ninf\r\n")]

/-- The step inside the transaction leaves nothing but its failure, and the scan delivers its three
items. -/
theorem scans_beside_transactions_resumedAfter :
    let start := connected (.none, .none) .none
    (start.after takenInside).mode = .transactional ∧
      (start.after takenInside).step 0 .item =
        (start.after takenInside).addEnded (.failed pageBarred) ∧
      (deliveries 0 start resumedAfter).length = 3 ∧
      ∃ first scan, made? 0 start resumedAfter = some first ∧
        (start.after resumedAfter).scans[0]? = some scan ∧ scan.cursor.state = .exhausted ∧
        first.cursor.Account (arrivals 0 start resumedAfter) (deliveries 0 start resumedAfter)
          scan.cursor := by
  intro start
  have hmode : (start.after takenInside).mode = .transactional := by decide +kernel
  -- the cursor inside the transaction, and after the scan
  have hinside : (start.after takenInside).scans[0]?.map
      (fun scan => (scan.cursor.state, scan.cursor.pending.length)) = some (.active, 0) := by
    decide +kernel
  have hover : (start.after resumedAfter).scans[0]?.map (fun scan => scan.cursor.state) =
      some .exhausted := by decide +kernel
  obtain ⟨scan, hi, hscan⟩ := Option.map_eq_some_iff.1 hinside
  obtain ⟨hstate, hpending⟩ := Prod.mk.inj hscan
  obtain ⟨last, hlast, hexhausted⟩ := Option.map_eq_some_iff.1 hover
  obtain ⟨-, hsteps, haccount⟩ := scans_beside_transactions (.none, .none) .none
  have hp : scan.cursor.begin .item = .fetch scan.cursor := by
    simp [Cursor.begin, Cursor.take, Cursor.request, Cursor.refusal?, hstate,
      List.length_eq_zero_iff.1 hpending]
  refine ⟨hmode, ((hsteps _ 0 scan .item hi).1 hp).1 hmode, by decide +kernel, ?_⟩
  obtain ⟨first, hfirst, -, h⟩ := haccount resumedAfter 0 last hlast (by simp [hexhausted])
  exact ⟨first, last, hfirst, hlast, hexhausted, h⟩

end Session

end SortedSets

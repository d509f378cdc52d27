import SortedSets.Proofs.Session.History

/-!
# What a batch writes

A batch is written at once: the requests of its commands, and around them those that begin and end
a transaction. If the sending of a transaction is broken off, what was gathered is written all the
same, without its end, and the connection is left inside of the transaction.

## Main definitions

* `Batch.requests`: the bytes of the commands that a batch sends
* `beginRequest`, `endRequest`: the bytes around a transaction
* `Batch.script`: the commands that a transaction sends

## Main results

* `Session.enrolment_launch`: the roles of the commands of a batch, and the transaction after it
* `Session.writes_of_transaction`: what a transaction writes, and the mode of the connection after it
-/

namespace SortedSets

/-- The bytes that begin a transaction. -/
def beginRequest : Bytes := Bytes.ascii "*1\r\n$5\r\nMULTI\r\n"

/-- The bytes that end a transaction. -/
def endRequest : Bytes := Bytes.ascii "*1\r\n$4\r\nEXEC\r\n"

theorem beginRequest_ne_nil : beginRequest ≠ [] := by decide

namespace Batch

/-- The bytes of the commands of a batch that are sent, one after the other. -/
def requests (c : Connection Listener) (x : Batch) : List Bytes :=
  (x.slots.takeWhile fun slot => !slot.blocks c).filterMap (Slot.request? c)

/-- The sending of a batch is broken off at one of its commands. -/
def stops (c : Connection Listener) (x : Batch) : Bool :=
  x.slots.any (Slot.blocks c)

/-- All bytes that a batch sends over an open connection. -/
def written (c : Connection Listener) (x : Batch) : List Bytes :=
  if x.transactional then
    beginRequest :: (x.requests c ++ if x.stops c then [] else [endRequest])
  else x.requests c

/-- The verbs of the commands that a batch sends over an open connection. -/
def verbs (c : Connection Listener) (x : Batch) : List (Option Verb) :=
  if x.transactional then
    some .multi :: (List.replicate (x.requests c).length (some .other) ++
      if x.stops c then [] else [some .exec])
  else List.replicate (x.requests c).length (some .other)

variable {c d : Connection Listener} (h : d.isClosed = c.isClosed) (x : Batch)

include h

theorem requests_congr : x.requests d = x.requests c := by
  rw [requests, requests, Slot.request?_congr h, Slot.blocks_congr h]

theorem written_congr : x.written d = x.written c := by
  rw [written, written, requests_congr h, stops, stops, Slot.blocks_congr h]

theorem verbs_congr : x.verbs d = x.verbs c := by
  rw [verbs, verbs, requests_congr h, stops, stops, Slot.blocks_congr h]

omit h

/-- The commands that a transaction sends over an open connection, if it is not broken off. -/
def script (c : Connection Listener) (x : Batch) : RawTransaction where
  items := List.replicate (x.requests c).length .command
  discards := false

theorem verbs_eq_script (htr : x.transactional = true) (hs : x.stops c = false) :
    x.verbs c = (x.script c).verbs.map some := by
  simp [verbs, htr, hs, script, RawTransaction.verbs, Item.verb]

/-- A transaction that is broken off stays open. -/
theorem transaction_enrolAll (htr : x.transactional = true) (rs : List Role) :
    (enrolAll (rs, none) (x.verbs c)).2 = none ↔ x.stops c = false := by
  cases hs : x.stops c with
  | false =>
    rw [verbs_eq_script x htr hs, enrolAll_transaction]
    exact iff_of_true rfl rfl
  | true =>
    have hsplit : x.verbs c =
        [some .multi] ++ (List.replicate (x.requests c).length Item.command).map
          fun i => some i.verb := by
      simp [verbs, htr, hs, Item.verb]
    have hopen : enrolAll (rs, none) [some .multi] = (rs ++ [.plain], some []) := rfl
    rw [hsplit, enrolAll_append, hopen, enrolAll_items]
    simp

end Batch

/-- What a row of commands is on the wire. -/
theorem requests_rowFrom {c : Connection Listener} (b : BatchId) (i : Nat) (slots : List Slot) :
    (rowFrom b c i slots).flatMap (fun d => (d.event.request? c).toList) =
      (slots.takeWhile fun slot => !slot.blocks c).filterMap (Slot.request? c) := by
  induction slots generalizing i with
  | nil => rfl
  | cons slot rest ih =>
    have hreq : (slot.dispatch b i).event.request? c = slot.request? c := rfl
    cases hr : slot.request? c with
    | some data =>
      have hf : slot.fits c = true := by rw [Slot.fits, hr]; rfl
      rw [rowFrom, if_pos hf, List.flatMap_cons, hreq, hr, ih]
      simp [Slot.blocks, hf, hr]
    | none =>
      have hf : slot.fits c = false := by rw [Slot.fits, hr]; rfl
      cases hfill : slot.filled <;> simp [rowFrom, Slot.blocks, hf, hfill, hr, ih]

/-- The verbs of a row of commands that open and end no transaction. -/
theorem verbs_rowFrom {c : Connection Listener} {slots : List Slot}
    (hv : ∀ slot ∈ slots, Verb.ofWord (.bytes slot.command.name) = .ok .other) (b : BatchId)
    (i : Nat) : (rowFrom b c i slots).flatMap (fun d => (d.event.verb? c).toList) =
      List.replicate (rowFrom b c i slots).length (some .other) := by
  -- the row has a verb for each of its commands, and none opens or ends a transaction
  have hall : ∀ d ∈ rowFrom b c i slots, d.event.verb? c = some (some .other) := by
    induction slots generalizing i with
    | nil => simp [rowFrom]
    | cons slot rest ih =>
      have ih' := ih (fun y hy => hv y (List.mem_cons_of_mem slot hy)) (i + 1)
      rw [rowFrom]
      split
      · next hf =>
        intro d hd
        rcases List.mem_cons.1 hd with rfl | hd
        · obtain ⟨data, hdata⟩ := Slot.exists_request hf
          have hw := hv slot List.mem_cons_self
          simp only [Slot.dispatch, Dispatch.event, Event.verb?, hdata, hw]
          rfl
        · exact ih' d hd
      · split
        · simp
        · exact ih'
  generalize rowFrom b c i slots = row at hall
  induction row with
  | nil => rfl
  | cons d row ih =>
    rw [List.flatMap_cons, hall d List.mem_cons_self, List.length_cons, List.replicate_succ,
      ih fun e he => hall e (List.mem_cons_of_mem d he)]
    rfl

theorem length_rowFrom {c : Connection Listener} (b : BatchId) (i : Nat) (slots : List Slot) :
    (rowFrom b c i slots).length =
      ((slots.takeWhile fun slot => !slot.blocks c).filterMap (Slot.request? c)).length := by
  induction slots generalizing i with
  | nil => rfl
  | cons slot rest ih =>
    cases hr : slot.request? c with
    | some data =>
      have hf : slot.fits c = true := by rw [Slot.fits, hr]; rfl
      simp [rowFrom, Slot.blocks, hf, hr, ih]
    | none =>
      have hf : slot.fits c = false := by rw [Slot.fits, hr]; rfl
      cases hfill : slot.filled <;> simp [rowFrom, Slot.blocks, hf, hfill, hr, ih]

section Open

variable {c : Connection Listener} (ho : c.isClosed = false) (b : BatchId) (x : Batch)

include ho

/-- The requests around a transaction. -/
theorem request?_frame : (b.frame "MULTI").event.request? c = some beginRequest ∧
    (b.frame "EXEC").event.request? c = some endRequest := by
  simp only [Dispatch.event, BatchId.frame, Event.request?, Connection.requestOf, ho]
  exact ⟨rfl, rfl⟩

theorem verb?_frame : (b.frame "MULTI").event.verb? c = some (some .multi) ∧
    (b.frame "EXEC").event.verb? c = some (some .exec) := by
  obtain ⟨⟨⟨data, hm⟩, -⟩, ⟨⟨data', hx⟩, -⟩⟩ := Session.Sending.sendable_frame ho b
  simp only [Dispatch.event, Event.verb?, hm, hx]
  exact ⟨rfl, rfl⟩

theorem requests_row :
    (x.row b c).flatMap (fun d => (d.event.request? c).toList) = x.written c := by
  obtain ⟨hm, hx⟩ := request?_frame ho b
  unfold Batch.row Batch.written Batch.stops
  rw [ho]
  cases x.transactional <;> cases x.slots.any (Slot.blocks c) <;>
    simp [hm, hx, requests_rowFrom, Batch.requests]

theorem verbs_row (hv : ∀ slot ∈ x.slots, Verb.ofWord (.bytes slot.command.name) = .ok .other) :
    (x.row b c).flatMap (fun d => (d.event.verb? c).toList) = x.verbs c := by
  obtain ⟨hm, hx⟩ := verb?_frame ho b
  unfold Batch.row Batch.verbs Batch.stops
  rw [ho]
  cases x.transactional <;> cases x.slots.any (Slot.blocks c) <;>
    simp [hm, hx, verbs_rowFrom hv, length_rowFrom, Batch.requests]

end Open

namespace Session

variable {address : Value × Value} {timeout : Timeout} {c : Connection Listener} {x : Batch}

/-- A batch is written at once, unless it has no bytes. -/
theorem writes_launch_eq (ho : c.isClosed = false) (b : BatchId) (x : Batch) :
    (c.enterBuffer.executeAll (x.row b c)).leaveBuffer.writes =
      c.writes ++ if (x.written c).flatten = [] then [] else [(x.written c).flatten] := by
  have hopen : c.enterBuffer.isClosed = c.isClosed := rfl
  obtain ⟨es, hes, hrun, hreq, -⟩ := Connection.executeAll_run c.enterBuffer (x.row b c)
  obtain ⟨hw, hb⟩ := Connection.gathered_run hes (c := c.enterBuffer) (g := []) rfl
  rw [← Batch.row_congr hopen, requests_row (hopen.trans ho), Batch.written_congr hopen] at hreq
  have hclosed : (c.enterBuffer.run es).isClosed = false :=
    (Connection.isClosed_run hes).trans (hopen.trans ho)
  have hw : (c.enterBuffer.run es).writes = c.writes := hw
  have hstill : ({ c.enterBuffer.run es with buffer := none } : Connection Listener).isClosed =
      false := hclosed
  rw [hrun, Connection.leaveBuffer, hb, hreq, List.nil_append, Option.getD_some]
  simp only [hstill, Bool.false_eq_true, or_false]
  split
  · exact hw.trans (List.append_nil _).symm
  · exact congrArg (· ++ [(x.written c).flatten]) hw

theorem writes_launch (ho : c.isClosed = false) (b : BatchId) (x : Batch)
    (hne : (x.written c).flatten ≠ []) :
    (c.enterBuffer.executeAll (x.row b c)).leaveBuffer.writes =
      c.writes ++ [(x.written c).flatten] := by
  rw [writes_launch_eq ho, if_neg hne]

/-- Over a closed connection nothing is written. -/
theorem writes_launch_of_closed (hcl : c.isClosed = true) (b : BatchId) (x : Batch) :
    (c.enterBuffer.executeAll (x.row b c)).leaveBuffer.writes = c.writes := by
  obtain ⟨es, hes, hrun, -⟩ := Connection.executeAll_run c.enterBuffer (x.row b c)
  obtain ⟨hw, -⟩ := Connection.gathered_run hes (c := c.enterBuffer) (g := []) rfl
  have hclosed : (c.enterBuffer.run es).isClosed = true := (Connection.isClosed_run hes).trans hcl
  rw [hrun, Connection.writes_leaveBuffer hclosed]
  exact hw

/-- The roles of the commands of a batch, and the transaction that is open after it. -/
theorem enrolment_launch {es₀ : List (Event Listener)}
    (hc : c = (Connection.start address timeout).run es₀) (ho : c.isClosed = false) (b : BatchId)
    (hv : ∀ slot ∈ x.slots, Verb.ofWord (.bytes slot.command.name) = .ok .other) :
    ((c.enterBuffer.executeAll (x.row b c)).leaveBuffer.roles,
        (c.enterBuffer.executeAll (x.row b c)).leaveBuffer.transaction) =
      enrolAll (c.roles, c.transaction) (x.verbs c) := by
  have hopen : c.enterBuffer.isClosed = c.isClosed := rfl
  have hstart : c.enterBuffer = (Connection.start address timeout).run (es₀ ++ [.enterBuffer]) := by
    rw [Connection.run_append, ← hc]
    rfl
  have hall := Connection.enrolment_executeAll hstart (hopen.trans ho) (x.row b c.enterBuffer)
  rw [verbs_row (hopen.trans ho) b x hv, Batch.row_congr hopen, Batch.verbs_congr hopen] at hall
  rw [Connection.leaveBuffer_frame]
  exact hall

/-- The commands of a batch open and end no transaction. -/
theorem Holds.verb {terms : Terms} {owners : List Owner} {ns : List (Notice Listener)} {s : Session}
    (hs : Holds terms owners ns s) {b : BatchId} (hx : s.batches[b]? = some x) (slot : Slot)
    (hslot : slot ∈ x.slots) : Verb.ofWord (.bytes slot.command.name) = .ok .other := by
  obtain ⟨L, T, -, hc⟩ := hs
  exact (hc.command b x hx slot hslot).verb

/-- A transaction is sent, at some time in a run and over a connection in direct mode. If it was
sent before, or is empty, or if the connection is closed, nothing is written and the mode stays.
Else there is one write, which begins with the request that begins a transaction; it ends with the
one that ends it, and the connection is in direct mode again, unless the sending is broken off at one
of the commands. -/
theorem writes_of_transaction (address : Value × Value) (timeout : Timeout) (before : List Act)
    (b : BatchId) (collectsErrors : Bool) {x : Batch} {c : Connection Listener}
    (hx : ((connected address timeout).after before).batches[b]? = some x)
    (htr : x.transactional = true)
    (hc : ((connected address timeout).after before).connection = some c)
    (hmode : c.mode = .direct) :
    ∃ d, (((connected address timeout).after before).run b collectsErrors).connection = some d ∧
      (x.spent = true ∨ x.slots = [] ∨ c.isClosed = true →
        d.writes = c.writes ∧ d.mode = .direct) ∧
      (x.spent = false → x.slots ≠ [] → c.isClosed = false →
        d.writes = c.writes ++ [beginRequest ++ ((x.requests c).flatten ++
          if x.stops c then [] else endRequest)] ∧
        (d.mode = .direct ↔ x.stops c = false)) := by
  set s := (connected address timeout).after before with hs
  have htransaction : c.transaction = none := by
    cases ht : c.transaction with
    | none => rfl
    | some q => simp [Connection.mode, Connection.inTransaction, ht] at hmode
  have hsame (h : x.spent = true ∨ x.slots = []) :
      (s.run b collectsErrors).connection = some c := by
    rw [← hc]
    cases hsp : x.spent with
    | true => simp [Session.run, hx, hsp, addEnded]
    | false =>
      have hn : x.slots = [] := h.resolve_left (by simp [hsp])
      simp [Session.run, hx, hsp, hn, addEnded]
  -- a batch that was sent before, or has no commands, leaves the connection alone
  by_cases hidle : x.spent = true ∨ x.slots = []
  · refine ⟨c, hsame hidle, fun _ => ⟨rfl, hmode⟩, fun hsp hne => ?_⟩
    rcases hidle with h | h
    · cases hsp.symm.trans h
    · exact absurd h hne
  · obtain ⟨hsp, hne⟩ := not_or.1 hidle
    obtain ⟨owners, hholds⟩ := exists_owners address timeout before
    obtain ⟨j, -, hl⟩ := hholds.launched hx (by simpa using hsp) hne hc collectsErrors
    refine ⟨_, hl.connection, fun h => ?_, fun _ _ ho => ⟨?_, ?_⟩⟩
    · -- the transaction is not begun
      have hcl : c.isClosed = true := by simpa [hsp, hne] using h
      have hrow : x.row b c = [] := by simp [Batch.row, htr, hcl]
      refine ⟨writes_launch_of_closed hcl b x, ?_⟩
      rw [hrow, Connection.leaveBuffer_frame]
      exact hmode
    · -- the beginning alone is enough for a write
      have hw : (x.written c).flatten = beginRequest ++ ((x.requests c).flatten ++
          if x.stops c then [] else endRequest) := by
        simp only [Batch.written, htr, if_true, List.flatten_cons, List.flatten_append]
        cases x.stops c <;> simp
      rw [writes_launch ho b x, hw]
      rw [hw]
      exact List.append_ne_nil_of_left_ne_nil beginRequest_ne_nil _
    · -- the mode follows from the verbs that were sent, of which the last may be missing
      obtain ⟨es, htraced⟩ := exists_traced address timeout before
      obtain rfl := Option.some.inj (hc.symm.trans htraced.connection)
      have henrol := enrolment_launch rfl ho b (hholds.verb hx)
      rw [htransaction] at henrol
      have htransaction' := congrArg Prod.snd henrol
      rw [← Batch.transaction_enrolAll x htr ((Connection.start address timeout).run es).roles,
        ← htransaction', Connection.mode, Connection.inTransaction]
      cases (Connection.leaveBuffer _).transaction <;> simp

/-- A transaction of two commands, one of which cannot be sent. -/
def halfSendable : List Act :=
  [.newBatch true, .enqueue 0 "zcard" [.list [.int 1]] [],
    .enqueue 0 "zcard" [.text (.ofString "k")] []]

/-- The other command is sent between the beginning and the end of the transaction. -/
theorem writes_of_transaction_halfSendable :
    ∃ d, ((connected (.none, .none) .none).after (halfSendable ++ [.run 0 false])).connection =
        some d ∧
      d.writes = [beginRequest ++ (Bytes.ascii "*2\r\n$5\r\nZCARD\r\n$1\r\nk\r\n" ++ endRequest)] ∧
      d.mode = .direct := by
  have hx : ((connected (.none, .none) .none).after halfSendable).batches[0]? =
      some ⟨true, [⟨.plain "ZCARD" [.list [.int 1]], 0, false⟩,
        ⟨.plain "ZCARD" [.text (.ofString "k")], 1, false⟩], false, none⟩ := rfl
  obtain ⟨d, hd, -, hopen⟩ := writes_of_transaction (.none, .none) .none halfSendable 0 false hx rfl
    rfl rfl
  obtain ⟨hw, hmode⟩ := hopen rfl (by simp) rfl
  exact ⟨d, hd, hw.trans rfl, hmode.2 rfl⟩

/-- A transaction may be left open: a command that cannot be sent and was given up breaks the sending
off, and only the beginning of the transaction is written. -/
theorem not_balanced :
    ¬ ∀ (before : List Act) (b : BatchId) (collectsErrors : Bool) (x : Batch)
      (c d : Connection Listener),
      let s := (connected (.none, .none) .none).after before
      s.batches[b]? = some x → x.transactional = true → s.connection = some c →
        c.mode = .direct → (s.run b collectsErrors).connection = some d →
          d.mode = .direct ∧ (d.writes = c.writes ∨
            ∃ middle, d.writes = c.writes ++ [beginRequest ++ (middle ++ endRequest)]) := by
  intro h
  have hmode := (h (halfSendable ++ [.cancel 0]) 0 false _ _ _ rfl rfl rfl rfl rfl).1
  cases hmode

end Session

end SortedSets

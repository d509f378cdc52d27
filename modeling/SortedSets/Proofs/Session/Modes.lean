import SortedSets.Proofs.Session.Results

/-!
# Execution modes

A call may send its command at once, be queued on a batch that is sent later, as a transaction or
not, or be sent inside of a transaction that the client opened itself. The replies are the same: one
after the other, or together in the answer to the end of the transaction. And so are the results.

## Main definitions

* `transactionAnswers`, `Batch.answers`: the answers of a server to a transaction, and to a batch
* `Batch.Placed`: the exchanges of a batch that was sent
* `Session.Direct`: the connection is open, and no transaction is
* `Session.DirectResults`, `Session.BatchResults`, `Session.TransactionResults`: calls have their
  results when they send their commands at once, on a batch, and inside of a transaction

## Main results

* `Session.result_of_call`: a call that sends its command at once
* `Session.results_of_batch`: calls that are queued on a batch
* `Session.results_of_transaction`: calls inside of a transaction
* `Session.results_in_every_mode`: all of them have the same results
-/

namespace SortedSets

open Wire (Reply)

/-! ## The server -/

/-- The answers of a server to a transaction whose commands have the given replies. -/
def transactionAnswers (rs : List Reply) : List Reply :=
  .bytes (Bytes.ascii "OK") ::
    (List.replicate rs.length (.bytes (Bytes.ascii "QUEUED")) ++ [.array rs])

/-- The answers of a server to a batch whose commands have the given replies; an empty batch is not
sent. -/
def Batch.answers (transactional : Bool) (rs : List Reply) : List Reply :=
  if transactional && !rs.isEmpty then transactionAnswers rs else rs

/-- The answers stand in their places among the replies. -/
theorem getElem?_of_prefix_drop {α : Type} {xs ys : List α} {m : Nat} (h : xs <+: ys.drop m) {i : Nat}
    {a : α} (hi : xs[i]? = some a) : ys[m + i]? = some a := by
  obtain ⟨rest, hrest⟩ := h
  have hlt : i < xs.length := (List.getElem?_eq_some_iff.1 hi).1
  rw [← List.getElem?_drop, ← hrest, List.getElem?_append_left hlt, hi]

theorem getElem?_transactionAnswers (rs : List Reply) :
    (transactionAnswers rs)[0]? = some (.bytes (Bytes.ascii "OK")) ∧
      (∀ i < rs.length, (transactionAnswers rs)[1 + i]? = some (.bytes (Bytes.ascii "QUEUED"))) ∧
      (transactionAnswers rs)[1 + rs.length]? = some (.array rs) := by
  refine ⟨rfl, fun i hi => ?_, ?_⟩
  · rw [transactionAnswers, Nat.add_comm, List.getElem?_cons_succ,
      List.getElem?_append_left (by rwa [List.length_replicate]), List.getElem?_replicate, if_pos hi]
  · rw [transactionAnswers, Nat.add_comm, List.getElem?_cons_succ,
      List.getElem?_append_right (by simp)]
    simp

/-! ## The exchanges of a batch -/

namespace Batch

/-- The ticket of the command at a place of a batch that was sent from the ticket `m` on. -/
def ticket (x : Batch) (m : Ticket) (i : Nat) : Ticket :=
  if x.transactional then m + 1 + i else m + i

/-- How many commands a batch sends in all. -/
def span (x : Batch) : Nat :=
  if x.transactional then x.slots.length + 2 else x.slots.length

/-- The exchanges of a batch that was sent from the ticket `m` on. -/
structure Placed (x : Batch) (b : BatchId) (m : Ticket) (d : Connection Listener) : Prop where
  listener : ∀ i < x.slots.length, d.listener? (x.ticket m i) = some (.slot b i)
  plain : x.transactional = false → ∀ i < x.slots.length, d.role? (m + i) = some .plain
  opening : x.transactional = true → d.role? m = some .plain
  ending : x.transactional = true → d.role? (m + 1 + x.slots.length) =
    some (.ending false (List.range' (m + 1) x.slots.length))

variable {x : Batch} {b : BatchId} {m : Ticket} {c d : Connection Listener}

theorem Placed.run (h : x.Placed b m d) (es : List (Event Listener)) : x.Placed b m (d.run es) where
  listener i hi := Connection.listener?_run (h.listener i hi) es
  plain ht i hi := Connection.role?_run (h.plain ht i hi) es
  opening ht := Connection.role?_run (h.opening ht) es
  ending ht := Connection.role?_run (h.ending ht) es

section Fits

variable (hf : ∀ slot ∈ x.slots, slot.fits c = true)

include hf

theorem stops_of_fits : x.stops c = false := by
  refine List.any_eq_false.2 fun slot hslot => ?_
  simp [Slot.blocks, hf slot hslot]

theorem failure?_of_fits (ho : c.isClosed = false) : x.failure? c = none := by
  have hs : x.slots.any (Slot.blocks c) = false := stops_of_fits hf
  simp [failure?, ho, hs]

theorem length_requests_of_fits : (x.requests c).length = x.slots.length := by
  have h := length_rowFrom (c := c) 0 0 x.slots
  rw [rowFrom_of_fits hf, List.length_mapIdx] at h
  exact h.symm

/-- The commands that a batch sends if all can be sent. -/
theorem row_of_fits (ho : c.isClosed = false) (b : BatchId) : x.row b c =
    if x.transactional then
      b.frame "MULTI" :: ((x.slots.mapIdx fun i slot => slot.dispatch b i) ++ [b.frame "EXEC"])
    else x.slots.mapIdx fun i slot => slot.dispatch b i := by
  have hs : x.slots.any (Slot.blocks c) = false := stops_of_fits hf
  simp only [row, ho, hs, rowFrom_of_fits hf, Nat.zero_add]
  rfl

theorem length_row_of_fits (ho : c.isClosed = false) (b : BatchId) :
    (x.row b c).length = x.span := by
  rw [row_of_fits hf ho, span]
  split <;> simp

theorem getElem?_row_of_fits (ho : c.isClosed = false) (b : BatchId) {i : Nat}
    (hi : i < x.slots.length) : (x.row b c)[x.ticket 0 i]? = some (x.slots[i].dispatch b i) := by
  rw [row_of_fits hf ho, ticket]
  split
  · rw [Nat.zero_add, Nat.add_comm, List.getElem?_cons_succ,
      List.getElem?_append_left (by simpa using hi)]
    simp [hi]
  · simp [hi]

end Fits

end Batch

theorem queueFrom_replicate (t : Ticket) (n : Nat) :
    Item.queueFrom t (List.replicate n .command) = List.range' t n := by
  induction n generalizing t with
  | zero => rfl
  | succ n ih => rw [List.replicate_succ, Item.queueFrom, ih, List.range'_succ]

/-- Commands outside of a transaction answer for themselves. -/
theorem enrolAll_replicate (n : Nat) (rs : List Role) :
    enrolAll (rs, none) (List.replicate n (some .other)) = (rs ++ List.replicate n .plain, none) := by
  induction n generalizing rs with
  | zero => simp [enrolAll]
  | succ n ih =>
    refine (ih (rs ++ [.plain])).trans ?_
    rw [List.append_assoc]
    rfl

/-- A word of the verb, which can be sent. -/
structure Verb.HasWord (v : Verb) (w : Value) : Prop where
  verb : Verb.ofWord w = .ok v
  request : ∃ data, Wire.encode [w] = .ok data

namespace Session

section Run

variable {address : Value × Value} {timeout : Timeout} {es₀ : List (Event Listener)}
  {c : Connection Listener} {x : Batch}

/-- The slots of a batch listen to the exchanges of their commands. -/
theorem listener?_launch (ho : c.isClosed = false) (hdue : c.due = []) (b : BatchId)
    (hv : ∀ slot ∈ x.slots, Verb.ofWord (.bytes slot.command.name) = .ok .other)
    (hf : ∀ slot ∈ x.slots, slot.fits c = true) {i : Nat} (hi : i < x.slots.length) :
    (c.enterBuffer.executeAll (x.row b c)).leaveBuffer.listener? (x.ticket c.exchanges.length i) =
      some (.slot b i) := by
  have hsend (y) (hy : y ∈ x.row b c) : c.enterBuffer.Sendable y :=
    (Sending.sendable_row hv y hy).congr rfl
  have hl := (Connection.listener?_executeAll (c := c.enterBuffer) hdue hsend).2 _ _
    (Batch.getElem?_row_of_fits hf ho b hi)
  have hticket : x.ticket c.exchanges.length i = c.exchanges.length + x.ticket 0 i := by
    unfold Batch.ticket
    split
    · rw [Nat.zero_add, Nat.add_assoc]
    · rw [Nat.zero_add]
  rw [hticket, Connection.leaveBuffer_frame]
  exact hl

/-- A batch that is sent outside of a transaction, over an open connection. -/
theorem placed_launch (hc : c = (Connection.start address timeout).run es₀)
    (ho : c.isClosed = false) (hmode : c.transaction = none) (hdue : c.due = []) (b : BatchId)
    (hv : ∀ slot ∈ x.slots, Verb.ofWord (.bytes slot.command.name) = .ok .other)
    (hf : ∀ slot ∈ x.slots, slot.fits c = true) :
    x.Placed b c.exchanges.length (c.enterBuffer.executeAll (x.row b c)).leaveBuffer := by
  have hlen := Connection.length_roles c
  set d := (c.enterBuffer.executeAll (x.row b c)).leaveBuffer with hd
  have hroles : d.roles = (enrolAll (c.roles, none) (x.verbs c)).1 := by
    rw [← hmode]
    exact congrArg Prod.fst (enrolment_launch hc ho b hv)
  -- every command can be sent, so that the words of the batch are those of its script
  have hverbs : x.verbs c = if x.transactional then (x.script c).verbs.map some
      else List.replicate x.slots.length (some .other) := by
    split
    · next ht => exact Batch.verbs_eq_script x ht (Batch.stops_of_fits hf)
    · next ht => simp [Batch.verbs, ht, Batch.length_requests_of_fits hf]
  have hscript : x.script c = ⟨List.replicate x.slots.length .command, false⟩ := by
    rw [Batch.script, Batch.length_requests_of_fits hf]
  refine ⟨fun i hi => listener?_launch ho hdue b hv hf hi, fun ht i hi => ?plain,
    fun ht => ?opening, fun ht => ?ending⟩
  case plain =>
    rw [hverbs, ht, if_neg Bool.false_ne_true, enrolAll_replicate] at hroles
    rw [← Connection.getElem?_roles, hroles, List.getElem?_append_right (by omega), hlen]
    simp [hi]
  all_goals
    rw [hverbs, ht, if_pos rfl, hscript, enrolAll_transaction, RawTransaction.roles] at hroles
    rw [← Connection.getElem?_roles, hroles, List.getElem?_append_right (by omega), hlen]
  case opening => simp
  case ending =>
    have hplace : c.exchanges.length + 1 + x.slots.length - c.exchanges.length =
        x.slots.length + 1 := by omega
    rw [hplace, List.getElem?_cons_succ, List.getElem?_append_right (by simp)]
    simp [RawTransaction.queue, queueFrom_replicate]

/-- A batch all of whose commands can be sent, at any time after it was sent. -/
theorem exists_sent {before after acts : List Act}
    (hc : ((connected address timeout).after before).connection = some c) (ho : c.isClosed = false)
    {b : BatchId} {collectsErrors : Bool}
    (hx : ((connected address timeout).after before).batches[b]? = some x) (hsp : x.spent = false)
    (hne : x.slots ≠ []) (hf : ∀ slot ∈ x.slots, slot.fits c = true)
    (hacts : acts = before ++ .run b collectsErrors :: after) :
    ∃ (fs : List (Event Listener)) (z : Batch) (r : Run),
      ((connected address timeout).after acts).connection =
        some ((c.enterBuffer.executeAll (x.row b c)).leaveBuffer.run fs) ∧
      ((connected address timeout).after acts).batches[b]? = some z ∧
        z.transactional = x.transactional ∧ z.slots.map Slot.claim = x.slots.map Slot.claim ∧
          z.run = some r ∧ r.key = (((connected address timeout).after before).nextHandle,
            collectsErrors, List.range' c.exchanges.length x.span) := by
  obtain ⟨owners, hs⟩ := exists_owners address timeout before
  obtain ⟨j, -, hl⟩ := hs.launched hx hsp hne hc collectsErrors
  obtain ⟨z, r, hz, htr, hclaims, hr, hkey⟩ :=
    hl.exists_counting hx (Batch.failure?_of_fits hf ho) hacts
  rw [Batch.length_row_of_fits hf ho] at hkey
  have hrun : (connected address timeout).after (before ++ [.run b collectsErrors]) =
      ((connected address timeout).after before).run b collectsErrors := after_append ..
  obtain ⟨fs, hd⟩ := exists_run_after (hrun ▸ hl.connection) after
  rw [List.append_assoc, List.singleton_append, ← hacts] at hd
  exact ⟨fs, z, r, hd, hz, htr, hclaims, hr, hkey⟩

end Run

/-! ## How the exchanges end -/

section Answered

variable {address : Value × Value} {timeout : Timeout} {acts : List Act} {d : Connection Listener}
  (ht : timeout.atOnce? = none) (hu : (connected address timeout).Undisturbed acts)
  (hd : ((connected address timeout).after acts).connection = some d)

include ht hu hd

/-- The commands of a transaction end with the replies in the answer to its end. -/
theorem outcome?_of_transaction {m : Ticket} {rs : List Reply} (hopening : d.role? m = some .plain)
    (hending : d.role? (m + 1 + rs.length) =
      some (.ending false (List.range' (m + 1) rs.length)))
    (hans : transactionAnswers rs <+: (Act.replies acts).drop m) :
    (∀ (i : Nat) (r : Reply), rs[i]? = some r → d.outcome? (m + 1 + i) = some r.outcome) ∧
      d.outcome? m ≠ none ∧ d.outcome? (m + 1 + rs.length) ≠ none := by
  obtain ⟨hfirst, hqueued, hlast⟩ := getElem?_transactionAnswers rs
  have hlast' := getElem?_of_prefix_drop hans hlast
  rw [← Nat.add_assoc] at hlast'
  refine ⟨fun i r hr => ?_, ?_, ?_⟩
  · have hlt := (List.getElem?_eq_some_iff.1 hr).1
    have hack := getElem?_of_prefix_drop hans (hqueued i hlt)
    rw [← Nat.add_assoc] at hack
    exact outcome?_of_place ht hu hd hending hlast' hack (by simp [hlt]) hr
  · rw [outcome?_of_reply ht hu hd hopening (by simp) (getElem?_of_prefix_drop hans hfirst)]
    exact Option.some_ne_none _
  · rw [outcome?_of_reply ht hu hd hending (by simp) hlast']
    exact Option.some_ne_none _

/-- All exchanges of a batch end, those of its commands with their replies. -/
theorem outcome?_of_placed {x : Batch} {b : BatchId} {m : Ticket} (hp : x.Placed b m d)
    (hne : x.slots ≠ []) {rs : List Reply} (hlen : rs.length = x.slots.length)
    (hans : Batch.answers x.transactional rs <+: (Act.replies acts).drop m) :
    (∀ (i : Nat) (r : Reply), rs[i]? = some r → d.outcome? (x.ticket m i) = some r.outcome) ∧
      ∀ u ∈ List.range' m x.span, d.outcome? u ≠ none := by
  cases htr : x.transactional with
  | false =>
    have hown (i : Nat) (r : Reply) (hr : rs[i]? = some r) : d.outcome? (m + i) = some r.outcome := by
      rw [htr] at hans
      have hlt := (List.getElem?_eq_some_iff.1 hr).1
      exact outcome?_of_reply ht hu hd (hp.plain htr i (hlen ▸ hlt)) (by simp)
        (getElem?_of_prefix_drop hans hr)
    refine ⟨fun i r hr => ?_, fun u hu' => ?_⟩
    · rw [Batch.ticket, htr]
      exact hown i r hr
    · rw [Batch.span, htr, if_neg Bool.false_ne_true, List.mem_range'_1] at hu'
      obtain ⟨i, rfl⟩ := Nat.exists_eq_add_of_le hu'.1
      have hi : i < rs.length := hlen ▸ Nat.lt_of_add_lt_add_left hu'.2
      rw [hown i _ (List.getElem?_eq_getElem hi)]
      exact Option.some_ne_none _
  | true =>
    have hrs : rs ≠ [] := by
      rintro rfl
      exact hne (List.eq_nil_of_length_eq_zero hlen.symm)
    have hends := hp.ending htr
    rw [← hlen] at hends
    obtain ⟨hall, hfirst, hlast⟩ := outcome?_of_transaction ht hu hd (hp.opening htr) hends (by
      simpa [Batch.answers, htr, hrs] using hans)
    refine ⟨fun i r hr => ?_, fun u hu' => ?_⟩
    · rw [Batch.ticket, htr]
      exact hall i r hr
    · rw [Batch.span, htr, if_pos rfl, List.mem_range'_1, ← hlen] at hu'
      obtain ⟨i, rfl⟩ := Nat.exists_eq_add_of_le hu'.1
      -- the opening, the commands, and the end
      rcases Nat.lt_trichotomy i (rs.length + 1) with hi | rfl | hi
      · cases i with
        | zero => exact hfirst
        | succ i =>
          have hlt : i < rs.length := Nat.lt_of_succ_lt_succ hi
          rw [Nat.add_comm i, ← Nat.add_assoc, hall i _ (List.getElem?_eq_getElem hlt)]
          exact Option.some_ne_none _
      · rwa [Nat.add_comm rs.length, ← Nat.add_assoc]
      · exact absurd (Nat.lt_of_add_lt_add_left hu'.2) (by omega)

end Answered

/-! ## The modes -/

/-- The connection of the session is open, and no transaction is open on it. -/
structure Direct (s : Session) (c : Connection Listener) : Prop where
  connection : s.connection = some c
  isOpen : c.isClosed = false
  mode : c.mode = .direct

theorem Direct.transaction {s : Session} {c : Connection Listener} (h : s.Direct c) :
    c.transaction = none := by
  have hmode := h.mode
  cases ht : c.transaction with
  | none => rfl
  | some queue => simp [Connection.mode, Connection.inTransaction, ht] at hmode

/-- Over an open connection a command can be sent if it can be encoded. -/
theorem requestOf_of_encode {c : Connection Listener} (ho : c.isClosed = false) (name : Bytes)
    (args : List Value) :
    c.requestOf (.bytes name) args = Wire.encode (.bytes name :: args) :=
  Connection.requestOf_of_open (.inr rfl) ho

/-- Over an open connection the words that open and end transactions can be sent. -/
theorem exists_requestOf_of_word {c : Connection Listener} (ho : c.isClosed = false) {w : Value}
    {v : Verb} (hw : v.HasWord w) (hv : v ≠ .other) : ∃ data, c.requestOf w [] = .ok data := by
  obtain ⟨hverb, data, hdata⟩ := hw
  refine ⟨data, (Connection.requestOf_of_open ?_ ho).trans hdata⟩
  by_contra hn
  obtain ⟨ht, hb⟩ : w.text? = none ∧ w.bytes? = none := by simpa using hn
  rw [Verb.ofWord, hb, ht] at hverb
  exact hv (Except.ok.inj hverb).symm

/-- A batch without calls ends at once, and has no results. -/
theorem results_of_emptyBatch {address : Value × Value} {timeout : Timeout}
    {before after acts : List Act} {b : BatchId} {collectsErrors : Bool} {x : Batch}
    (hx : ((connected address timeout).after before).batches[b]? = some x)
    (hsp : x.spent = false) (hne : x.slots = [])
    (hacts : acts = before ++ .run b collectsErrors :: after) :
    ((connected address timeout).after acts).ending?
        ((connected address timeout).after before).nextHandle =
      some (.ofResults x.transactional collectsErrors []) := by
  set s := (connected address timeout).after before with hs
  have hrun : (connected address timeout).after (before ++ [.run b collectsErrors]) =
      s.run b collectsErrors := after_append ..
  have hsplit : acts = (before ++ [.run b collectsErrors]) ++ after := by
    rw [hacts, List.append_assoc]
    rfl
  have hend : (s.run b collectsErrors).ending? s.nextHandle = some (.result (.batch [])) := by
    simp only [Session.run, hx, hsp, hne, List.isEmpty_nil]
    exact (ending?_addEnded ..).trans (if_pos rfl)
  have hstay := kept_endingsStay.after (fun _ _ _ _ _ he => he) (fun _ _ _ _ he => he) address
    timeout (before ++ [.run b collectsErrors]) after
  rw [← hsplit, hrun] at hstay
  refine (hstay _ _ hend).trans ?_
  rw [Ending.ofResults]
  cases collectsErrors <;> rfl

section Modes

variable {address : Value × Value} {timeout : Timeout} {before after : List Act}
  {c : Connection Listener} (ht : timeout.atOnce? = none)
  (hdirect : ((connected address timeout).after before).Direct c)

include ht hdirect

/-- Calls that are queued on a batch. Their handles end with their results, and the batch ends with
all of them. -/
theorem results_of_batch {b : BatchId} {collectsErrors : Bool} {x : Batch}
    (hx : ((connected address timeout).after before).batches[b]? = some x)
    (hsp : x.spent = false) (hf : ∀ slot ∈ x.slots, slot.fits c = true) {rs : List Reply}
    (hlen : rs.length = x.slots.length) {acts : List Act}
    (hacts : acts = before ++ .run b collectsErrors :: after)
    (hu : (connected address timeout).Undisturbed acts)
    (hans : Batch.answers x.transactional rs <+: (Act.replies acts).drop c.exchanges.length)
    {results : List (Except Error Converted)}
    (hresults : results = List.zipWith Command.result (x.slots.map Slot.command) rs) :
    x.slots.map (fun slot => ((connected address timeout).after acts).ending? slot.handle) =
        results.map (fun result => some (.ofResult result)) ∧
      ((connected address timeout).after acts).ending?
          ((connected address timeout).after before).nextHandle =
        some (.ofResults x.transactional collectsErrors results) := by
  have hc := hdirect.connection
  have ho := hdirect.isOpen
  set s := (connected address timeout).after before with hs
  set t := (connected address timeout).after acts with htdef
  by_cases hne : x.slots = []
  · have hempty : results = [] := by rw [hresults, hne]; rfl
    refine ⟨by rw [hne, hempty]; rfl, ?_⟩
    rw [hempty]
    exact results_of_emptyBatch hx hsp hne hacts
  · obtain ⟨fs, z, r, hd, hz, htransactional, hclaims, hr, hkey⟩ :=
      exists_sent hc ho hx hsp hne hf hacts
    obtain ⟨hhandle, hcollects, htickets⟩ : r.handle = s.nextHandle ∧
        r.collectsErrors = collectsErrors ∧ r.tickets = List.range' c.exchanges.length x.span := by
      simpa [Run.key] using hkey
    -- nobody gives anything up
    obtain ⟨owners, hlater⟩ := exists_holds (fun _ => False) address timeout acts hu.spares
    -- all its exchanges have ended
    obtain ⟨es, htraced⟩ := exists_traced address timeout before
    obtain rfl := Option.some.inj (hc.symm.trans htraced.connection)
    obtain ⟨owners', hholds⟩ := exists_owners address timeout before
    have hplaced :=
      (placed_launch rfl ho hdirect.transaction (hholds.due hc) b (hholds.verb hx) hf).run fs
    obtain ⟨hout, hall⟩ := outcome?_of_placed ht hu hd hplaced hne hlen hans
    have hslots : x.slots.map (fun slot => t.ending? slot.handle) =
        results.map fun result => some (.ofResult result) := by
      refine List.ext_getElem? fun i => ?_
      rw [hresults, List.getElem?_map, List.getElem?_map, List.getElem?_zipWith, List.getElem?_map]
      cases hi : x.slots[i]? with
      | none => simp
      | some slot =>
        have hlt := (List.getElem?_eq_some_iff.1 hi).1
        have hr : rs[i]? = some rs[i] := List.getElem?_eq_getElem (hlen ▸ hlt)
        obtain ⟨slot', hi', hh, hcommand⟩ := exists_of_claims hclaims.symm hi
        have hend := hlater.ending?_of_slot hd (fun _ h => h) (hplaced.listener i hlt) hz hi'
          (hout i _ hr)
        rw [hh, hcommand] at hend
        simp only [hr, Option.map_some]
        exact congrArg some hend
    refine ⟨hslots, ?_⟩
    have hsame (z : Batch) : z.slots.map (fun slot => t.ending? slot.handle) =
        (z.slots.map Slot.claim).map fun p => t.ending? p.2 := by
      rw [List.map_map]
      rfl
    rw [hsame, ← hclaims, ← hsame] at hslots
    have hspan : List.range' ((Connection.start address timeout).run es).exchanges.length x.span ≠
        [] := by
      rw [Ne, List.range'_eq_nil_iff, Batch.span]
      split <;> simp [hne]
    have hend := hlater.ending?_of_run hd (fun _ h => h) hz hr (htickets ▸ hspan)
      (htickets ▸ hall) hslots
    rwa [hhandle, hcollects, htransactional] at hend

/-- A call that sends its command at once. Its handle ends with the result. -/
theorem result_of_call {k : MethodCall} {command : Command}
    (hk : k.command? .direct = some command)
    (hfits : ∃ data, c.requestOf (.bytes command.name) command.args = .ok data) {acts : List Act}
    (hacts : acts = before ++ .call k.method k.args k.named :: after)
    (hu : (connected address timeout).Undisturbed acts) {r : Reply}
    (hr : (Act.replies acts)[c.exchanges.length]? = some r)
    (hq : Conversion.isQueued r.toValue = false) :
    ∃ h, (((connected address timeout).after before).call k.method k.args k.named).2 =
        .ok (.handle h) ∧
      ((connected address timeout).after acts).ending? h =
        some (.ofResult (command.result r)) := by
  have hc := hdirect.connection
  set s := (connected address timeout).after before with hs
  have hmode : s.mode = .direct := by
    rw [Session.mode, hc]
    exact hdirect.mode
  obtain ⟨owners, hholds⟩ := exists_owners address timeout before
  obtain ⟨l, hreturned, hreads, hsend, hconn⟩ :=
    call_of_sendable hholds hc (hmode ▸ hk) hfits
  refine ⟨s.nextHandle, hreturned, ?_⟩
  have hword : Verb.ofWord (.bytes command.name) = .ok .other := by
    obtain ⟨m, -, hm⟩ := MethodCall.exists_of_command? hk
    exact Command.Made.verb ⟨m, _, _, hm⟩
  -- the command has the next exchange, now and later
  obtain ⟨es, htraced⟩ := exists_traced address timeout before
  have hstart := Option.some.inj (hc.symm.trans htraced.connection)
  have hdue := hholds.due hc
  have hrole := (Connection.classify_execute hstart hdirect.isOpen hsend.request hword).1
  rw [hdirect.transaction] at hrole
  have hlisten := (Connection.length_execute hdue hsend).2
  have hafter : (connected address timeout).after (before ++ [.call k.method k.args k.named]) =
      (s.call k.method k.args k.named).1 := after_append ..
  obtain ⟨fs, hd⟩ := exists_run_after (hafter ▸ hconn) after
  obtain ⟨owners', hlater⟩ := exists_holds (fun _ => False) address timeout acts hu.spares
  rw [List.append_assoc, List.singleton_append, ← hacts] at hd
  refine hlater.ending?_of_reads hd (fun _ h => h) (Connection.listener?_run hlisten fs) hreads hq ?_
  exact outcome?_of_reply ht hu hd (Connection.role?_run hrole fs) (by simp [Connection.classify]) hr

/-- Calls inside of a transaction that the client opens and ends itself, with nothing else sent in
it. Their handles end with their results. -/
theorem results_of_transaction {first last : Value} (hfirst : Verb.multi.HasWord first)
    {opened body : List Act} (hopened : opened = before ++ [.execute first []])
    {ks : List (MethodCall × HandleId)}
    (hks : ks = calls none ((connected address timeout).after opened) body)
    (hscan : ∀ p ∈ ks, p.1.scans = false) {d : Connection Listener}
    (hd : ((connected address timeout).after (opened ++ body)).connection = some d)
    (hod : d.isClosed = false) (hlen : d.exchanges.length = c.exchanges.length + 1 + ks.length)
    (hlast : Verb.exec.HasWord last) {acts : List Act}
    (hacts : acts = opened ++ body ++ .execute last [] :: after)
    (hu : (connected address timeout).Undisturbed acts) {rs : List Reply}
    (hrs : rs.length = ks.length) (hq : ∀ r ∈ rs, Conversion.isQueued r.toValue = false)
    (hans : transactionAnswers rs <+: (Act.replies acts).drop c.exchanges.length) {i : Nat}
    {k : MethodCall} {h : HandleId} {r : Reply} (hi : ks[i]? = some (k, h)) (hr : rs[i]? = some r) :
    ∃ command, k.command? .direct = some command ∧
      ((connected address timeout).after acts).ending? h =
        some (.ofResult (command.result r)) := by
  have hc := hdirect.connection
  have hfits := exists_requestOf_of_word hdirect.isOpen hfirst Verb.noConfusion
  have hfits' := exists_requestOf_of_word hod hlast Verb.noConfusion
  -- the transaction is opened
  obtain ⟨owners, hholds⟩ := exists_owners address timeout before
  obtain ⟨es, htraced⟩ := exists_traced address timeout before
  have hstart := Option.some.inj (hc.symm.trans htraced.connection)
  set x : Dispatch Listener :=
    ⟨first, [], .direct ((connected address timeout).after before).nextHandle⟩ with hx
  have hsx : c.Sendable x := ⟨hfits, _, hfirst.verb⟩
  have hconn : ((connected address timeout).after opened).connection = some (c.executeAll [x]) := by
    rw [hopened, after_append]
    exact execute_of_sendable hholds hc hsx
  obtain ⟨hopening, hopen⟩ :=
    Connection.classify_execute (x := x) hstart hdirect.isOpen hfits hfirst.verb
  rw [hdirect.transaction] at hopening hopen
  have hdue := hholds.due hc
  have hone : (c.executeAll [x]).exchanges.length = c.exchanges.length + 1 :=
    (Connection.length_execute hdue hsx).1
  -- the calls join its queue
  rw [hks] at hlen hscan
  obtain ⟨hqueue, hcalls⟩ := queued_of_calls body hconn hopen hd
    (by simpa [Connection.isClosed] using (Bool.or_eq_false_iff.1 hod).2) hscan (by rw [hone, hlen])
  rw [← hks, List.nil_append, hone] at hqueue
  rw [← hks] at hlen hcalls
  obtain ⟨gs, hgs⟩ := exists_run_after hconn body
  obtain rfl := Option.some.inj (hd.symm.trans hgs)
  -- the transaction is ended
  set d := (c.executeAll [x]).run gs with hdef
  obtain ⟨owners', hholds'⟩ := exists_owners address timeout (opened ++ body)
  obtain ⟨es', htraced'⟩ := exists_traced address timeout (opened ++ body)
  have hstart' := Option.some.inj (hd.symm.trans htraced'.connection)
  set y : Dispatch Listener :=
    ⟨last, [], .direct ((connected address timeout).after (opened ++ body)).nextHandle⟩ with hy
  have hsy : d.Sendable y := ⟨hfits', _, hlast.verb⟩
  have hending := (Connection.classify_execute (x := y) hstart' hod hfits' hlast.verb).1
  rw [hqueue, hlen, ← hrs] at hending
  have hended : ((connected address timeout).after
      (opened ++ body ++ [.execute last []])).connection = some (d.executeAll [y]) := by
    rw [after_append _ (opened ++ body)]
    exact execute_of_sendable hholds' hd hsy
  obtain ⟨fs, hfs⟩ := exists_run_after hended after
  rw [List.append_assoc _ [_], List.singleton_append, ← hacts] at hfs
  obtain ⟨es'', -, hrun, -⟩ := Connection.executeAll_run d [y]
  have hkept {u : Ticket} {role : Role} (h : d.role? u = some role) :
      ((d.executeAll [y]).run fs).role? u = some role := by
    rw [hrun]
    exact Connection.role?_run (Connection.role?_run h es'') fs
  obtain ⟨hall, -, -⟩ := outcome?_of_transaction ht hu hfs
    (hkept (Connection.role?_run hopening gs)) (Connection.role?_run hending fs) hans
  -- and its calls have their results
  obtain ⟨command, l, hcommand, hreads, hlisten⟩ := hcalls i k h hi
  refine ⟨command, hcommand, ?_⟩
  obtain ⟨owners'', hlater⟩ := exists_holds (fun _ => False) address timeout acts hu.spares
  rw [hone] at hlisten
  refine hlater.ending?_of_reads hfs (fun _ h => h) ?_ hreads (hq r (List.mem_of_getElem? hr))
    (hall i r hr)
  rw [hrun]
  exact Connection.listener?_run (Connection.listener?_run hlisten es'') fs

end Modes

/-- The slots of a batch whose calls make the commands `cs` in direct mode. -/
theorem commands_of_calls {address : Value × Value} {timeout : Timeout} {acts : List Act}
    {b : BatchId} {x : Batch} (hx : ((connected address timeout).after acts).batches[b]? = some x)
    {ks : List MethodCall} (hks : (calls (some b) (connected address timeout) acts).map Prod.fst = ks)
    (hscan : ∀ k ∈ ks, k.scans = false) {cs : List Command}
    (hcs : ks.map (MethodCall.command? .direct) = cs.map some) :
    x.slots.map Slot.command = cs ∧
      x.slots.map Slot.handle = (calls (some b) (connected address timeout) acts).map Prod.snd := by
  have hslots := slots_of_calls address timeout acts hx
  refine ⟨?_, ?_⟩
  · have hfst := congrArg (List.map Prod.fst) hslots
    simp only [List.map_map, Function.comp_def] at hfst
    have hmode : ks.map (MethodCall.command? x.mode) = ks.map (MethodCall.command? .direct) :=
      List.map_congr_left fun k hk => MethodCall.command?_mode (hscan k hk) _ _
    have hall : (x.slots.map Slot.command).map some = cs.map some := by
      rw [List.map_map, ← hcs, ← hmode, ← hks, List.map_map]
      exact hfst.symm
    exact (List.map_inj_right fun _ _ h => Option.some.inj h).1 hall
  · have hsnd := congrArg (List.map Prod.snd) hslots
    simp only [List.map_map, Function.comp_def] at hsnd
    exact hsnd.symm

/-! ## Results in every mode -/

/-- The handles of calls have ended with these results, each with its own. -/
def EndWith (s : Session) (ks : List (MethodCall × HandleId))
    (results : List (Except Error Converted)) : Prop :=
  ks.map (fun p => s.ending? p.2) = results.map fun result => some (.ofResult result)

/-- Calls that send their commands at once have these results: whenever one of them is made, and
the server answers its exchange with its reply, the handle that the call returned ends with its
result. -/
def DirectResults (start : Session) (ks : List MethodCall) (rs : List Reply)
    (results : List (Except Error Converted)) : Prop :=
  ∀ (before after : List Act) (c : Connection Listener) (i : Nat) (k : MethodCall) (r : Reply),
    (start.after before).Direct c → ks[i]? = some k → rs[i]? = some r →
    let acts := before ++ .call k.method k.args k.named :: after
    start.Undisturbed acts → (Act.replies acts)[c.exchanges.length]? = some r →
    ∃ h result, ((start.after before).call k.method k.args k.named).2 = .ok (.handle h) ∧
      results[i]? = some result ∧ (start.after acts).ending? h = some (.ofResult result)

/-- Calls that are queued on a batch have these results: whenever the batch is sent, and the server
answers it with their replies, the handles that the calls returned end with their results, and the
handle of the batch with all of them, or with the errors among them. -/
def BatchResults (start : Session) (ks : List MethodCall) (rs : List Reply)
    (results : List (Except Error Converted)) : Prop :=
  ∀ (before after : List Act) (c : Connection Listener) (b : BatchId) (collectsErrors : Bool)
    (x : Batch),
    (start.after before).Direct c → (start.after before).batches[b]? = some x → x.spent = false →
    (calls (some b) start before).map Prod.fst = ks →
    let acts := before ++ .run b collectsErrors :: after
    start.Undisturbed acts →
    Batch.answers x.transactional rs <+: (Act.replies acts).drop c.exchanges.length →
    (start.after acts).EndWith (calls (some b) start before) results ∧
      (start.after acts).ending? (start.after before).nextHandle =
        some (.ofResults x.transactional collectsErrors results)

/-- Calls inside of a transaction have these results: whenever the client opens a transaction by a
command of its own, makes them, sends nothing else and ends the transaction, and the server answers
all that with their replies, the handles that the calls returned end with their results. -/
def TransactionResults (start : Session) (ks : List MethodCall) (rs : List Reply)
    (results : List (Except Error Converted)) : Prop :=
  ∀ (before body after : List Act) (c d : Connection Listener) (first last : Value),
    (start.after before).Direct c → Verb.multi.HasWord first → Verb.exec.HasWord last →
    let opened := before ++ [.execute first []]
    (start.after (opened ++ body)).connection = some d → d.isClosed = false →
    (calls none (start.after opened) body).map Prod.fst = ks →
    d.exchanges.length = c.exchanges.length + 1 + ks.length →
    let acts := opened ++ body ++ .execute last [] :: after
    start.Undisturbed acts →
    transactionAnswers rs <+: (Act.replies acts).drop c.exchanges.length →
    (start.after acts).EndWith (calls none (start.after opened) body) results

section Results

variable {address : Value × Value} {timeout : Timeout} {ks : List MethodCall} {cs : List Command}
  {rs : List Reply} (hcs : ks.map (MethodCall.command? .direct) = cs.map some)

include hcs

/-- Each call has its command and its result. -/
theorem exists_result {i : Nat} {k : MethodCall} {r : Reply} (hk : ks[i]? = some k)
    (hr : rs[i]? = some r) :
    ∃ command ∈ cs, k.command? .direct = some command ∧
      (List.zipWith Command.result cs rs)[i]? = some (command.result r) := by
  have hi := congrArg (·[i]?) hcs
  simp only [List.getElem?_map, hk, Option.map_some] at hi
  obtain ⟨command, hcommand, heq⟩ := Option.map_eq_some_iff.1 hi.symm
  refine ⟨command, List.mem_of_getElem? hcommand, heq.symm, ?_⟩
  simp [List.getElem?_zipWith, hcommand, hr]

theorem length_commands : cs.length = ks.length := by
  simpa using (congrArg List.length hcs).symm

theorem directResults (ht : timeout.atOnce? = none)
    (hencode : ∀ c ∈ cs, ∃ data, Wire.encode (.bytes c.name :: c.args) = .ok data)
    (hq : ∀ r ∈ rs, Conversion.isQueued r.toValue = false) :
    (connected address timeout).DirectResults ks rs (List.zipWith Command.result cs rs) := by
  intro before after c i k r hs hk hr acts hu hreply
  obtain ⟨command, hmem, hcommand, hresult⟩ := exists_result hcs hk hr
  have hfits := hencode command hmem
  rw [← requestOf_of_encode hs.isOpen] at hfits
  obtain ⟨h, hreturned, hend⟩ :=
    result_of_call ht hs hcommand hfits rfl hu hreply (hq r (List.mem_of_getElem? hr))
  exact ⟨h, _, hreturned, hresult, hend⟩

theorem batchResults (ht : timeout.atOnce? = none) (hscan : ∀ k ∈ ks, k.scans = false)
    (hencode : ∀ c ∈ cs, ∃ data, Wire.encode (.bytes c.name :: c.args) = .ok data)
    (hrs : rs.length = ks.length) :
    (connected address timeout).BatchResults ks rs (List.zipWith Command.result cs rs) := by
  intro before after c b collectsErrors x hs hx hsp hks acts hu hans
  obtain ⟨hcommands, hhandles⟩ := commands_of_calls hx hks hscan hcs
  have hfits (slot : Slot) (hslot : slot ∈ x.slots) : slot.fits c = true := by
    obtain ⟨data, hdata⟩ := hencode slot.command (hcommands ▸ List.mem_map_of_mem hslot)
    rw [← requestOf_of_encode hs.isOpen] at hdata
    simp [Slot.fits, Slot.request?, hdata, Except.toOption]
  have hslots : rs.length = x.slots.length := by
    rw [hrs, ← length_commands hcs, ← hcommands, List.length_map]
  obtain ⟨hends, hend⟩ := results_of_batch ht hs hx hsp hfits hslots rfl hu hans
    (show List.zipWith Command.result cs rs = _ by rw [hcommands])
  refine ⟨?_, hend⟩
  rw [EndWith, ← hends]
  have hall := congrArg (List.map ((connected address timeout).after acts).ending?) hhandles
  simpa only [List.map_map, Function.comp_def] using hall.symm

theorem transactionResults (ht : timeout.atOnce? = none) (hscan : ∀ k ∈ ks, k.scans = false)
    (hrs : rs.length = ks.length) (hq : ∀ r ∈ rs, Conversion.isQueued r.toValue = false) :
    (connected address timeout).TransactionResults ks rs (List.zipWith Command.result cs rs) := by
  intro before body after c d first last hs hfirst hlast opened hd hod hks hsent acts hu hans
  have hcalls : (calls none ((connected address timeout).after opened) body).length = ks.length := by
    rw [← hks, List.length_map]
  refine List.ext_getElem? fun i => ?_
  rw [List.getElem?_map, List.getElem?_map]
  cases hp : (calls none ((connected address timeout).after opened) body)[i]? with
  | none =>
    have hle := List.getElem?_eq_none_iff.1 hp
    have hnone : (List.zipWith Command.result cs rs)[i]? = none := by
      refine List.getElem?_eq_none ?_
      rw [List.length_zipWith, length_commands hcs]
      omega
    rw [hnone]
    rfl
  | some p =>
    obtain ⟨k, h⟩ := p
    have hlt := (List.getElem?_eq_some_iff.1 hp).1
    have hr : rs[i]? = some rs[i] := List.getElem?_eq_getElem (by omega)
    have hk : ks[i]? = some k := by
      rw [← hks, List.getElem?_map, hp, Option.map_some]
    obtain ⟨command, -, hcommand, hresult⟩ := exists_result hcs hk hr
    obtain ⟨command', hcommand', hend⟩ := results_of_transaction ht hs hfirst rfl rfl
      (fun p hm => hscan p.1 (hks ▸ List.mem_map_of_mem hm)) hd hod (by rw [hsent, hcalls]) hlast rfl
      hu (hrs.trans hcalls.symm) hq hans hp hr
    obtain rfl := Option.some.inj (hcommand.symm.trans hcommand')
    rw [hresult]
    exact congrArg some hend

end Results

/-- Calls have the same results in every execution mode: when they send their commands at once, when
they are queued on a batch, transactional or not, and inside of a transaction that the client opens
and ends itself. A batch ends with these results in the order of the calls, or with the errors among
them. -/
theorem results_in_every_mode (address : Value × Value) (timeout : Timeout)
    (ht : timeout.atOnce? = none) {ks : List MethodCall} {cs : List Command} {rs : List Reply}
    (hscan : ∀ k ∈ ks, k.scans = false)
    (hcs : ks.map (MethodCall.command? .direct) = cs.map some)
    (hencode : ∀ c ∈ cs, ∃ data, Wire.encode (.bytes c.name :: c.args) = .ok data)
    (hrs : rs.length = ks.length) (hq : ∀ r ∈ rs, Conversion.isQueued r.toValue = false) :
    let start := connected address timeout
    let results := List.zipWith Command.result cs rs
    start.DirectResults ks rs results ∧ start.BatchResults ks rs results ∧
      start.TransactionResults ks rs results :=
  ⟨directResults hcs ht hencode hq, batchResults hcs ht hscan hencode hrs,
    transactionResults hcs ht hscan hrs hq⟩

/-- A call whose reply is handed on, and one whose reply is converted. -/
def twoCalls : List MethodCall :=
  [⟨"zcard", [.text (.ofString "k")], []⟩,
    ⟨"zscore", [.text (.ofString "k"), .text (.ofString "m")], []⟩]

/-- The calls, one after the other. -/
def called : List Act :=
  twoCalls.map fun k => .call k.method k.args k.named

/-- The calls on a batch. -/
def queued (transactional : Bool) : List Act :=
  .newBatch transactional :: twoCalls.map fun k => .enqueue 0 k.method k.args k.named

/-- A reply that cannot be converted fails its call in every mode, and with it the batch. -/
theorem results_in_every_mode_failing :
    let start := connected (.none, .none) .none
    let answers := Act.receive (Bytes.ascii ":2\r\n$1\r\nx\r\n")
    let answer :=
      Act.receive (Bytes.ascii "+OK\r\n+QUEUED\r\n+QUEUED\r\n*2\r\n:2\r\n$1\r\nx\r\n")
    (start.after (called ++ [answers])).ending? 1 = some (.failed .badValue) ∧
      (start.after (queued false ++ [.run 0 false, answers])).ending? 1 =
        some (.failed .badValue) ∧
      (start.after (queued true ++ [.run 0 false, answer])).ending? 2 =
        some (.failed (.batch true [.badValue])) ∧
      (start.after ([.execute (.text (.ofString "MULTI")) []] ++ called ++
        [.execute (.text (.ofString "EXEC")) [], answer])).ending? 2 = some (.failed .badValue) := by
  intro start answers answer
  obtain ⟨hdirect, hbatch, hraw⟩ := @results_in_every_mode (.none, .none) .none rfl twoCalls
    [.plain "ZCARD" [.text (.ofString "k")],
      .converted "ZSCORE" [.text (.ofString "k"), .text (.ofString "m")] .optionalScore]
    [.int 2, .bytes (Bytes.ascii "x")] (by decide) rfl
    (by simp only [List.forall_mem_cons]; exact ⟨⟨_, rfl⟩, ⟨_, rfl⟩, by simp⟩) rfl (by decide)
  refine ⟨?_, ?_, ?_, ?_⟩
  · obtain ⟨h, result, hreturned, hresult, hend⟩ := hdirect [called[0]] [answers] _ 1 _ _
      ⟨rfl, rfl, rfl⟩ rfl rfl (.of_last called (by simp [called, twoCalls])
        (by simp [called, twoCalls]) (by decide +kernel) (by decide +kernel)) (by decide +kernel)
    cases hreturned
    cases hresult
    exact hend
  · obtain ⟨hends, -⟩ := hbatch (queued false) [answers] _ 0 false _ ⟨rfl, rfl, rfl⟩ rfl rfl
      rfl (.of_last (queued false ++ [.run 0 false]) (by simp [queued, twoCalls])
        (by simp [queued, twoCalls]) (by decide +kernel) (by decide +kernel)) (by decide +kernel)
    exact (List.cons.inj (List.cons.inj hends).2).1
  · obtain ⟨-, hend⟩ := hbatch (queued true) [answer] _ 0 false _ ⟨rfl, rfl, rfl⟩ rfl rfl
      rfl (.of_last (queued true ++ [.run 0 false]) (by simp [queued, twoCalls])
        (by simp [queued, twoCalls]) (by decide +kernel) (by decide +kernel)) (by decide +kernel)
    exact hend
  · have hends := hraw [] called [answer] _ _ (.text (.ofString "MULTI")) (.text (.ofString "EXEC"))
      ⟨rfl, rfl, rfl⟩ ⟨rfl, _, rfl⟩ ⟨rfl, _, rfl⟩ rfl rfl rfl rfl
      (.of_last ([.execute (.text (.ofString "MULTI")) []] ++ called ++
          [.execute (.text (.ofString "EXEC")) []]) (by simp [called, twoCalls])
        (by simp [called, twoCalls]) (by decide +kernel) (by decide +kernel)) (by decide +kernel)
    exact (List.cons.inj (List.cons.inj hends).2).1

end Session

end SortedSets

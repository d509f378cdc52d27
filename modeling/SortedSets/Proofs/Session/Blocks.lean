import SortedSets.Proofs.Connection.Closed
import SortedSets.Proofs.Session.Modes
import SortedSets.Proofs.Session.Writes
import SortedSets.Proofs.Wire.RoundTrip

/-!
# The wire of a session

The bytes that a session writes, act by act. A command that is sent at once is a write of its own. A
batch is one write, in which the requests of its commands lie one after the other, and nothing else
does. Queueing writes nothing.

## Main definitions

* `Batch.encodings`, `Batch.block`: the requests of a batch, and what it writes
* `Session.command?`: the command that an act of the client sends at once
* `Session.Wrote`, `Session.WroteAll`: what an act writes, and what the acts of a run do

## Main results

* `Session.wrote_act`: one act over a connection that stays open
* `Session.written_in_blocks`: the wire of a run, act by act
-/

namespace SortedSets

/-- A request for nothing is still something. -/
theorem Wire.encode_ne_nil {args : List Value} {data : Bytes} (h : Wire.encode args = .ok data) :
    data ≠ [] := by
  obtain ⟨bss, -, rfl⟩ := Wire.encode_eq_ok_iff.1 h
  simp [request, header]

namespace Batch

/-- The requests of the commands of a batch that can be encoded, in the order of the calls. -/
def encodings (x : Batch) : List Bytes :=
  x.slots.filterMap fun slot => (Wire.encode (.bytes slot.command.name :: slot.command.args)).toOption

/-- What a batch writes when it is sent: all at once, and nothing if there is nothing to send. -/
def block (x : Batch) : List Bytes :=
  if x.slots = [] then []
  else if x.transactional then [beginRequest ++ (x.encodings.flatten ++ endRequest)]
  else if x.encodings = [] then [] else [x.encodings.flatten]

theorem encodings_flatten_eq_nil {x : Batch} : x.encodings.flatten = [] ↔ x.encodings = [] := by
  refine ⟨fun h => ?_, fun h => by rw [h, List.flatten_nil]⟩
  refine List.eq_nil_iff_forall_not_mem.2 fun data hdata => ?_
  obtain ⟨slot, -, henc⟩ := List.mem_filterMap.1 hdata
  exact Wire.encode_ne_nil (ok_of_toOption henc) (List.flatten_eq_nil_iff.1 h data hdata)

/-- The bytes that a batch sends over an open connection if the sending is not broken off. -/
theorem written_of_unstopped {c : Connection Listener} (ho : c.isClosed = false) {x : Batch}
    (hstops : x.stops c = false) (hne : x.slots ≠ []) :
    (if (x.written c).flatten = [] then [] else [(x.written c).flatten]) = x.block := by
  -- nothing stops the sending, so that every command that can be encoded is written
  have hrequests : x.requests c = x.encodings := by
    have hall : x.slots.takeWhile (fun slot => !slot.blocks c) = x.slots := by
      have hfree : ∀ slot ∈ x.slots, (!slot.blocks c) = true := by simpa [stops] using hstops
      simpa using @List.takeWhile_append_of_pos _ _ x.slots [] hfree
    have hrequest : Slot.request? c = fun slot =>
        (Wire.encode (.bytes slot.command.name :: slot.command.args)).toOption := by
      funext slot
      rw [Slot.request?, Session.requestOf_of_encode ho]
    rw [requests, hall, hrequest, encodings]
  rw [written, block, hstops, hrequests, if_neg hne]
  cases x.transactional with
  | true => simp [beginRequest_ne_nil]
  | false =>
    simp only [Bool.false_eq_true, if_false]
    simp only [encodings_flatten_eq_nil]

/-- A slot that is not filled takes the error of its command, so that the sending goes on. -/
theorem stops_of_unfilled {x : Batch} (hf : ∀ slot ∈ x.slots, slot.filled = false)
    (c : Connection Listener) : x.stops c = false := by
  have hblocks (slot : Slot) (hs : slot ∈ x.slots) : slot.blocks c = false := by
    rw [Slot.blocks, hf slot hs, Bool.false_and]
  simpa [stops] using hblocks

end Batch

namespace Session

/-- The command that an act of the client sends at once. -/
def command? (s : Session) : Act → Option (Value × List Value)
  | .call method args named =>
    (MethodCall.command? s.mode ⟨method, args, named⟩).map fun c => (.bytes c.name, c.args)
  | .execute name args =>
    if name.text?.isNone && name.bytes?.isNone then none else some (name, args)
  | .select db => (checkDatabase db).toOption.map fun _ => (word "SELECT", [db])
  | .step i step => (s.stepCommand? i step).map fun c => (.bytes c.name, c.args)
  | _ => none

/-- What an act writes: a batch its block, and any other act of the client the request of the command
that it sends. After replies, cursors ask for pages. -/
def Wrote (s : Session) : Act → List Bytes → Prop
  | .run b _, ws =>
    ws = match s.batches[b]? with
      | some x => if x.spent then [] else x.block
      | none => []
  | .receive _, ws => ∀ w ∈ ws, PageRequest w
  | a, ws => ws = ((s.command? a).bind fun p => (Wire.encode (p.1 :: p.2)).toOption).toList

/-- What the acts of a run write, one after the other. -/
inductive WroteAll : Session → List Act → List (List Bytes) → Prop where
  | nil (s : Session) : WroteAll s [] []
  | cons {s : Session} {a : Act} {acts : List Act} {ws : List Bytes} {blocks : List (List Bytes)} :
    s.Wrote a ws → WroteAll (s.act a) acts blocks → WroteAll s (a :: acts) (ws :: blocks)

variable {s : Session} {c : Connection Listener}

/-- Over an open connection the request of a command is its encoding. -/
theorem request?_eq (hc : s.connection = some c) (ho : c.isClosed = false) (name : Value)
    (hn : (name.text?.isNone && name.bytes?.isNone) = false) (args : List Value) :
    s.request? name args = (Wire.encode (name :: args)).toOption := by
  simp only [request?, hc, Option.bind_some, Connection.requestOf, hn, ho]
  rfl

/-- A batch that is sent writes its block. -/
theorem appends_run {terms : Terms} {owners : List Owner} (hs : Holds terms owners [] s)
    (hc : s.connection = some c) (ho : c.isClosed = false) (b : BatchId) (collectsErrors : Bool)
    (hf : ∀ x, s.batches[b]? = some x → x.spent = false → ∀ slot ∈ x.slots, slot.filled = false) :
    s.Appends (match s.batches[b]? with
      | some x => if x.spent then [] else x.block
      | none => []) (s.run b collectsErrors) := by
  cases hx : s.batches[b]? with
  | none => exact .of_connection (by simp [Session.run, hx])
  | some x =>
    dsimp only
    cases hsp : x.spent with
    | true => exact .of_connection (by simp [Session.run, hx, hsp, addEnded])
    | false =>
      rw [if_neg Bool.false_ne_true]
      by_cases hne : x.slots = []
      · rw [Batch.block, if_pos hne]
        exact .of_connection (by simp [Session.run, hx, hsp, hne, addEnded])
      · -- the requests are gathered, and leave the buffer together
        intro before hw
        obtain ⟨c', hc', hb, rfl⟩ := exists_of_written? hw
        obtain rfl := Option.some.inj (hc.symm.trans hc')
        obtain ⟨j, -, hl⟩ := hs.launched hx hsp hne hc collectsErrors
        rw [written?_of_connection hl.connection (by rw [Connection.leaveBuffer_frame]),
          writes_launch_eq ho, Batch.written_of_unstopped ho (Batch.stops_of_unfilled (hf x hx hsp) c) hne]

/-- What an act writes that sends no batch, and after which the connection is open. -/
theorem exists_appends {terms : Terms} {owners : List Owner} (hs : Holds terms owners [] s)
    (hc : s.connection = some c) (ho : c.isClosed = false) {a : Act}
    (ha : ∀ b collectsErrors, a ≠ .run b collectsErrors) (hb : ∀ on, a ≠ .setBuffered on)
    (hclose : a ≠ .close) (hlose : ∀ e, a ≠ .lose e) :
    ∃ ws, s.Wrote a ws ∧ s.Appends ws (s.act a) := by
  -- a command that is sent writes its request, replies make cursors write, and nothing else does
  cases a with
  | call method args named =>
    refine ⟨_, rfl, ?_⟩
    have h := appends_call method args named s
    simp only [request?_eq hc ho (.bytes _) rfl] at h
    rw [command?, Option.bind_map]
    exact h
  | execute name args =>
    refine ⟨_, rfl, ?_⟩
    have h := appends_sendFor name args .direct false s
    rw [command?]
    split
    · next hn =>
      have hnone : s.request? name args = none := by
        simp only [request?, hc, Option.bind_some, Connection.requestOf, hn]
        rfl
      rwa [hnone] at h
    · next hn =>
      rwa [request?_eq hc ho _ (Bool.eq_false_iff.2 hn)] at h
  | select db =>
    refine ⟨_, rfl, ?_⟩
    have h := appends_select db s
    rw [request?_eq hc ho _ rfl] at h
    rw [command?, Option.bind_map]
    exact h
  | step i step =>
    refine ⟨_, rfl, ?_⟩
    have h := appends_step i step s
    simp only [request?_eq hc ho (.bytes _) rfl] at h
    rw [command?, Option.bind_map]
    exact h
  | closeCursor i =>
    refine ⟨[], rfl, .of_connection ?_⟩
    unfold act closeCursor
    dsimp only
    split
    · rfl
    · exact connection_setCursor ..
  | newBatch transactional => exact ⟨[], rfl, .of_connection rfl⟩
  | enqueue b method args named =>
    refine ⟨[], rfl, .of_connection ?_⟩
    rcases enqueue_cases b method args named s with ⟨e, h⟩ | ⟨x, command, source, -, -, h⟩
    · rw [act, h]
    · rw [act, h]
      rfl
  | run b collectsErrors => exact absurd rfl (ha b collectsErrors)
  | cancel h => exact ⟨[], rfl, appends_cancel hc (hs.due hc) h⟩
  | setBuffered on => exact absurd rfl (hb on)
  | receive piece =>
    obtain ⟨ws, hws, hp⟩ := appendsOnly_receive piece s
    exact ⟨ws, hp, hws⟩
  | lose e => exact absurd rfl (hlose e)
  | close => exact absurd rfl hclose
  | awaitClosed v =>
    refine ⟨[], rfl, .of_connection ?_⟩
    unfold act awaitClosed
    dsimp only
    split <;> rfl

section Run

variable {address : Value × Value} {timeout : Timeout} {before : List Act} {d : Connection Listener}

/-- A connection that is open was open before. -/
theorem isClosed_of_after (acts : List Act)
    (hc : ((connected address timeout).after before).connection = some c)
    (hd : ((connected address timeout).after (before ++ acts)).connection = some d)
    (ho : d.isClosed = false) : c.isClosed = false := by
  obtain ⟨es, hes⟩ := exists_run_after hc acts
  obtain rfl := Option.some.inj (hd.symm.trans hes)
  exact Connection.isClosed_of_run es ho

/-- After the client has closed its connection, or the transport was lost, the connection is
closed. -/
theorem isClosed_of_end {a : Act} (ha : a = .close ∨ ∃ e, a = .lose e)
    (hc : ((connected address timeout).after before).connection = some c)
    (hd : (((connected address timeout).after before).act a).connection = some d) :
    d.isClosed = true := by
  rcases ha with rfl | ⟨e, rfl⟩
  · rw [act, close, mapConnection, hc, Option.map_some] at hd
    obtain rfl := Option.some.inj hd
    rw [Connection.close_frame]
    rfl
  · obtain ⟨es, -, hes⟩ := exists_run_act (onlySpentRun_after address timeout before) (.lose e)
    rw [hc, Option.map_some] at hes
    obtain rfl := Option.some.inj (hd.symm.trans hes)
    have hlost : (c.step (.drop e)).isClosed = true := Bool.or_true _
    by_contra h
    cases hlost.symm.trans (Connection.isClosed_of_run es (Bool.eq_false_iff.2 h))

/-- The slots of a batch that nobody gave up before it is sent are not filled. -/
theorem unfilled_of_spared {b : BatchId} {x : Batch}
    (hx : ((connected address timeout).after before).batches[b]? = some x) (hsp : x.spent = false)
    (hspared : ∀ slot ∈ x.slots, .cancel slot.handle ∉ before) :
    ∀ slot ∈ x.slots, slot.filled = false := by
  intro slot hs
  obtain ⟨owners, L, T, -, hc⟩ := exists_holds (fun h => .cancel h ∈ before) address timeout before
    fun _ h => h
  have hpending := ((hc.unspent b x hx hsp).2 slot hs).resolve_right fun h => hspared slot hs h.1
  exact Bool.eq_false_iff.2 fun hfilled => hc.filled b x hx slot hs hfilled hpending

/-- What an act writes over a connection that stays open. -/
theorem wrote_act (hc : ((connected address timeout).after before).connection = some c)
    (hb : c.buffer = none) {a : Act}
    (hd : (((connected address timeout).after before).act a).connection = some d)
    (ho : d.isClosed = false) (hbuffered : ∀ on, a ≠ .setBuffered on)
    (hspared : ∀ b collectsErrors x, a = .run b collectsErrors →
      ((connected address timeout).after before).batches[b]? = some x →
        ∀ slot ∈ x.slots, .cancel slot.handle ∉ before) :
    ∃ ws, ((connected address timeout).after before).Wrote a ws ∧ d.buffer = none ∧
      d.writes = c.writes ++ ws := by
  have hopen : c.isClosed = false :=
    isClosed_of_after [a] hc (by rw [after_append]; exact hd) ho
  obtain ⟨owners, hs⟩ := exists_owners address timeout before
  obtain ⟨ws, hw, happends⟩ : ∃ ws, ((connected address timeout).after before).Wrote a ws ∧
      ((connected address timeout).after before).Appends ws
        (((connected address timeout).after before).act a) := by
    by_cases hrun : ∃ b collectsErrors, a = .run b collectsErrors
    · obtain ⟨b, collectsErrors, rfl⟩ := hrun
      refine ⟨_, rfl, appends_run hs hc hopen b collectsErrors fun x hx hsp => ?_⟩
      exact unfilled_of_spared hx hsp (hspared b collectsErrors x rfl hx)
    · -- an act that closes the connection would leave it closed
      refine exists_appends hs hc hopen (fun b e h => hrun ⟨b, e, h⟩) hbuffered (fun h => ?_)
        fun e h => ?_
      · cases ho.symm.trans (isClosed_of_end (.inl h) hc hd)
      · cases ho.symm.trans (isClosed_of_end (.inr ⟨e, h⟩) hc hd)
  obtain ⟨d', hd', hb', hw'⟩ := exists_of_written? (happends _ (written?_of_connection hc hb))
  obtain rfl := Option.some.inj (hd.symm.trans hd')
  exact ⟨ws, hw, hb', hw'⟩

/-- What the acts of a run write over a connection that stays open. -/
theorem exists_wroteAll (before : List Act) {acts : List Act}
    (hc : ((connected address timeout).after before).connection = some c) (hb : c.buffer = none)
    (hd : ((connected address timeout).after (before ++ acts)).connection = some d)
    (ho : d.isClosed = false) (hbuffered : ∀ on, .setBuffered on ∉ acts)
    (hspared : ∀ p b collectsErrors x, p ++ [.run b collectsErrors] <+: before ++ acts →
      ((connected address timeout).after p).batches[b]? = some x →
        ∀ slot ∈ x.slots, .cancel slot.handle ∉ p) :
    ∃ blocks, WroteAll ((connected address timeout).after before) acts blocks ∧
      d.writes = c.writes ++ blocks.flatten := by
  induction acts generalizing before c with
  | nil =>
    rw [List.append_nil] at hd
    obtain rfl := Option.some.inj (hc.symm.trans hd)
    exact ⟨[], .nil _, (List.append_nil _).symm⟩
  | cons a acts ih =>
    -- the connection is open after the first act, since it is at the end
    have hsplit : before ++ a :: acts = (before ++ [a]) ++ acts := List.append_cons ..
    obtain ⟨es, hes⟩ := exists_run_after hc [a]
    rw [hsplit] at hd hspared
    have hopen := isClosed_of_after _ hes hd ho
    have hact : (((connected address timeout).after before).act a).connection = some (c.run es) := by
      rw [← hes, after_append]
      rfl
    obtain ⟨ws, hw, hb', hwrites⟩ := wrote_act hc hb hact hopen
      (fun on h => hbuffered on (h ▸ List.mem_cons_self)) fun b e x ha hx =>
        hspared before b e x (ha ▸ List.prefix_append ..) hx
    obtain ⟨blocks, hall, hrest⟩ := ih _ hes hb' hd
      (fun on h => hbuffered on (List.mem_cons_of_mem a h)) hspared
    rw [after_append] at hall
    exact ⟨ws :: blocks, .cons hw hall, by
      rw [hrest, hwrites, List.flatten_cons, List.append_assoc]⟩

end Run

/-- Several users share one connection, at any time of which they send commands, queue commands in
batches, send batches, step cursors and receive replies. As long as it stays open and nobody gives up
a handle of a batch before that is sent, the wire is what the acts write, one after the other: a
command its encoding, a batch the encodings of its commands in one write. The commands of a batch are
those of the calls on it, in their order. -/
theorem written_in_blocks (address : Value × Value) (timeout : Timeout) (acts : List Act)
    {d : Connection Listener} (hd : ((connected address timeout).after acts).connection = some d)
    (ho : d.isClosed = false) (hbuffered : ∀ on, .setBuffered on ∉ acts)
    (hspared : ∀ before b collectsErrors x, before ++ [.run b collectsErrors] <+: acts →
      ((connected address timeout).after before).batches[b]? = some x →
        ∀ slot ∈ x.slots, .cancel slot.handle ∉ before) :
    (∃ blocks, WroteAll (connected address timeout) acts blocks ∧ d.writes = blocks.flatten) ∧
      ∀ before b collectsErrors x, before ++ [.run b collectsErrors] <+: acts →
        ((connected address timeout).after before).batches[b]? = some x →
          (calls (some b) (connected address timeout) before).map (fun p => p.1.command? x.mode) =
            x.slots.map fun slot => some slot.command := by
  refine ⟨?_, fun before b collectsErrors x _ hx => ?_⟩
  · obtain ⟨blocks, hall, hw⟩ := exists_wroteAll [] rfl rfl hd ho hbuffered hspared
    exact ⟨blocks, hall, hw⟩
  · have hslots := congrArg (List.map Prod.fst) (slots_of_calls address timeout before hx)
    rwa [List.map_map, List.map_map] at hslots

/-- A transaction one of whose commands cannot be encoded, a batch, and commands that are sent at
once in between. -/
def interleaved : List Act :=
  [.newBatch true, .newBatch false, .enqueue 0 "zcard" [.list [.int 1]] [],
    .enqueue 1 "zcard" [.text (.ofString "k")] [], .call "zcard" [.text (.ofString "j")] [],
    .enqueue 0 "zcard" [.text (.ofString "k")] [], .run 0 false, .execute (word "PING") [],
    .run 1 false]

/-- Each of them is one write, in the order of the sending. -/
theorem written_in_blocks_interleaved :
    ∃ blocks, WroteAll (connected (.none, .none) .none) interleaved blocks ∧ blocks.flatten =
      [Bytes.ascii "*2\r\n$5\r\nZCARD\r\n$1\r\nj\r\n",
        beginRequest ++ (Bytes.ascii "*2\r\n$5\r\nZCARD\r\n$1\r\nk\r\n" ++ endRequest),
        Bytes.ascii "*1\r\n$4\r\nPING\r\n",
        Bytes.ascii "*2\r\n$5\r\nZCARD\r\n$1\r\nk\r\n"] := by
  have hspared (p : List Act) (h : HandleId) (hp : p <+: interleaved) : .cancel h ∉ p := by
    intro hmem
    simpa [interleaved] using hp.subset hmem
  obtain ⟨⟨blocks, hall, hw⟩, -⟩ := written_in_blocks (.none, .none) .none interleaved rfl rfl
    (by simp [interleaved]) fun p b e x hp _ slot _ =>
      hspared p slot.handle ((List.prefix_append p _).trans hp)
  exact ⟨blocks, hall, hw.symm.trans rfl⟩

end Session

end SortedSets

import SortedSets.Proofs.Session.History

/-!
# The calls of a run

A method that is called returns a handle, if it makes a command and the command is accepted. The
calls that a batch took are its slots, in the order of the calls.

## Main definitions

* `MethodCall`: a method called with arguments, and the command that it makes
* `Session.calls`: the calls of a run, on a batch or on the client itself

## Main results

* `Session.slots_of_calls`: the slots of a batch are the calls that it took
-/

namespace SortedSets

open Wire (Reply)

/-- A method called with arguments. -/
structure MethodCall where
  method : String
  args : List Value
  named : List (String × Value)

namespace MethodCall

/-- The command that a call makes. -/
def command? (mode : Mode) (k : MethodCall) : Option Command :=
  match Method.named? k.method with
  | none => none
  | some m =>
    match m.call mode k.args k.named with
    | .ok (.send c) => some c
    | _ => none

/-- The call scans a set. -/
def scans (k : MethodCall) : Bool :=
  (Method.named? k.method).any Method.scans

/-- But for the scans a call makes the same command in every mode. -/
theorem command?_mode {k : MethodCall} (hk : k.scans = false) (mode mode' : Mode) :
    k.command? mode = k.command? mode' := by
  unfold command?
  cases hm : Method.named? k.method with
  | none => rfl
  | some m =>
    have hs : m.scans = false := by simpa [scans, hm] using hk
    simp only [Method.call_mode hs mode mode']

theorem exists_of_command? {k : MethodCall} {mode : Mode} {c : Command}
    (h : k.command? mode = some c) :
    ∃ m, Method.named? k.method = some m ∧ m.call mode k.args k.named = .ok (.send c) := by
  unfold command? at h
  split at h
  · cases h
  · next m hm =>
    split at h
    · next c' hc =>
      obtain rfl := Option.some.inj h
      exact ⟨m, hm, hc⟩
    · cases h

end MethodCall

/-- Whoever reads a reply for the handle `h` as the command means it; an acknowledgement may be let
through. -/
def Listener.Reads (l : Listener) (h : HandleId) (command : Command) : Prop :=
  ∃ f, l.reading? = some (h, f) ∧ ∀ r : Reply, Conversion.isQueued r.toValue = false →
    f r.outcome = r.outcome.ending command.reading

namespace Session

/-- The handle that a call returns. -/
def returned? (r : Except Error Returned) : Option HandleId :=
  match r with
  | .ok (.handle h) => some h
  | _ => none

/-- The call that an act makes on a batch, or on the client itself, with the handle that it
returns. -/
def taken? (on : Option BatchId) (s : Session) : Act → Option (MethodCall × HandleId)
  | .call method args named =>
    if on = none then (returned? (s.call method args named).2).map (⟨method, args, named⟩, ·)
    else none
  | .enqueue b method args named =>
    if on = some b then (returned? (s.enqueue b method args named).2).map (⟨method, args, named⟩, ·)
    else none
  | _ => none

/-- The calls of a run on a batch, or on the client itself, each with the handle that it
returns. -/
def calls (on : Option BatchId) : Session → List Act → List (MethodCall × HandleId)
  | _, [] => []
  | s, a :: acts => (s.taken? on a).toList ++ calls on (s.act a) acts

theorem calls_append (on : Option BatchId) (s : Session) (acts more : List Act) :
    calls on s (acts ++ more) = calls on s acts ++ calls on (s.after acts) more := by
  induction acts generalizing s with
  | nil => rfl
  | cons a acts ih => simp [calls, ih]

/-! ## The calls on a batch -/

/-- What the slots of a batch stand for. -/
def claims (b : BatchId) (s : Session) : List (Command × HandleId) :=
  (s.batches[b]?.map fun x => x.slots.map Slot.claim).getD []

theorem claims_setBatch {s : Session} {b : BatchId} {x y : Batch} (hx : s.batches[b]? = some x)
    (hy : y.slots.map Slot.claim = x.slots.map Slot.claim) (d : BatchId) :
    (s.setBatch b y).claims d = s.claims d := by
  unfold claims
  by_cases hd : d = b
  · subst hd
    rw [getElem?_setBatch_self s y hx, hx, Option.map_some, Option.map_some, hy]
  · rw [getElem?_setBatch_of_ne s y hd]

/-- Only calls on a batch add to its slots. -/
theorem kept_claims : Kept fun s t => ∀ b, t.claims b = s.claims b where
  trans h h' b := (h' b).trans (h b)
  inner _ hb _ b := by rw [claims, hb, claims]
  send name args l s b := by rw [claims, batches_send, claims]
  later hx h := claims_setBatch hx h.claims_eq
  close _ _ := rfl
  spend hx _ := claims_setBatch hx rfl
  startRun hx _ _ := claims_setBatch hx rfl
  newBatch transactional s b := by
    unfold claims newBatch
    rw [List.getElem?_append]
    split
    · rfl
    · next hb =>
      -- the new batch has no slots
      rw [List.getElem?_eq_none (Nat.not_lt.1 hb)]
      cases b - s.batches.length <;> rfl
  setBuffered _ _ _ := rfl

/-- A call on a batch is refused, or it adds a slot. -/
theorem enqueue_cases (b : BatchId) (method : String) (args : List Value)
    (named : List (String × Value)) (s : Session) :
    (∃ e, s.enqueue b method args named = (s, .error e)) ∨
      ∃ x c source, s.batches[b]? = some x ∧
        MethodCall.command? x.mode ⟨method, args, named⟩ = some c ∧
        s.enqueue b method args named = ((s.addHandle source).setBatch b
          { x with slots := x.slots ++ [⟨c, s.nextHandle, false⟩] }, .ok (.handle s.nextHandle)) := by
  -- the batch must be there and not sent, the method must exist, and its command be well formed
  unfold enqueue
  split
  · exact .inl ⟨_, rfl⟩
  · next x hx =>
    split
    · exact .inl ⟨_, rfl⟩
    · split
      · exact .inl ⟨_, rfl⟩
      · next m hm =>
        split
        · exact .inl ⟨_, rfl⟩
        · exact .inl ⟨_, rfl⟩
        · next c hc =>
          refine .inr ⟨x, c, _, hx, ?_, rfl⟩
          simp only [MethodCall.command?, hm, hc]

/-- What an act adds to the slots of a batch is the call that it makes on the batch. -/
theorem claims_act {s : Session} (hs : s.OnlySpentRun) (a : Act) {b : BatchId} {mode : Mode}
    (hmode : ∀ x, s.batches[b]? = some x → x.mode = mode) :
    ∃ new, (s.act a).claims b = s.claims b ++ new ∧
      (s.taken? (some b) a).toList.map (fun p => (p.1.command? mode, p.2)) =
        new.map fun p => (some p.1, p.2) := by
  cases he : a.isEnqueue with
  | false =>
    have hq (h : a.isEnqueue = true) : KeptByQueueing fun s t => ∀ b, t.claims b = s.claims b := by
      cases he.symm.trans h
    refine ⟨[], ?_, ?_⟩
    · rw [List.append_nil]
      exact kept_claims.act_of_connection hq (fun _ _ _ => rfl) hs b
    · cases a <;> first | rfl | cases he
  | true =>
    cases a with
    | enqueue d method args named =>
      rw [act, taken?]
      rcases enqueue_cases d method args named s with ⟨e, heq⟩ | ⟨x, c, source, hx, hc, heq⟩
      · -- the call is refused
        refine ⟨[], by rw [heq, List.append_nil], ?_⟩
        rw [heq]
        split <;> rfl
      · rw [heq]
        by_cases hd : some b = some d
        · -- one more slot
          obtain rfl := Option.some.inj hd
          refine ⟨[(c, s.nextHandle)], ?_, ?_⟩
          · unfold claims
            rw [getElem?_setBatch_self (s.addHandle source) _ (y := x) hx, hx]
            simp [Slot.claim]
          · rw [if_pos rfl, ← hmode x hx]
            simp [returned?, hc]
        · refine ⟨[], ?_, ?_⟩
          · rw [List.append_nil, claims, getElem?_setBatch_of_ne _ _ (by simpa using hd)]
            rfl
          · rw [if_neg hd]
            rfl
    | _ => cases he

/-- The slots of a batch are the calls that it took, in the order of the calls. -/
theorem slots_of_calls (address : Value × Value) (timeout : Timeout) (acts : List Act)
    {b : BatchId} {x : Batch} (hx : ((connected address timeout).after acts).batches[b]? = some x) :
    (calls (some b) (connected address timeout) acts).map (fun p => (p.1.command? x.mode, p.2)) =
      x.slots.map fun slot => (some slot.command, slot.handle) := by
  have hall (acts : List Act) (mode : Mode)
      (hmode : ∀ x, ((connected address timeout).after acts).batches[b]? = some x → x.mode = mode) :
      (calls (some b) (connected address timeout) acts).map (fun p => (p.1.command? mode, p.2)) =
        (((connected address timeout).after acts).claims b).map fun p => (some p.1, p.2) := by
    induction acts using List.reverseRec with
    | nil => rfl
    | append_singleton acts a ih =>
      -- a batch keeps its mode
      have hbefore (y : Batch) (hy : ((connected address timeout).after acts).batches[b]? = some y) :
          y.mode = mode := by
        obtain ⟨x, hx, hg⟩ := kept_grown.after keptByQueueing_grown (fun _ _ => .of_batches rfl)
          address timeout acts [a] b y hy
        rw [← hmode x hx, Batch.mode, Batch.mode, hg.transactional_eq]
      obtain ⟨new, hnew, htaken⟩ := claims_act (onlySpentRun_after address timeout acts) a hbefore
      rw [calls_append, List.map_append, ih hbefore, after_append, after_cons, after_nil, hnew,
        List.map_append, ← htaken]
      simp [calls]
  rw [hall acts x.mode fun y hy => by rw [Option.some.inj (hx.symm.trans hy)], claims, hx]
  simp [Slot.claim]

/-! ## The calls on the client -/

section Sent

variable {terms : Terms} {owners : List Owner} {s : Session} {c : Connection Listener}

/-- A command that can be sent for a new handle returns the handle. -/
theorem sendFor_of_sendable (hc : s.connection = some c) {name : Value} {args : List Value}
    {l : HandleId → Listener} (hsend : c.Sendable ⟨name, args, l s.nextHandle⟩) (alone : Bool) :
    (s.sendFor name args l alone).2 = .ok (.handle s.nextHandle) := by
  have h := send_of_sendable hc hsend
  dsimp only at h
  simp only [sendFor, h]

/-- A new handle is returned if the command was sent for it. -/
theorem sendFor_of_returned (hs : Holds terms owners [] s) (hc : s.connection = some c)
    {name : Value} {args : List Value} {l : HandleId → Listener} {f : Outcome → Ending}
    (hl : ∀ h, (l h).reading? = some (h, f)) {alone : Bool} {h : HandleId}
    (hr : returned? (s.sendFor name args l alone).2 = some h) :
    h = s.nextHandle ∧ c.Sendable ⟨name, args, l h⟩ ∧
      (s.sendFor name args l alone).1.connection = some (c.executeAll [⟨name, args, l h⟩]) := by
  have hsent : (s.send name args (l s.nextHandle)).2.2 =
      (c.execute name args (l s.nextHandle)).ticket := by
    simp only [send, hc]
  have hconn : (s.send name args (l s.nextHandle)).1.connection =
      some (c.executeAll [⟨name, args, l s.nextHandle⟩]) := by
    simp only [send, hc]
    rfl
  cases ht : (s.send name args (l s.nextHandle)).2.2 with
  | error e => simp [sendFor, ht, returned?] at hr
  | ok t =>
    have hsend := Connection.sendable_of_ticket (x := ⟨name, args, l s.nextHandle⟩)
      (hsent.symm.trans ht)
    simp only [sendFor, ht] at hr ⊢
    obtain rfl := Option.some.inj hr
    refine ⟨rfl, hsend, ?_⟩
    -- telling what the command brought about at once leaves the connection alone
    have hnew : Holds terms (owners ++ [.exchange t])
        ((s.send name args (l s.nextHandle)).2.1 ++ [])
        ((s.send name args (l s.nextHandle)).1.addHandle
          (if alone then .alone else .exchange t)) := by
      rw [List.append_nil]
      exact hs.send_new _ (by cases alone <;> simp) (hl _) ht
    rw [hnew.connection_tellEarly]
    exact hconn

/-- A command of any name that can be sent is sent. -/
theorem execute_of_sendable (hs : Holds terms owners [] s) (hc : s.connection = some c)
    {name : Value} {args : List Value}
    (hsend : c.Sendable ⟨name, args, .direct s.nextHandle⟩) :
    (s.execute name args).1.connection =
      some (c.executeAll [⟨name, args, .direct s.nextHandle⟩]) := by
  have hr := sendFor_of_sendable hc hsend false
  exact (sendFor_of_returned hs hc (fun _ => rfl) (by rw [hr]; rfl)).2.2

/-- A call that makes a command sends it for whoever reads its reply. -/
theorem call_of_command? {k : MethodCall} {command : Command}
    (hk : k.command? s.mode = some command) :
    ∃ (l : HandleId → Listener) (alone : Bool) (f : Outcome → Ending),
      (∀ h, (l h).reading? = some (h, f)) ∧
      (∀ r : Reply, Conversion.isQueued r.toValue = false →
        f r.outcome = r.outcome.ending command.reading) ∧
      s.call k.method k.args k.named =
        s.sendFor (.bytes command.name) command.args l alone := by
  obtain ⟨m, hm, hcall⟩ := MethodCall.exists_of_command? hk
  unfold call
  simp only [hm, hcall]
  cases hconv : command.conversion with
  | none =>
    refine ⟨.direct, false, _, fun _ => rfl, fun r _ => ?_, rfl⟩
    congr 1
    funext v
    simp only [Command.reading, hconv]
  | some conv =>
    cases s.mode with
    | direct =>
      refine ⟨fun h => .converting h conv, false, _, fun _ => rfl, fun r hr => ?_, rfl⟩
      -- only an acknowledgement is let through
      cases r with
      | error => rfl
      | bytes | int | nil | array =>
        simp only [Wire.Reply.outcome, Outcome.ending, Conversion.await, hr, Command.reading, hconv]
        rfl
    | pipelined | transactional =>
      refine ⟨fun h => .deferred h conv, true, _, fun _ => rfl, fun r _ => ?_, rfl⟩
      congr 1
      funext v
      simp only [Command.reading, hconv]

/-- A call that makes a command which can be sent sends it, and returns a new handle. -/
theorem call_of_sendable (hs : Holds terms owners [] s) (hc : s.connection = some c)
    {k : MethodCall} {command : Command} (hk : k.command? s.mode = some command)
    (hfits : ∃ data, c.requestOf (.bytes command.name) command.args = .ok data) :
    ∃ l, (s.call k.method k.args k.named).2 = .ok (.handle s.nextHandle) ∧
      l.Reads s.nextHandle command ∧ c.Sendable ⟨.bytes command.name, command.args, l⟩ ∧
      (s.call k.method k.args k.named).1.connection =
        some (c.executeAll [⟨.bytes command.name, command.args, l⟩]) := by
  obtain ⟨l, alone, f, hl, hf, hcall⟩ := call_of_command? hk
  obtain ⟨m, -, hm⟩ := MethodCall.exists_of_command? hk
  have hsend : c.Sendable ⟨.bytes command.name, command.args, l s.nextHandle⟩ :=
    ⟨hfits, .other, Command.Made.verb ⟨m, _, _, hm⟩⟩
  have hr := sendFor_of_sendable hc hsend alone
  obtain ⟨-, -, hconn⟩ := sendFor_of_returned hs hc hl (by rw [hr]; rfl)
  rw [hcall]
  exact ⟨l s.nextHandle, hr, ⟨f, hl _, hf⟩, hsend, hconn⟩

/-- A call that returns a handle makes a command. -/
theorem command?_of_returned {k : MethodCall} {h : HandleId}
    (hr : returned? (s.call k.method k.args k.named).2 = some h) :
    ∃ command, k.command? s.mode = some command := by
  unfold call at hr
  split at hr
  · cases hr
  · next m hm =>
    split at hr
    · cases hr
    · cases hr
    · next command hcall => exact ⟨command, by simp only [MethodCall.command?, hm, hcall]⟩

/-- A call that returns a handle sends its command, for whoever reads the reply for the handle. -/
theorem act_of_taken (hs : Holds terms owners [] s) (hc : s.connection = some c) {a : Act}
    {k : MethodCall} {h : HandleId} (ht : s.taken? none a = some (k, h)) (hk : k.scans = false) :
    ∃ command l, k.command? .direct = some command ∧ l.Reads h command ∧
      c.Sendable ⟨.bytes command.name, command.args, l⟩ ∧
      (s.act a).connection = some (c.executeAll [⟨.bytes command.name, command.args, l⟩]) := by
  cases a with
  | call method args named =>
    rw [taken?, if_pos rfl] at ht
    obtain ⟨h', hr, heq⟩ := Option.map_eq_some_iff.1 ht
    obtain ⟨rfl, rfl⟩ := Prod.mk.inj heq
    -- what returns a handle has made a command, in whatever mode
    obtain ⟨command, hcommand⟩ := command?_of_returned (k := ⟨method, args, named⟩) hr
    obtain ⟨l, alone, f, hl, hf, hcall⟩ := call_of_command? hcommand
    dsimp only at hcall
    rw [hcall] at hr
    obtain ⟨rfl, hsend, hconn⟩ := sendFor_of_returned hs hc hl hr
    refine ⟨command, l s.nextHandle, MethodCall.command?_mode hk _ _ ▸ hcommand,
      ⟨f, hl _, hf⟩, hsend, ?_⟩
    rw [act, hcall]
    exact hconn
  | enqueue => simp [taken?] at ht
  | _ => cases ht

end Sent

section Run

variable {address : Value × Value} {timeout : Timeout} {before : List Act}

/-- The connection in one more act: the command of a call that returns a handle is the one that is
sent, and has the next exchange. -/
theorem exists_run_cons {c : Connection Listener}
    (hc : ((connected address timeout).after before).connection = some c) (a : Act) :
    ∃ es, (((connected address timeout).after before).act a).connection = some (c.run es) ∧
      ∀ k h, ((connected address timeout).after before).taken? none a = some (k, h) →
        k.scans = false → verbs c es = [some .other] ∧
          ∃ command l, k.command? .direct = some command ∧ l.Reads h command ∧
            (c.run es).listener? c.exchanges.length = some l := by
  cases ht : ((connected address timeout).after before).taken? none a with
  | none =>
    obtain ⟨es, h⟩ := exists_run_after hc [a]
    rw [after_append] at h
    exact ⟨es, h, by simp⟩
  | some p =>
    obtain ⟨k, h⟩ := p
    -- a call that scans returns no handle of an exchange
    cases hk : k.scans with
    | true =>
      obtain ⟨es, hes⟩ := exists_run_after hc [a]
      rw [after_append] at hes
      refine ⟨es, hes, fun k' h' hkh hk' => ?_⟩
      obtain ⟨rfl, rfl⟩ := Prod.mk.inj (Option.some.inj hkh)
      cases hk.symm.trans hk'
    | false =>
      obtain ⟨owners, hs⟩ := exists_owners address timeout before
      obtain ⟨command, l, hcommand, hreads, hsend, hconn⟩ := act_of_taken hs hc ht hk
      obtain ⟨es, -, hrun, -, hverbs⟩ := Connection.executeAll_run c
        [⟨.bytes command.name, command.args, l⟩]
      refine ⟨es, hconn.trans (congrArg some hrun), fun k' h' hkh _ => ?_⟩
      obtain ⟨rfl, rfl⟩ := Prod.mk.inj (Option.some.inj hkh)
      refine ⟨?_, command, l, hcommand, hreads, ?_⟩
      · obtain ⟨data, hdata⟩ := hsend.request
        obtain ⟨m, -, hm⟩ := MethodCall.exists_of_command? hcommand
        have hword : Verb.ofWord (.bytes command.name) = .ok .other :=
          Command.Made.verb ⟨m, _, _, hm⟩
        rw [hverbs, List.flatMap_singleton]
        simp only [Dispatch.event, Event.verb?, hdata, hword]
        rfl
      · rw [← hrun]
        exact (Connection.length_execute (hs.due hc) hsend).2

/-- Each call that returns a handle has an exchange of its own. -/
theorem length_calls_le (body : List Act) {c d : Connection Listener}
    (hc : ((connected address timeout).after before).connection = some c)
    (hd : ((connected address timeout).after (before ++ body)).connection = some d)
    (hscan : ∀ p ∈ calls none ((connected address timeout).after before) body, p.1.scans = false) :
    c.exchanges.length + (calls none ((connected address timeout).after before) body).length ≤
      d.exchanges.length := by
  induction body generalizing before c with
  | nil =>
    rw [List.append_nil] at hd
    rw [Option.some.inj (hd.symm.trans hc)]
    exact Nat.le_refl _
  | cons a body ih =>
    obtain ⟨es, hes, htaken⟩ := exists_run_cons hc a
    have hact : ((connected address timeout).after (before ++ [a])) =
        ((connected address timeout).after before).act a := after_append ..
    have hrest := @ih (before ++ [a]) _ (hact ▸ hes) (by rwa [List.append_assoc])
      fun p hp => hscan p (by rw [calls]; exact List.mem_append_right _ (hact ▸ hp))
    have hlen := Connection.length_verbs c es
    rw [hact] at hrest
    rw [calls, List.length_append]
    cases ht : ((connected address timeout).after before).taken? none a with
    | none =>
      simp only [Option.toList_none, List.length_nil]
      omega
    | some p =>
      -- the command of the call is the one that was sent
      obtain ⟨hverbs, -⟩ := htaken p.1 p.2 ht (hscan p (by simp [calls, ht]))
      rw [hverbs, List.length_singleton] at hlen
      simp only [Option.toList_some, List.length_singleton]
      omega

/-- Inside of a transaction, calls between which nothing else is sent join its queue, in their
order. -/
theorem queued_of_calls (body : List Act) {c d : Connection Listener} {queue : List Ticket}
    (hc : ((connected address timeout).after before).connection = some c)
    (hq : c.transaction = some queue)
    (hd : ((connected address timeout).after (before ++ body)).connection = some d)
    (hl : d.attached = true)
    (hscan : ∀ p ∈ calls none ((connected address timeout).after before) body, p.1.scans = false)
    (hlen : d.exchanges.length = c.exchanges.length +
      (calls none ((connected address timeout).after before) body).length) :
    d.transaction = some (queue ++ List.range' c.exchanges.length
        (calls none ((connected address timeout).after before) body).length) ∧
      ∀ (i : Nat) (k : MethodCall) (h : HandleId),
        (calls none ((connected address timeout).after before) body)[i]? = some (k, h) →
          ∃ command l, k.command? .direct = some command ∧ l.Reads h command ∧
            d.listener? (c.exchanges.length + i) = some l := by
  induction body generalizing before c queue with
  | nil =>
    rw [List.append_nil] at hd
    obtain rfl := Option.some.inj (hd.symm.trans hc)
    exact ⟨by simpa [calls] using hq, by simp [calls]⟩
  | cons a body ih =>
    obtain ⟨es, hes, htaken⟩ := exists_run_cons hc a
    have hact : ((connected address timeout).after (before ++ [a])) =
        ((connected address timeout).after before).act a := after_append ..
    have hd' : ((connected address timeout).after (before ++ [a] ++ body)).connection = some d := by
      rwa [List.append_assoc]
    have hrest (p) (hp : p ∈ calls none ((connected address timeout).after (before ++ [a])) body) :
        p.1.scans = false :=
      hscan p (by rw [calls]; exact List.mem_append_right _ (hact ▸ hp))
    have hle := length_calls_le body (hact ▸ hes) hd' hrest
    obtain ⟨fs, hfs⟩ := exists_run_after (hact ▸ hes) body
    obtain rfl := Option.some.inj (hd'.symm.trans hfs)
    obtain ⟨es₀, htraced⟩ := exists_traced address timeout before
    have henrol := Connection.enrolment_run (Option.some.inj (hc.symm.trans htraced.connection)) es
      (Connection.attached_of_run hl)
    have hone := Connection.length_verbs c es
    rw [calls, List.length_append] at hlen
    rw [hact] at hle
    rw [calls]
    cases ht : ((connected address timeout).after before).taken? none a with
    | none =>
      -- nothing is sent
      simp only [ht, Option.toList_none, List.length_nil, List.nil_append, Nat.zero_add] at hlen ⊢
      have hnil : verbs c es = [] := List.eq_nil_of_length_eq_zero (by omega)
      rw [hnil, List.length_nil, Nat.add_zero] at hone
      rw [hnil, hq] at henrol
      have htail := ih (hact ▸ hes) (congrArg Prod.snd henrol) hd' hrest
        (by rw [hact, hone]; exact hlen)
      rwa [hact, hone] at htail
    | some p =>
      -- the command of the call joins the queue
      obtain ⟨k, h⟩ := p
      obtain ⟨hverbs, command, l, hk, hreads, hlisten⟩ :=
        htaken k h ht (hscan (k, h) (by simp [calls, ht]))
      rw [hverbs, List.length_singleton] at hone
      rw [hverbs, hq] at henrol
      simp only [ht, Option.toList_some, List.length_singleton] at hlen
      have htr : (c.run es).transaction = some (queue ++ [c.exchanges.length]) := by
        rw [← Connection.length_roles]
        exact congrArg Prod.snd henrol
      obtain ⟨htransaction, hcalls⟩ := ih (hact ▸ hes) htr hd' hrest (by rw [hact]; omega)
      rw [hact, hone] at htransaction hcalls
      rw [Option.toList_some, List.singleton_append]
      refine ⟨?_, fun i k' h' hi => ?_⟩
      · rw [htransaction, List.length_cons, List.range'_succ, List.append_assoc]
        rfl
      · cases i with
        | zero =>
          obtain ⟨rfl, rfl⟩ := Prod.mk.inj (Option.some.inj hi)
          exact ⟨command, l, hk, hreads, Connection.listener?_run hlisten fs⟩
        | succ i =>
          obtain ⟨command', l', hk', hr', hl'⟩ := hcalls i k' h' hi
          exact ⟨command', l', hk', hr', by rwa [Nat.add_assoc, Nat.add_comm 1] at hl'⟩

end Run

end Session

end SortedSets

import SortedSets.Proofs.Session.Judged
import SortedSets.Proofs.Wire.RoundTrip

/-!
# What a call sends

A call on a client either fails and writes nothing, or it writes one request: the word of its command
and the arguments, each as the bytes it is converted to. A server reads these words off the wire. On a
batch a call that is refused leaves everything as it was, and calls that make the same command come to
the same.

## Main definitions

* `MethodCall.Speaks`: the words of the command that a call makes
* `Session.RefusesCall`: a call fails, and nothing is written
* `Session.SendsCall`: a call is accepted, and the words that a server reads

## Main results

* `Session.refused_or_sent`: what a call comes to
* `Session.sendsCall_of_ok`: an accepted call sends the words of its command
* `Session.refusesCall_of_error`, `Session.refusesCall_of_judged`: a call that fails writes nothing
* `Session.sendsCall_of_judged`: over an open connection a command of sendable arguments is sent
-/

namespace SortedSets

namespace MethodCall

variable {m : Method} {k : MethodCall} {mode : Mode}

/-- A call is judged by its method, once the arguments are put into the parameters. -/
theorem judged_of_bind (hm : Method.named? k.method = some m) {a : Arguments}
    (ha : m.signature.bind k.args k.named = .ok a) {r : Except Error Command}
    (happly : m.apply mode a = r.map Call.send) : k.judged mode = r := by
  have hcall : m.call mode k.args k.named = r.map Call.send := by
    rw [Method.call, ha]
    exact happly
  unfold judged
  simp only [hm, hcall]
  cases r <;> rfl

/-- Arguments that do not fit the parameters are refused. -/
theorem judged_of_bind_error (hm : Method.named? k.method = some m) {e : Error}
    (he : m.signature.bind k.args k.named = .error e) : k.judged mode = .error e := by
  have hcall : m.call mode k.args k.named = .error e := by
    rw [Method.call, he]
    rfl
  unfold judged
  simp only [hm, hcall]

/-- The words of the command that a call makes, on a client or on a batch: the word of the command, and
the bytes that the arguments are converted to. -/
def Speaks (k : MethodCall) (words : List Bytes) : Prop :=
  ∃ mode command, k.judged mode = .ok command ∧
    List.Forall₂ Value.Converts (.bytes command.name :: command.args) words

end MethodCall

namespace Session

variable {s : Session} {k : MethodCall} {before : List Bytes}

/-- The call fails, and nothing is written for it. -/
def RefusesCall (s : Session) (k : MethodCall) (e : Error) : Prop :=
  (s.call k.method k.args k.named).2 = .error e ∧
    (s.call k.method k.args k.named).1.written? = s.written?

/-- The call is accepted, and one request is written for it, of which a server reads the words. -/
def SendsCall (s : Session) (k : MethodCall) (words : List Bytes) : Prop :=
  (s.call k.method k.args k.named).2 = .ok (.handle s.nextHandle) ∧
    ∃ before data, s.written? = some before ∧
      (s.call k.method k.args k.named).1.written? = some (before ++ [data]) ∧
      Wire.readRequest data = some (words, [])

/-- A call does not both fail and send something. -/
theorem SendsCall.not_refusesCall {words : List Bytes} (h : s.SendsCall k words) (e : Error) :
    ¬ s.RefusesCall k e := by
  intro hr
  cases h.1.symm.trans hr.1

/-- A command of a call comes to an error, if there is no request for it, or that request is written. -/
theorem refused_or_sent_of_judged (hw : s.written? = some before) {command : Command}
    (hj : k.judged s.mode = .ok command) :
    ∃ c, s.connection = some c ∧
      ((∃ e, c.requestOf (.bytes command.name) command.args = .error e ∧ s.RefusesCall k e) ∨
        ∃ words, List.Forall₂ Value.Converts (.bytes command.name :: command.args) words ∧
          s.SendsCall k words) := by
  obtain ⟨c, hc, -, -⟩ := exists_of_written? hw
  -- what is written follows from the command alone, whatever the call comes to
  have happends := appends_call k.method k.args k.named s before hw
  have hsome := MethodCall.judged_eq_ok_iff.1 hj
  obtain ⟨l, alone, -, -, -, hcall⟩ := call_of_command? hsome
  obtain ⟨m, -, hm⟩ := MethodCall.exists_of_command? hsome
  have hresult := sendFor_of_made hc ⟨m, k.args, k.named, hm⟩ l alone
  have hrequest : (MethodCall.command? s.mode ⟨k.method, k.args, k.named⟩).bind (fun command =>
      s.request? (.bytes command.name) command.args) =
        (c.requestOf (.bytes command.name) command.args).toOption := by
    rw [hsome, Option.bind_some, request?, hc, Option.bind_some]
  rw [hrequest] at happends
  refine ⟨c, hc, ?_⟩
  cases hr : c.requestOf (.bytes command.name) command.args with
  | error e =>
    rw [hr] at hresult happends
    refine .inl ⟨e, rfl, by rw [hcall]; exact hresult, ?_⟩
    rw [happends, hw]
    simp [Except.toOption]
  | ok data =>
    rw [hr] at hresult happends
    obtain ⟨words, hwords, rfl⟩ :=
      Wire.encode_eq_ok_iff.1 (Connection.requestOf_eq_ok_iff.1 hr).2.2
    refine .inr ⟨words, hwords, by rw [hcall]; exact hresult, before, Wire.request words, hw, ?_, ?_⟩
    · exact happends
    · exact Wire.readRequest_iff.2 (List.append_nil _).symm

/-- What a call comes to: its method refuses it, or there is no request for its command, or that
request is written. -/
theorem refused_or_sent (hw : s.written? = some before) (hk : k.scans = false) :
    (∃ e, k.judged s.mode = .error e ∧ s.RefusesCall k e) ∨
      ∃ command c, k.judged s.mode = .ok command ∧ s.connection = some c ∧
        ((∃ e, c.requestOf (.bytes command.name) command.args = .error e ∧ s.RefusesCall k e) ∨
          ∃ words, List.Forall₂ Value.Converts (.bytes command.name :: command.args) words ∧
            s.SendsCall k words) := by
  rcases call_of_judged hk s with ⟨e, hj, hcall⟩ | ⟨command, -, -, hj, -⟩
  · have happends := appends_call k.method k.args k.named s before hw
    have hnone : MethodCall.command? s.mode ⟨k.method, k.args, k.named⟩ = none := by
      rw [Option.eq_none_iff_forall_ne_some]
      intro command hcommand
      cases hj.symm.trans (MethodCall.judged_eq_ok_iff.2 hcommand)
    rw [hnone] at happends
    refine .inl ⟨e, hj, hcall, ?_⟩
    rw [happends, hw]
    simp
  · obtain ⟨c, hc, h⟩ := refused_or_sent_of_judged hw hj
    exact .inr ⟨command, c, hj, hc, h⟩

/-- An accepted call sends the words of its command. -/
theorem sendsCall_of_ok (hw : s.written? = some before) (hk : k.scans = false) {r : Returned}
    (h : (s.call k.method k.args k.named).2 = .ok r) :
    ∃ words, k.Speaks words ∧ s.SendsCall k words := by
  rcases refused_or_sent hw hk with ⟨e, -, he⟩ | ⟨command, c, hj, -, ⟨e, -, he⟩ | ⟨words, hwords, hs⟩⟩
  · cases h.symm.trans he.1
  · cases h.symm.trans he.1
  · exact ⟨words, ⟨s.mode, command, hj, hwords⟩, hs⟩

/-- A call that fails writes nothing. -/
theorem refusesCall_of_error (hw : s.written? = some before) (hk : k.scans = false) {e : Error}
    (h : (s.call k.method k.args k.named).2 = .error e) : s.RefusesCall k e := by
  refine ⟨h, ?_⟩
  rcases refused_or_sent hw hk with ⟨e', -, he⟩ | ⟨command, c, -, -, ⟨e', -, he⟩ | ⟨words, -, hs⟩⟩
  · exact he.2
  · exact he.2
  · cases h.symm.trans hs.1

/-- A call that its method refuses fails with that error. -/
theorem refusesCall_of_judged (hw : s.written? = some before) (hk : k.scans = false) {e : Error}
    (hj : k.judged s.mode = .error e) : s.RefusesCall k e := by
  rcases refused_or_sent hw hk with ⟨e', he', hr⟩ | ⟨command, c, hcommand, -⟩
  · cases hj.symm.trans he'
    exact hr
  · cases hj.symm.trans hcommand

/-- Over an open connection there is a request for a command whose arguments can be sent. -/
theorem exists_requestOf_of_sendable {c : Connection Listener} (ho : c.isClosed = false)
    {command : Command} (hargs : ∀ v ∈ command.args, v.Sendable) :
    ∃ data, c.requestOf (.bytes command.name) command.args = .ok data := by
  have hall : ∀ v ∈ .bytes command.name :: command.args, v.Sendable :=
    List.forall_mem_cons.2 ⟨.bytes _, hargs⟩
  obtain ⟨bss, hbss⟩ := Wire.exists_converted hall
  refine ⟨Wire.request bss, ?_⟩
  rw [Connection.requestOf_of_open (.inr rfl) ho, Wire.encode_eq_ok_iff]
  exact ⟨bss, hbss, rfl⟩

/-- Over an open connection a command is sent whose arguments can be sent. -/
theorem sendsCall_of_judged (hw : s.written? = some before) (hk : k.scans = false)
    {c : Connection Listener} (hc : s.connection = some c) (ho : c.isClosed = false)
    {command : Command} (hj : k.judged s.mode = .ok command) (hargs : ∀ v ∈ command.args, v.Sendable) :
    ∃ words, List.Forall₂ Value.Converts (.bytes command.name :: command.args) words ∧
      s.SendsCall k words := by
  rcases refused_or_sent hw hk with ⟨e, he, -⟩ | ⟨command', d, hj', hd, h⟩
  · cases hj.symm.trans he
  · cases hj.symm.trans hj'
    cases hc.symm.trans hd
    rcases h with ⟨e, he, -⟩ | hsent
    · obtain ⟨data, hdata⟩ := exists_requestOf_of_sendable ho hargs
      cases hdata.symm.trans he
    · exact hsent

/-- Calls that make the same command come to the same. -/
theorem call_congr_of_judged {k' : MethodCall} {command : Command} (hk : k.judged s.mode = .ok command)
    (hk' : k'.judged s.mode = .ok command) :
    s.call k'.method k'.args k'.named = s.call k.method k.args k.named := by
  obtain ⟨m, hm, hcall⟩ := MethodCall.exists_of_command? (MethodCall.judged_eq_ok_iff.1 hk)
  obtain ⟨m', hm', hcall'⟩ := MethodCall.exists_of_command? (MethodCall.judged_eq_ok_iff.1 hk')
  unfold call
  simp only [hm, hcall, hm', hcall']

/-- A batch that is not there or that was sent refuses all calls by the same error. -/
theorem enqueue_refuses_all_or (b : BatchId) (s : Session) :
    (∃ e, ∀ k : MethodCall, s.enqueue b k.method k.args k.named = (s, .error e)) ∨
      ∃ x, s.batches[b]? = some x ∧ x.spent = false := by
  cases hx : s.batches[b]? with
  | none => exact .inl ⟨.noAttribute, fun k => by simp only [enqueue, hx]⟩
  | some x =>
    cases hsp : x.spent with
    | true => exact .inl ⟨.assertion .batchSpent, fun k => by simp only [enqueue, hx, hsp, if_true]⟩
    | false => exact .inr ⟨x, rfl, hsp⟩

/-- A call that its method refuses leaves everything as it was, on a batch as well. -/
theorem enqueue_of_judged_error {b : BatchId} {x : Batch} (hx : s.batches[b]? = some x)
    (hsp : x.spent = false) {e : Error} (hj : k.judged x.mode = .error e) :
    s.enqueue b k.method k.args k.named = (s, .error e) := by
  have hresult := enqueue_of_unspent hx hsp k
  rw [hj] at hresult
  rcases enqueue_cases b k.method k.args k.named s with ⟨e', he'⟩ | ⟨y, c, source, -, -, hmade⟩
  · rw [he'] at hresult ⊢
    cases hresult
    rfl
  · rw [hmade] at hresult
    cases hresult

/-- On a batch, too, calls that make the same command come to the same. -/
theorem enqueue_congr_of_judged {k' : MethodCall} {b : BatchId} {x : Batch}
    (hx : s.batches[b]? = some x) {command : Command} (hk : k.judged x.mode = .ok command)
    (hk' : k'.judged x.mode = .ok command) :
    s.enqueue b k'.method k'.args k'.named = s.enqueue b k.method k.args k.named := by
  obtain ⟨m, hm, hcall⟩ := MethodCall.exists_of_command? (MethodCall.judged_eq_ok_iff.1 hk)
  obtain ⟨m', hm', hcall'⟩ := MethodCall.exists_of_command? (MethodCall.judged_eq_ok_iff.1 hk')
  unfold enqueue
  simp only [hx, hm, hcall, hm', hcall']

end Session

end SortedSets

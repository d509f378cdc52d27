import SortedSets.Proofs.Connection.Event
import SortedSets.Proofs.Connection.Operations
import SortedSets.Proofs.Wire.Unfinished

/-!
# Commands that raise

A command that is handed over may raise instead of returning something to wait for. Its name may be no
name at all, the connection may be closed, an argument may have no bytes: all this is found out before
anything happens, and leaves no trace. But one thing is found out afterwards. The word of a command is
read when the command was written already and waits for its reply; a name in bytes that are no text in
UTF-8 has no word. The caller is told that the command failed, and the server receives it.

## Main definitions

* `Value.Unreadable`: the names of commands that have no word
* `effective`: the events of a run but for the commands that are refused

## Main results

* `Wire.encode_ne_textDecoding`: no argument fails for want of a word
* `Connection.submit_of_raise`: what becomes of a command that raises
* `Connection.run_effective`: it does not matter to a run that commands were refused
* `raise_without_effect`: commands that raise, after every run
-/

namespace SortedSets

variable {Listener : Type}

/-- The name is a byte string that is no text in UTF-8. -/
def Value.Unreadable (name : Value) : Prop :=
  ∃ bs, name.bytes? = some bs ∧ Utf8.isValid bs = false

/-- The word of a command is all that is read of its name. -/
theorem Verb.ofWord_eq_error_iff {name : Value} {e : Error} :
    ofWord name = .error e ↔ name.Unreadable ∧ e = .textDecoding := by
  unfold ofWord
  constructor
  · intro h
    split at h
    · next bs hbs =>
      split at h
      · cases h
      · next hv =>
        cases h
        exact ⟨⟨bs, hbs, Bool.eq_false_iff.2 hv⟩, rfl⟩
    · cases h
  · rintro ⟨⟨bs, hbs, hv⟩, rfl⟩
    simp only [hbs, hv, Bool.false_eq_true, if_false]

/-- An argument may fail to be encoded, but nothing is decoded. -/
theorem Wire.encode_ne_textDecoding (vs : List Value) : encode vs ≠ .error .textDecoding := by
  intro h
  obtain ⟨v, -, hv⟩ := exists_fails_of_encode h
  cases hv

namespace Connection

variable {c : Connection Listener} {name : Value} {args : List Value} {l : Listener} {e : Error}

theorem requestOf_ne_textDecoding : c.requestOf name args ≠ .error .textDecoding := by
  by_cases hn : name.text?.isSome = true ∨ name.bytes?.isSome = true
  · cases ho : c.isClosed with
    | true =>
      rw [requestOf_of_isClosed hn ho]
      intro h
      cases h
    | false =>
      rw [requestOf_of_open hn ho]
      exact Wire.encode_ne_textDecoding _
  · have hnone : (name.text?.isNone && name.bytes?.isNone) = true := by
      simpa [Option.isNone_iff_eq_none] using hn
    simp only [requestOf, hnone]
    intro h
    cases h

/-- A command raises because there is no request for it, and nothing has happened; or for want of a word,
and its request was written and waits for a reply. -/
theorem submit_of_raise (h : (c.submit name args l).ticket = .error e) :
    (c.requestOf name args = .error e ∧ c.submit name args l = ⟨c, [], .error e⟩) ∨
      ∃ data, c.requestOf name args = .ok data ∧ name.Unreadable ∧ e = .textDecoding ∧
        c.submit name args l = ⟨(c.emit data).enlist .plain none, [], .error e⟩ := by
  cases hr : c.requestOf name args with
  | error e' =>
    have hsubmit : c.submit name args l = ⟨c, [], .error e'⟩ := by simp only [submit, hr]
    rw [hsubmit] at h
    cases h
    exact .inl ⟨rfl, hsubmit⟩
  | ok data =>
    -- the request exists, so that it is the word of the command that is at fault
    cases hv : Verb.ofWord name with
    | ok verb =>
      simp only [submit, hr, hv] at h
      cases h
    | error e' =>
      have hsubmit : c.submit name args l = ⟨(c.emit data).enlist .plain none, [], .error e'⟩ := by
        simp only [submit, hr, hv]
      rw [hsubmit] at h
      cases h
      obtain ⟨hname, he⟩ := Verb.ofWord_eq_error_iff.1 hv
      exact .inr ⟨data, rfl, hname, he, hsubmit⟩

/-- A command raises for want of a word if it can be sent otherwise. -/
theorem ticket_eq_textDecoding_iff :
    (c.submit name args l).ticket = .error .textDecoding ↔
      name.Unreadable ∧ ∃ data, c.requestOf name args = .ok data := by
  constructor
  · intro h
    rcases submit_of_raise h with ⟨hr, -⟩ | ⟨data, hr, hname, -, -⟩
    · exact absurd hr requestOf_ne_textDecoding
    · exact ⟨hname, data, hr⟩
  · rintro ⟨hname, data, hr⟩
    simp only [submit, hr, Verb.ofWord_eq_error_iff.2 ⟨hname, rfl⟩]

/-- A command that was written and waits changes the connection. -/
theorem emit_enlist_ne (data : Bytes) (c : Connection Listener) :
    (c.emit data).enlist .plain none ≠ c := by
  intro h
  have hlength := congrArg (fun d => d.exchanges.length) h
  rw [emit_frame] at hlength
  simp at hlength

/-! ## Runs without the refused commands -/

/-- An event hands over a command for which there is no request. -/
def refuses (c : Connection Listener) : Event Listener → Bool
  | .submit name args _ => !(c.requestOf name args).isOk
  | _ => false

theorem refuses_submit_iff :
    c.refuses (.submit name args l) = true ↔ ∃ e, c.requestOf name args = .error e := by
  cases hr : c.requestOf name args <;> simp [refuses, hr, Except.isOk, Except.toBool]

/-- A refused command leaves the connection as it is, and there is no request of it. -/
theorem step_of_refuses {x : Event Listener} (h : c.refuses x = true) :
    c.step x = c ∧ x.request? c = none ∧ x.piece = [] := by
  cases x with
  | submit name args l =>
    obtain ⟨e, he⟩ := refuses_submit_iff.1 h
    refine ⟨?_, ?_, rfl⟩
    · simp only [step, submit, he]
    · simp only [Event.request?, he]
      rfl
  | _ => cases h

end Connection

/-- The events of a run without the commands that were refused. -/
def effective : Connection Listener → List (Event Listener) → List (Event Listener)
  | _, [] => []
  | c, x :: es => if c.refuses x then effective (c.step x) es else x :: effective (c.step x) es

section Effective

variable {c : Connection Listener} {x : Event Listener}

theorem effective_of_refuses (h : c.refuses x = true) (es : List (Event Listener)) :
    effective c (x :: es) = effective c es := by
  rw [effective, if_pos h, (Connection.step_of_refuses h).1]

theorem effective_of_not_refuses (h : c.refuses x = false) (es : List (Event Listener)) :
    effective c (x :: es) = x :: effective (c.step x) es := by
  rw [effective, h]
  rfl

variable (c : Connection Listener) (es : List (Event Listener))

/-- It does not matter to a run that commands were refused. -/
theorem Connection.run_effective : c.run (effective c es) = c.run es := by
  induction es generalizing c with
  | nil => rfl
  | cons x es ih =>
    cases h : c.refuses x with
    | true => rw [effective_of_refuses h, ih, run_cons, (step_of_refuses h).1]
    | false => rw [effective_of_not_refuses h, run_cons, run_cons, ih]

/-- The server does not learn of them. -/
theorem requests_effective : requests c (effective c es) = requests c es := by
  induction es generalizing c with
  | nil => rfl
  | cons x es ih =>
    cases h : c.refuses x with
    | true =>
      obtain ⟨hstep, hnone, -⟩ := Connection.step_of_refuses h
      rw [effective_of_refuses h, ih, requests, hnone, hstep]
      rfl
    | false => rw [effective_of_not_refuses h, requests, requests, ih]

/-- Each command that is left has its request. -/
theorem exists_request_of_mem_effective {name : Value} {args : List Value} {l : Listener}
    (h : .submit name args l ∈ effective c es) :
    ∃ data, Wire.encode (name :: args) = .ok data ∧ data ∈ requests c es := by
  induction es generalizing c with
  | nil => cases h
  | cons x es ih =>
    cases hx : c.refuses x with
    | true =>
      rw [effective_of_refuses hx] at h
      obtain ⟨data, hdata, hmem⟩ := ih c h
      refine ⟨data, hdata, ?_⟩
      -- a refused event leaves the state as it is, and with it what the others write
      rw [requests, (Connection.step_of_refuses hx).1]
      exact List.mem_append_right _ hmem
    | false =>
      rw [effective_of_not_refuses hx] at h
      rcases List.mem_cons.1 h with rfl | h
      · cases hr : c.requestOf name args with
        | error e =>
          have hrefused := Connection.refuses_submit_iff (l := l).2 ⟨e, hr⟩
          cases hx.symm.trans hrefused
        | ok data =>
          refine ⟨data, (Connection.requestOf_eq_ok_iff.1 hr).2.2, ?_⟩
          rw [requests, Event.request?, hr]
          exact List.mem_append_left _ (List.mem_singleton_self data)
      · obtain ⟨data, hdata, hmem⟩ := ih _ h
        exact ⟨data, hdata, List.mem_append_right _ hmem⟩

end Effective

/-- After every run, a command of any name with any arguments that raises an error. Nobody is told
anything, and the mode and the open transaction stay as they are. The whole connection does, unless the
error is that the name cannot be decoded: then the request was written or gathered, as that of a command
which is accepted, and waits for a reply that nobody listens to. This is the error exactly if the name is
a byte string that is no text and there is a request for the command, that is, the connection is open and
the arguments can be encoded. All other commands that raise might as well be left out of a run: the
connection after it is the same, and the server receives the same requests. -/
theorem raise_without_effect (address : Value × Value) (timeout : Timeout)
    (es : List (Event Listener)) :
    let c := (Connection.start address timeout).run es
    (∀ name args l e, (c.submit name args l).ticket = .error e →
      (c.submit name args l).notices = [] ∧
      (c.submit name args l).connection.mode = c.mode ∧
      (c.submit name args l).connection.transaction = c.transaction ∧
      (e ≠ .textDecoding → (c.submit name args l).connection = c) ∧
      (e = .textDecoding → (c.submit name args l).connection ≠ c ∧
        ∃ data, Wire.encode (name :: args) = .ok data ∧
          (c.submit name args l).connection = (c.emit data).enlist .plain none)) ∧
    (∀ name args l, (c.submit name args l).ticket = .error .textDecoding ↔
      name.Unreadable ∧ c.isClosed = false ∧ ∃ data, Wire.encode (name :: args) = .ok data) ∧
    c = (Connection.start address timeout).run (effective (.start address timeout) es) ∧
    requests (.start address timeout) (effective (.start address timeout) es) =
      requests (.start address timeout) es ∧
    ∀ name args l, .submit name args l ∈ effective (.start address timeout) es →
      ∃ data, Wire.encode (name :: args) = .ok data ∧ data ∈ requests (.start address timeout) es := by
  intro c
  refine ⟨?raises, ?decoding, (Connection.run_effective _ es).symm, requests_effective _ es,
    fun _ _ _ => exists_request_of_mem_effective _ es⟩
  case raises =>
    intro name args l e h
    rcases Connection.submit_of_raise h with ⟨hr, hsubmit⟩ | ⟨data, hr, -, he, hsubmit⟩
    · rw [hsubmit]
      refine ⟨rfl, rfl, rfl, fun _ => rfl, ?_⟩
      rintro rfl
      exact absurd hr Connection.requestOf_ne_textDecoding
    · have hframe := c.emit_frame data
      rw [hsubmit]
      refine ⟨rfl, ?_, ?_, fun hne => absurd he hne, fun _ => ⟨Connection.emit_enlist_ne data c, data,
        (Connection.requestOf_eq_ok_iff.1 hr).2.2, rfl⟩⟩
      · rw [hframe]
        rfl
      · rw [hframe]
        rfl
  case decoding =>
    intro name args l
    rw [Connection.ticket_eq_textDecoding_iff]
    refine and_congr_right ?_
    rintro ⟨bs, hbs, -⟩
    have hname : name.text?.isSome = true ∨ name.bytes?.isSome = true := .inr (by rw [hbs]; rfl)
    simp only [Connection.requestOf_eq_ok_iff, hname, true_and, exists_and_left]

/-- A byte that is no text, sent inside a transaction. -/
theorem raise_without_effect_unreadable :
    let es : List (Event Unit) := [.submit (.text (.ofString "MULTI")) [] ()]
    let c := (Connection.start (.none, .none) .none).run es
    let sent := c.submit (.bytes [0xff]) [] ()
    sent.ticket = .error .textDecoding ∧ sent.connection.mode = .transactional ∧
      sent.connection.transaction = some [] ∧ sent.connection.waiting = [0, 1] ∧
      sent.connection.writes =
        [Bytes.ascii "*1\r\n$5\r\nMULTI\r\n", Bytes.ascii "*1\r\n$1\r\n" ++ 0xff :: Bytes.ascii "\r\n"] := by
  intro es c sent
  obtain ⟨hraises, hdecoding, -⟩ := raise_without_effect (.none, .none) .none es
  have hticket := (hdecoding (.bytes [0xff]) [] ()).2
    ⟨⟨[0xff], rfl, by decide +kernel⟩, rfl, _, rfl⟩
  obtain ⟨-, hmode, htransaction, -, hwritten⟩ := hraises _ _ _ _ hticket
  obtain ⟨-, data, hdata, hconnection⟩ := hwritten rfl
  obtain rfl := Except.ok.inj (hdata.symm.trans rfl)
  refine ⟨hticket, hmode.trans rfl, htransaction.trans rfl, ?_, ?_⟩
  · exact (congrArg Connection.waiting hconnection).trans rfl
  · exact (congrArg Connection.writes hconnection).trans rfl

/-- Not every command that raises leaves the connection as it was. -/
theorem not_raise_without_effect :
    ¬ ∀ (es : List (Event Unit)) (name : Value) (args : List Value) (e : Error),
      let c := (Connection.start (.none, .none) .none).run es
      (c.submit name args ()).ticket = .error e → (c.submit name args ()).connection = c := by
  intro h
  have hticket : ((Connection.start (.none, .none) .none).submit (.bytes [0xff]) [] ()).ticket =
      .error .textDecoding :=
    Connection.ticket_eq_textDecoding_iff.2 ⟨⟨[0xff], rfl, by decide +kernel⟩, _, rfl⟩
  have hwaiting := congrArg Connection.waiting (h [] _ _ _ hticket)
  have hone : ((Connection.start (.none, .none) .none).submit (.bytes [0xff]) [] ()).connection.waiting =
      [0] := by decide +kernel
  cases hone.symm.trans hwaiting

end SortedSets

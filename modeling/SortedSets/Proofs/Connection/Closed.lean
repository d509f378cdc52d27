import SortedSets.Proofs.Connection.Stream

/-!
# The end of a connection

A transport is told to close by the client or because of a fault in the stream of the server, and
it may be lost. A connection that the client has closed, or whose transport was lost, is silent
from then on. A fault alone does not make it silent: it goes on sending.

## Main definitions

* `Connection.TransportEnds`: the transport was told to close, or was lost
* `Connection.Silent`: nothing is sent any more, whatever happens
* `Event.ends`: the client closes the connection, or the transport is lost
* `Connection.EndsBy`: what brings the end of a connection about, and what makes it silent

## Main results

* `Connection.silent_iff`: a connection is silent if it is closed, and only then
* `Connection.transportEnds_step`: what an event adds to the end of a transport
* `Connection.endsBy_run`: the end of a connection in a run
-/

namespace SortedSets

open Wire (Reader)

variable {Listener : Type}

/-- The client closes the connection, or the transport is lost. -/
def Event.ends : Event Listener → Bool
  | .close | .drop _ => true
  | _ => false

namespace Connection

variable {c d e : Connection Listener}

/-! ## Closed connections -/

/-- An event closes a connection if it ends it, and only then. -/
theorem isClosed_step_iff (x : Event Listener) :
    (c.step x).isClosed = true ↔ c.isClosed = true ∨ x.ends = true := by
  -- the two flags that close a connection are no part of the course of exchanges
  rw [(step_outside c x).isClosed_eq]
  cases x with
  | submit name args l =>
    rw [outside]
    split
    · simp [Event.ends]
    · next data _ =>
      rw [emit_frame]
      simp [Event.ends, enlist, isClosed]
  | leaveBuffer =>
    rw [outside, leaveBuffer_frame]
    simp [Event.ends, isClosed]
  | close =>
    rw [outside, close_frame]
    simp [Event.ends, isClosed]
  | drop x => simp [outside, Event.ends, isClosed]
  | giveUp | abandon | expire | deliver | follow | enterBuffer =>
    simp [outside, enterBuffer, Event.ends, isClosed]

/-- A run closes a connection if one of its events ends it. -/
theorem isClosed_run_iff (es : List (Event Listener)) :
    (c.run es).isClosed = true ↔ c.isClosed = true ∨ ∃ x ∈ es, x.ends = true := by
  induction es generalizing c with
  | nil => simp
  | cons x es ih => simp [ih, isClosed_step_iff, or_assoc]

/-- A connection that was closed does not open again. -/
theorem isClosed_step (h : c.isClosed = true) (x : Event Listener) : (c.step x).isClosed = true :=
  (isClosed_step_iff x).2 (.inl h)

theorem isClosed_of_run (es : List (Event Listener)) (h : (c.run es).isClosed = false) :
    c.isClosed = false :=
  Bool.eq_false_iff.2 fun hc => Bool.eq_false_iff.1 h ((isClosed_run_iff es).2 (.inl hc))

/-! ## Silence

Silence is a statement about every continuation, so that it need not be proved again of later states.
It follows from the two flags alone: what the transport was told does not enter. -/

/-- Nothing was sent between two states of a connection: no byte was written, no command was
handed over, and nobody waits who did not wait before. -/
structure Unsent (c d : Connection Listener) : Prop where
  writes_eq : d.writes = c.writes
  length_eq : d.exchanges.length = c.exchanges.length
  waiting_suffix : d.waiting <:+ c.waiting

theorem Unsent.refl (c : Connection Listener) : Unsent c c := ⟨rfl, rfl, List.suffix_refl _⟩

theorem Unsent.trans (h : Unsent c d) (h' : Unsent d e) : Unsent c e :=
  ⟨h'.writes_eq.trans h.writes_eq, h'.length_eq.trans h.length_eq,
    h'.waiting_suffix.trans h.waiting_suffix⟩

/-- Whoever calls with the name of a command gets an error, and that is all. -/
theorem submit_of_isClosed (h : c.isClosed = true) {name : Value}
    (hn : name.text?.isSome = true ∨ name.bytes?.isSome = true) (args : List Value)
    (l : Listener) : c.submit name args l = ⟨c, [], .error (.closed .before)⟩ := by
  simp only [submit, requestOf_of_isClosed hn h]

/-- An event of a closed connection sends nothing. -/
theorem unsent_step (h : c.isClosed = true) (x : Event Listener) : Unsent c (c.step x) := by
  have ho := step_outside c x
  cases x with
  | submit name args l =>
    rcases submit_cases name args l c with ⟨e, -, hs, -⟩ | ⟨data, e, hd, -⟩ | ⟨data, verb, hd, -⟩
    · rw [step, hs]
      exact .refl c
    -- no command of a closed connection is sent
    · cases h.symm.trans (isClosed_of_requestOf hd)
    · cases h.symm.trans (isClosed_of_requestOf hd)
  | giveUp t => exact ⟨ho.writes_eq, ho.length_eq, (quiet_giveUp t c).waiting_eq ▸ List.suffix_refl _⟩
  | abandon t => exact ⟨rfl, ho.length_eq, List.suffix_refl _⟩
  | expire t => exact ⟨ho.writes_eq, ho.length_eq, (quiet_expire t c).waiting_eq ▸ List.suffix_refl _⟩
  | follow => exact ⟨ho.writes_eq, ho.length_eq, (quiet_followNext c).waiting_eq ▸ List.suffix_refl _⟩
  | deliver piece =>
    refine ⟨ho.writes_eq, ho.length_eq, ?_⟩
    rw [step, deliver_frame, assign_frame]
    exact List.drop_suffix ..
  | enterBuffer => exact ⟨rfl, rfl, List.suffix_refl _⟩
  | leaveBuffer =>
    -- what was gathered is dropped
    have hframe := leaveBuffer_frame c
    have hlength : (c.step .leaveBuffer).exchanges.length = c.exchanges.length := by
      rw [step, hframe]
    have hwaiting : (c.step .leaveBuffer).waiting = c.waiting := by
      rw [step, hframe]
    exact ⟨writes_leaveBuffer h, hlength, hwaiting ▸ List.suffix_refl _⟩
  | close =>
    rw [step, close_frame]
    exact ⟨rfl, rfl, List.suffix_refl _⟩
  | drop x =>
    refine ⟨ho.writes_eq, ho.length_eq, ?_⟩
    obtain ⟨x', hx⟩ := drop_frame x c
    rw [step, hx, failWaiting_frame]
    exact List.drop_suffix ..

theorem unsent_run (h : c.isClosed = true) (es : List (Event Listener)) :
    Unsent c (c.run es) := by
  induction es generalizing c with
  | nil => exact .refl c
  | cons x es ih => exact (unsent_step h x).trans (ih (isClosed_step h x))

/-- Nothing is sent any more, whatever happens: the connection says that it is closed, and whoever
calls with the name of a command gets an error. -/
structure Silent (c : Connection Listener) : Prop where
  closed : ∀ es, (c.run es).isClosed = true
  unsent : ∀ es, Unsent c (c.run es)
  refused : ∀ es (name : Value) (args : List Value) (l : Listener),
    name.text?.isSome = true ∨ name.bytes?.isSome = true →
      (c.run es).submit name args l = ⟨c.run es, [], .error (.closed .before)⟩

/-- A connection is silent if it is closed, and only then. -/
theorem silent_iff : c.Silent ↔ c.isClosed = true := by
  constructor
  · intro h
    exact h.closed []
  · intro h
    have hrun (es : List (Event Listener)) : (c.run es).isClosed = true :=
      (isClosed_run_iff es).2 (.inl h)
    refine ⟨hrun, unsent_run h, ?_⟩
    intro es name args l hn
    exact submit_of_isClosed (hrun es) hn args l

/-! ## The end of the transport

A fault in the stream tells the transport to close but sets neither of the flags that close the
connection. So the end of the transport is compared with the flags and with the reader, which keeps
the fault that it has found. -/

/-- The transport was told to close, or was lost. -/
def TransportEnds (c : Connection Listener) : Prop :=
  0 < c.closes ∨ c.attached = false

/-- A transport that is told to close ends. -/
theorem transportEnds_closeTransport (e : Error) : (c.closeTransport e).TransportEnds := by
  cases h : c.attached with
  | true => exact .inl (by simp [closeTransport, h])
  | false => exact .inr h

/-- An event that neither brings bytes nor ends the connection leaves the reader, the transport and
the reason for closing it alone. -/
theorem step_frame {x : Event Listener} (he : x.ends = false) (hd : ∀ piece, x ≠ .deliver piece)
    (c : Connection Listener) :
    c.step x = { c with
      exchanges := (c.step x).exchanges
      waiting := (c.step x).waiting
      due := (c.step x).due
      transaction := (c.step x).transaction
      buffer := (c.step x).buffer
      writes := (c.step x).writes } := by
  cases x with
  | submit name args l =>
    rcases submit_cases name args l c with ⟨e, -, hs, -⟩ | ⟨data, e, -, -, hs, -⟩ |
      ⟨data, verb, -, -, hs, -⟩
    · rw [step, hs]
    · rw [step, hs, emit_frame]
      rfl
    · -- its timeout may end the command at once
      rw [step, hs, (quiet_startTimeout _ _).eq, enrol_eq, emit_frame]
      rfl
  | giveUp t => rw [step, (quiet_giveUp t c).eq]
  | expire t => rw [step, (quiet_expire t c).eq]
  | follow => rw [step, (quiet_followNext c).eq]
  | leaveBuffer => rw [step, leaveBuffer_frame]
  | abandon | enterBuffer => rfl
  | close | drop => cases he
  | deliver piece => exact absurd rfl (hd piece)

/-- Bytes that arrive tell the transport to close if the stream has a fault. -/
theorem transport_deliver (piece : Bytes) (c : Connection Listener) :
    match (c.reader.feed piece).2.fault with
    | some _ => (c.deliver piece).TransportEnds
    | none => (c.deliver piece).closes = c.closes ∧ (c.deliver piece).attached = c.attached := by
  unfold deliver
  dsimp only
  have hframe := assign_frame (c.reader.feed piece).1 { c with reader := (c.reader.feed piece).2 }
  have hreader : (assign (c.reader.feed piece).1 { c with reader := (c.reader.feed piece).2 }).reader =
      (c.reader.feed piece).2 := by rw [hframe]
  cases hf : (c.reader.feed piece).2.fault with
  | some f => exact transportEnds_closeTransport _
  | none =>
    rw [hframe]
    exact ⟨rfl, rfl⟩

/-- The transport has ended if the connection is closed or the reader has found a fault, and only
then; this holds after every event. -/
theorem transportEnds_step
    (h : c.TransportEnds ↔ c.isClosed = true ∨ c.reader.fault.isSome = true)
    (x : Event Listener) :
    (c.step x).TransportEnds ↔
      (c.step x).isClosed = true ∨ (c.step x).reader.fault.isSome = true := by
  have hsame (ht : (c.step x).closes = c.closes ∧ (c.step x).attached = c.attached)
      (hcl : (c.step x).isClosed = c.isClosed)
      (hf : (c.step x).reader.fault.isSome = c.reader.fault.isSome) :
      (c.step x).TransportEnds ↔
        (c.step x).isClosed = true ∨ (c.step x).reader.fault.isSome = true := by
    rw [TransportEnds, ht.1, ht.2, hcl, hf]
    exact h
  have hreader : (c.step x).reader = (c.outside x).reader := (step_outside c x).reader_eq
  -- an event ends the transport by itself, or by the bytes that it brings, or not at all
  cases hx : x.ends with
  | true =>
    -- the transport ends, if it has not ended before
    refine iff_of_true ?_ (.inl ((isClosed_step_iff x).2 (.inr hx)))
    cases x with
    | close =>
      rw [step, close]
      split
      · next hc => exact h.2 (.inl (by simp [isClosed, hc]))
      · exact transportEnds_closeTransport _
    | drop e => exact .inr rfl
    | _ => cases hx
  | false =>
    have hcl : (c.step x).isClosed = c.isClosed :=
      Bool.eq_iff_iff.2 ((isClosed_step_iff x).trans (by simp [hx]))
    by_cases hpiece : ∃ piece, x = .deliver piece
    · obtain ⟨piece, rfl⟩ := hpiece
      have hd := transport_deliver piece c
      have hafter : (c.step (.deliver piece)).reader = (c.reader.feed piece).2 := hreader
      cases hf : (c.reader.feed piece).2.fault with
      | some f =>
        rw [hf] at hd
        exact iff_of_true hd (.inr (by rw [hafter, hf]; rfl))
      | none =>
        rw [hf] at hd
        refine hsame hd hcl ?_
        -- there was no fault before, since it would have stayed
        rw [hafter, hf]
        cases hb : c.reader.fault with
        | none => rfl
        | some f =>
          rw [Reader.feed_of_fault hb piece, hb] at hf
          cases hf
    · have hframe := step_frame hx (fun piece hp => hpiece ⟨piece, hp⟩) c
      refine hsame ⟨by rw [hframe], by rw [hframe]⟩ hcl ?_
      rw [hreader, ((outside_reading c x).2.resolve_left hpiece).2]

/-! ## The end of a run -/

/-- A command that can be encoded is sent as long as the connection is not closed. -/
theorem sends_of_open (h : c.isClosed = false) {name : Value} {args : List Value} {data : Bytes}
    (hn : name.text?.isSome = true ∨ name.bytes?.isSome = true)
    (hd : Wire.encode (name :: args) = .ok data) (l : Listener) :
    (c.submit name args l).connection.sentBytes = c.sentBytes ++ data ∧
      (c.submit name args l).connection.waiting = c.waiting ++ [c.exchanges.length] := by
  have hr : c.requestOf name args = .ok data := requestOf_eq_ok_iff.2 ⟨hn, h, hd⟩
  refine ⟨?_, ?_⟩
  · have hs := (step_outside c (.submit name args l)).sentBytes_eq
    simp only [outside, hr] at hs
    exact hs.trans (sentBytes_emit data c)
  · rcases submit_cases name args l c with ⟨e, he, -⟩ | ⟨data', e, -, -, hs, -⟩ |
      ⟨data', verb, -, -, hs, -⟩
    · cases hr.symm.trans he
    · rw [hs, emit_frame]
      rfl
    · rw [hs, (quiet_startTimeout _ _).waiting_eq, enrol_eq, emit_frame]
      rfl

/-- What brings the end of a transport about, and what makes its connection silent: `ended` says
that the client closed the connection or that the transport was lost, and `faulty` that the stream
breaks the rules of the protocol. -/
structure EndsBy (c : Connection Listener) (ended faulty : Prop) : Prop where
  transport : c.TransportEnds ↔ ended ∨ faulty
  silent : c.Silent ↔ ended
  /-- Until then every command that can be encoded is sent, and waits for a reply. -/
  sends : ¬ ended → ∀ (name : Value) (args : List Value) (data : Bytes) (l : Listener),
    name.text?.isSome = true ∨ name.bytes?.isSome = true → Wire.encode (name :: args) = .ok data →
      (c.submit name args l).connection.sentBytes = c.sentBytes ++ data ∧
        (c.submit name args l).connection.waiting = c.waiting ++ [c.exchanges.length]

/-- The end of a connection in a run. -/
theorem endsBy_run (address : Value × Value) (timeout : Timeout) (es : List (Event Listener)) :
    ((start address timeout).run es).EndsBy
      (((start address timeout : Connection Listener).run es).isClosed = true)
      ((Reader.start.feed (received es)).2.fault.isSome = true) where
  transport := by
    rw [← reader_run address timeout es]
    -- the last event is looked at from the state that the ones before it led to
    induction es using List.reverseRec with
    | nil => simp [TransportEnds, isClosed, start, Reader.start]
    | append_singleton es x ih =>
      rw [run_append]
      exact transportEnds_step ih x
  silent := silent_iff
  sends h _ _ _ l hn hd := sends_of_open (Bool.not_eq_true _ ▸ h) hn hd l

end Connection

end SortedSets

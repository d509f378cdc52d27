import Mathlib.Data.List.Induction
import SortedSets.Proofs.Connection.Event
import SortedSets.Proofs.Connection.Operations

/-!
# The streams of a run

What a connection has read depends on the stream of the server alone and not on how it was cut
into pieces or on what happened between them. What it has written are the commands in the order in
which they were handed over, whether each was written at once or many were gathered.

## Main definitions

* `Connection.SameOutside`: connections that differ in the course of their exchanges only
* `Connection.outside`: what an event does to the reader, the writes and the transport
* `OnWire`: how the writes of a run stand to its commands

## Main results

* `Connection.step_outside`: an event does nothing else to them
* `reader_run`, `replies_snoc_deliver`: the reader of a run, and the replies that a piece completes
* `length_requests`: a run has one exchange for each command
* `onWire_run`: a run in which blocks of gathered commands lie apart writes its commands in order
-/

namespace SortedSets

open Wire (Reply Reader)

variable {Listener : Type}

namespace Connection

/-- Connections that have sent as many commands and differ in the course of their exchanges
only. -/
structure SameOutside (c d : Connection Listener) : Prop where
  timeout_eq : d.timeout = c.timeout
  reader_eq : d.reader = c.reader
  buffer_eq : d.buffer = c.buffer
  writes_eq : d.writes = c.writes
  closing_eq : d.closing = c.closing
  attached_eq : d.attached = c.attached
  length_eq : d.exchanges.length = c.exchanges.length

/-- What an event does to a connection as it shows outside. -/
def outside (c : Connection Listener) : Event Listener → Connection Listener
  | .submit name args _ =>
    match c.requestOf name args with
    | .error _ => c
    | .ok data => (c.emit data).enlist .plain none
  | .deliver piece => { c with reader := (c.reader.feed piece).2 }
  | .enterBuffer => c.enterBuffer
  | .leaveBuffer => c.leaveBuffer
  | .close => c.close
  | .drop _ => { c with attached := false }
  | .giveUp _ | .abandon _ | .expire _ | .follow => c

theorem SameOutside.refl (c : Connection Listener) : SameOutside c c :=
  ⟨rfl, rfl, rfl, rfl, rfl, rfl, rfl⟩

theorem Quiet.sameOutside {c d : Connection Listener} (q : Quiet c d) : SameOutside c d :=
  ⟨q.timeout_eq, q.reader_eq, q.buffer_eq, q.writes_eq, by rw [q.eq], q.attached_eq, q.length_eq⟩

/-- An event does nothing else to a connection as it shows outside. -/
theorem step_outside (c : Connection Listener) (e : Event Listener) :
    SameOutside (c.outside e) (c.step e) := by
  cases e with
  | submit name args l =>
    rcases submit_cases name args l c with ⟨e, hd, hs, -⟩ | ⟨data, e, hd, hw, hs, -⟩ |
      ⟨data, verb, hd, -, hs, -⟩
    · -- the command is refused
      simp only [outside, hd, step, hs]
      exact .refl c
    · -- a new command that nobody listens to
      simp only [outside, hd, step, hs]
      exact .refl _
    · -- the role and the timeout of the command do not show outside
      simp only [outside, hd, step, hs]
      have q := (quiet_startTimeout c.exchanges.length ((c.emit data).enrol verb l)).sameOutside
      refine ⟨q.timeout_eq, q.reader_eq, q.buffer_eq, q.writes_eq, q.closing_eq, q.attached_eq, ?_⟩
      rw [q.length_eq, enrol_eq, length_exchanges_enlist]
      exact (length_exchanges_enlist ..).symm
  | giveUp t => exact (quiet_giveUp t c).sameOutside
  | abandon t => exact (quiet_settle t .cancelled c).sameOutside
  | expire t => exact (quiet_expire t c).sameOutside
  | follow => exact (quiet_followNext c).sameOutside
  | deliver piece =>
    rw [step, deliver_frame, assign_frame]
    refine ⟨rfl, rfl, rfl, rfl, rfl, rfl, ?_⟩
    -- answers change exchanges, but not how many they are
    exact assign_induction (P := fun d => d.exchanges.length = c.exchanges.length)
      (fun _ _ h => h) (fun d r h => (length_exchanges_answerNext r.outcome d).trans h) _ rfl
  | enterBuffer | leaveBuffer | close => exact .refl _
  | drop e =>
    obtain ⟨e', he⟩ := drop_frame e c
    rw [step, he, failWaiting_frame]
    refine ⟨rfl, rfl, rfl, rfl, rfl, rfl, ?_⟩
    exact failWaiting_induction (P := fun d => d.exchanges.length = c.exchanges.length)
      (fun d h => (length_exchanges_answerNext _ d).trans h) _ rfl

/-- The timeout stays, and only bytes that arrive move the reader. -/
theorem outside_reading (c : Connection Listener) (e : Event Listener) :
    (c.outside e).timeout = c.timeout ∧
      ((∃ piece, e = .deliver piece) ∨ e.piece = [] ∧ (c.outside e).reader = c.reader) := by
  -- beside bytes that arrive, only a request and the end of a connection show outside at all
  cases e with
  | deliver piece => exact ⟨rfl, .inl ⟨piece, rfl⟩⟩
  | submit name args l =>
    rw [outside]
    split
    · exact ⟨rfl, .inr ⟨rfl, rfl⟩⟩
    · next data _ =>
      rw [emit_frame]
      exact ⟨rfl, .inr ⟨rfl, rfl⟩⟩
  | leaveBuffer =>
    rw [outside, leaveBuffer_frame]
    exact ⟨rfl, .inr ⟨rfl, rfl⟩⟩
  | close =>
    rw [outside, close_frame]
    exact ⟨rfl, .inr ⟨rfl, rfl⟩⟩
  | giveUp | abandon | expire | follow | enterBuffer | drop => exact ⟨rfl, .inr ⟨rfl, rfl⟩⟩

/-- The timeout of a connection stays. -/
theorem timeout_run (c : Connection Listener) (es : List (Event Listener)) :
    (c.run es).timeout = c.timeout := by
  induction es generalizing c with
  | nil => rfl
  | cons e es ih =>
    rw [run_cons, ih, (step_outside c e).timeout_eq]
    exact (outside_reading c e).1

/-- A transport that was lost does not come back. -/
theorem attached_of_step {c : Connection Listener} {e : Event Listener}
    (h : (c.step e).attached = true) : c.attached = true := by
  rw [(step_outside c e).attached_eq] at h
  cases e with
  | submit name args l =>
    rw [outside] at h
    split at h
    · exact h
    · next data _ => rwa [emit_frame] at h
  | leaveBuffer => rwa [outside, leaveBuffer_frame] at h
  | close => rwa [outside, close_frame] at h
  | drop x => cases h
  | giveUp | abandon | expire | deliver | follow | enterBuffer => exact h

end Connection

/-! ## What is read -/

/-- The reader is where the stream of the server brings it, however it was cut. -/
theorem reader_run (address : Value × Value) (timeout : Timeout) (es : List (Event Listener)) :
    ((Connection.start address timeout : Connection Listener).run es).reader =
      (Reader.start.feed (received es)).2 := by
  induction es using List.reverseRec with
  | nil =>
    rw [received_nil, Reader.feed_start_nil]
    rfl
  | append_singleton es e ih =>
    rw [Connection.run_append, received_append]
    refine (Connection.step_outside _ e).reader_eq.trans ?_
    rcases (Connection.outside_reading _ e).2 with ⟨piece, rfl⟩ | ⟨hp, hr⟩
    · -- reading piece by piece comes to the same as reading all at once
      rw [Connection.outside, ih, Reader.feed_append, received_singleton, Event.piece]
    · rw [hr, ih, received_singleton, hp, List.append_nil]

/-- The replies that a piece completes come after those of the stream before it. -/
theorem replies_snoc_deliver (address : Value × Value) (timeout : Timeout)
    (es : List (Event Listener)) (piece : Bytes) :
    replies (es ++ [.deliver piece]) =
      replies es ++ (((Connection.start address timeout : Connection Listener).run
        es).reader.feed piece).1 := by
  rw [replies, received_append, received_singleton, Event.piece, Reader.feed_append, reader_run]
  rfl

/-- Without bytes there are no new replies. -/
theorem replies_snoc_of_piece (es : List (Event Listener)) {e : Event Listener}
    (h : e.piece = []) : replies (es ++ [e]) = replies es := by
  rw [replies, received_append, received_singleton, h, List.append_nil, replies]

/-! ## What is written -/

/-- A run has one exchange for each command that was handed over. -/
theorem length_requests (address : Value × Value) (timeout : Timeout)
    (es : List (Event Listener)) :
    (requests (.start address timeout) es).length =
      ((Connection.start address timeout : Connection Listener).run es).exchanges.length := by
  induction es using List.reverseRec with
  | nil => rfl
  | append_singleton es e ih =>
    rw [requests_snoc, List.length_append, ih, Connection.run_append]
    refine Eq.trans ?_ (Connection.step_outside _ e).length_eq.symm
    -- only a command that is handed over, and not refused, makes a new exchange
    cases e with
    | submit name args l =>
      rw [Connection.outside, Event.request?]
      split
      · next hd => rw [hd]; rfl
      · next data hd =>
        rw [hd, Connection.length_exchanges_enlist, Connection.emit_frame]
        rfl
    | leaveBuffer => rw [Connection.outside, Connection.leaveBuffer_frame]; rfl
    | close => rw [Connection.outside, Connection.close_frame]; rfl
    | giveUp | abandon | expire | deliver | follow | enterBuffer | drop => rfl

namespace Connection

/-- All bytes of commands so far, those that are gathered behind those that were written. -/
def sentBytes (c : Connection Listener) : Bytes :=
  c.writes.flatten ++ c.buffer.getD []

theorem SameOutside.sentBytes_eq {c d : Connection Listener} (s : SameOutside c d) :
    d.sentBytes = c.sentBytes := by
  rw [sentBytes, sentBytes, s.writes_eq, s.buffer_eq]

theorem SameOutside.isClosed_eq {c d : Connection Listener} (s : SameOutside c d) :
    d.isClosed = c.isClosed := by
  rw [isClosed, isClosed, s.closing_eq, s.attached_eq]

theorem sentBytes_emit (data : Bytes) (c : Connection Listener) :
    (c.emit data).sentBytes = c.sentBytes ++ data := by
  unfold emit sentBytes
  cases hb : c.buffer <;> simp

/-- Bytes that were gathered are written as they are. -/
theorem sentBytes_leaveBuffer {c : Connection Listener} (h : c.isClosed = false) :
    c.leaveBuffer.sentBytes = c.sentBytes := by
  unfold leaveBuffer sentBytes
  have hc : ({ c with buffer := none } : Connection Listener).isClosed = false := h
  by_cases hg : c.buffer.getD [] = []
  · simp [hg]
  · simp [hg, hc]

/-- Nothing is written any more once the connection is closed. -/
theorem writes_leaveBuffer {c : Connection Listener} (h : c.isClosed = true) :
    c.leaveBuffer.writes = c.writes := by
  have hc : ({ c with buffer := none } : Connection Listener).isClosed = true := h
  simp [leaveBuffer, hc]

section Outside

variable {c : Connection Listener} {e : Event Listener}

/-- An event that neither writes nor closes. -/
theorem sentBytes_outside_of_same (hw : (c.outside e).writes = c.writes)
    (hs : (c.outside e).sentBytes = c.sentBytes) (hc : (c.outside e).isClosed = c.isClosed)
    (hr : e.request? c = none) :
    (c.outside e).isClosed = true ∧ (c.outside e).writes = c.writes ∧ e.request? c = none ∨
      c.isClosed = false ∧
        (c.outside e).sentBytes = c.sentBytes ++ (e.request? c).toList.flatten := by
  cases hcl : c.isClosed with
  | true => exact .inl ⟨hc.trans hcl, hw, hr⟩
  | false =>
    refine .inr ⟨rfl, ?_⟩
    rw [hs, hr]
    exact (List.append_nil _).symm

/-- An event adds its command to the bytes of an open connection, or leaves a closed one that has
written what it had written before. -/
theorem sentBytes_outside (hb : e = .enterBuffer → c.buffer = none) :
    (c.outside e).isClosed = true ∧ (c.outside e).writes = c.writes ∧ e.request? c = none ∨
      c.isClosed = false ∧
        (c.outside e).sentBytes = c.sentBytes ++ (e.request? c).toList.flatten := by
  cases e with
  | submit name args l =>
    cases hd : c.requestOf name args with
    | error x =>
      -- a command that is refused writes nothing
      have ho : c.outside (.submit name args l) = c := by simp only [outside, hd]
      refine sentBytes_outside_of_same ?_ ?_ ?_ (by simp only [Event.request?, hd]; rfl)
      all_goals rw [ho]
    | ok data =>
      -- a command that is sent was sent over an open connection
      refine .inr ⟨isClosed_of_requestOf hd, ?_⟩
      simp only [outside, Event.request?, hd, Except.toOption, Option.toList_some,
        List.flatten_singleton]
      exact sentBytes_emit data c
  | leaveBuffer =>
    -- what was gathered is lost if the connection was closed meanwhile
    cases hc : c.isClosed with
    | true =>
      refine .inl ⟨?_, writes_leaveBuffer hc, rfl⟩
      rw [outside, leaveBuffer_frame]
      exact hc
    | false => exact .inr ⟨rfl, (sentBytes_leaveBuffer hc).trans (List.append_nil _).symm⟩
  | enterBuffer =>
    -- nothing was gathered before, so nothing is lost
    refine sentBytes_outside_of_same rfl ?_ rfl rfl
    rw [outside, sentBytes, sentBytes, hb rfl]
    rfl
  | close =>
    refine .inl ⟨?_, ?_, rfl⟩ <;> rw [outside, close_frame]
    rfl
  | drop x => exact .inl ⟨Bool.or_true _, rfl, rfl⟩
  | giveUp | abandon | expire | deliver | follow => exact sentBytes_outside_of_same rfl rfl rfl rfl

end Outside

end Connection

/-- What was written of the commands of a run: as long as more can be sent, all of them but those
that are gathered, and else the first bytes of them. -/
structure OnWire (c₀ : Connection Listener) (es : List (Event Listener)) : Prop where
  all : (c₀.run es).isClosed = false → (c₀.run es).sentBytes = (requests c₀ es).flatten
  first : (c₀.run es).writes.flatten <+: (requests c₀ es).flatten

/-- A run in which blocks of gathered commands lie apart writes its commands in order. -/
theorem onWire_run (address : Value × Value) (timeout : Timeout) {es : List (Event Listener)}
    (h : Orderly (.start address timeout) es) : OnWire (.start address timeout) es := by
  induction es using List.reverseRec with
  | nil => exact ⟨fun _ => rfl, List.prefix_refl _⟩
  | append_singleton es e ih =>
    obtain ⟨ho, hp⟩ := orderly_snoc.1 h
    obtain ⟨hall, hfirst⟩ := ih ho
    set c := (Connection.start address timeout).run es with hc
    have hs := Connection.step_outside c e
    have hb : e = .enterBuffer → c.buffer = none := by
      rintro rfl
      exact hp
    have hrun : (Connection.start address timeout).run (es ++ [e]) = c.step e := by
      rw [Connection.run_append, ← hc]
      rfl
    rcases Connection.sentBytes_outside hb with ⟨hcl, hw, hr⟩ | ⟨hcl, hsent⟩
    · -- closed: nothing more is written, and there are no more commands
      refine ⟨fun hn => ?_, ?_⟩
      · rw [hrun, hs.isClosed_eq, hcl] at hn
        cases hn
      · rw [hrun, hs.writes_eq, hw, requests_snoc, ← hc, hr]
        simpa using hfirst
    · -- open until now: all bytes are there, those that are gathered at the end
      have heq : (c.step e).sentBytes =
          (requests (.start address timeout) (es ++ [e])).flatten := by
        rw [hs.sentBytes_eq, hsent, hall hcl, requests_snoc, ← hc, List.flatten_append]
      refine ⟨fun _ => hrun ▸ heq, ?_⟩
      rw [hrun, ← heq]
      exact List.prefix_append _ _

end SortedSets

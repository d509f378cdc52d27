import SortedSets.Proofs.Session.Blocks

/-!
# Sessions over a closed connection

Once the client has closed its connection, or the transport was lost, whatever the client does
sends nothing: no method, no command of any name, no batch and no step of a cursor. A transport
that closes because of a fault of the server does not stop the client.

## Main definitions

* `Session.Silent`: nothing is sent any more, whatever happens
* `Act.ends`: the client closes the connection, or the transport is lost

## Main results

* `Session.silent_iff`: a session is silent if its connection is closed, and only then
* `Session.silence_of_closed`: what ends a connection, and what makes it silent
-/

namespace SortedSets

open Wire (Reader)

/-- The client closes the connection, or the transport is lost. -/
def Act.ends : Act → Bool
  | .close | .lose _ => true
  | _ => false

namespace Session

/-- Nothing is sent over the connection of a session any more, whatever happens: the connection says
that it is closed, and a command of any name is refused and changes nothing. -/
structure Silent (s : Session) (c : Connection Listener) : Prop where
  unsent : ∀ acts, ∃ d, (s.after acts).connection = some d ∧ d.isClosed = true ∧ c.Unsent d
  refused : ∀ acts (name : Value) (args : List Value),
    name.text?.isSome = true ∨ name.bytes?.isSome = true →
      (s.after acts).execute name args = (s.after acts, .error (.closed .before))

variable {address : Value × Value} {timeout : Timeout} {before : List Act}
  {c : Connection Listener}

/-- A command of any name is refused by a closed connection and changes nothing. -/
theorem execute_of_isClosed
    (hc : ((connected address timeout).after before).connection = some c)
    (h : c.isClosed = true) {name : Value}
    (hn : name.text?.isSome = true ∨ name.bytes?.isSome = true) (args : List Value) :
    ((connected address timeout).after before).execute name args =
      ((connected address timeout).after before, .error (.closed .before)) := by
  obtain ⟨owners, hs⟩ := exists_owners address timeout before
  have hr : c.requestOf name args = .error (.closed .before) :=
    Connection.requestOf_of_isClosed hn h args
  simp only [execute, sendFor, send_of_error hc (hs.due hc) hr]
  rfl

/-- A session is silent if its connection is closed, and only then. -/
theorem silent_iff (hc : ((connected address timeout).after before).connection = some c) :
    ((connected address timeout).after before).Silent c ↔ c.isClosed = true := by
  constructor
  · intro h
    obtain ⟨d, hd, hclosed, -⟩ := h.unsent []
    obtain rfl := Option.some.inj (hc.symm.trans hd)
    exact hclosed
  · intro h
    -- what comes later is a run of the connection
    have hlater (acts : List Act) : ∃ es : List (Event Listener),
        ((connected address timeout).after (before ++ acts)).connection = some (c.run es) ∧
          (c.run es).isClosed = true := by
      obtain ⟨es, hes⟩ := exists_run_after hc acts
      exact ⟨es, hes, (Connection.isClosed_run_iff es).2 (.inl h)⟩
    constructor
    · intro acts
      obtain ⟨es, hes, hclosed⟩ := hlater acts
      exact ⟨c.run es, after_append _ before acts ▸ hes, hclosed, Connection.unsent_run h es⟩
    · intro acts name args hn
      obtain ⟨es, hes, hclosed⟩ := hlater acts
      rw [← after_append]
      exact execute_of_isClosed hes hclosed hn args

/-- The connection is closed after the client has closed it, or the transport was lost. -/
theorem isClosed_of_ends (hc : ((connected address timeout).after before).connection = some c)
    (h : ∃ a ∈ before, a.ends = true) : c.isClosed = true := by
  obtain ⟨a, ha, hends⟩ := h
  obtain ⟨pre, post, rfl⟩ := List.append_of_mem ha
  obtain ⟨es, htraced⟩ := exists_traced address timeout pre
  obtain ⟨es', htraced'⟩ := exists_traced address timeout (pre ++ [a])
  have hend : a = .close ∨ ∃ e, a = .lose e := by
    cases a with
    | close => exact .inl rfl
    | lose e => exact .inr ⟨e, rfl⟩
    | _ => cases hends
  have hnow := isClosed_of_end hend htraced.connection
    (by rw [← htraced'.connection, after_append]; rfl)
  -- and it stays so until the end of the run
  obtain ⟨fs, hfs⟩ := exists_run_after htraced'.connection post
  rw [List.append_assoc, List.singleton_append, hc] at hfs
  obtain rfl := Option.some.inj hfs
  exact (Connection.isClosed_run_iff fs).2 (.inl hnow)

/-- What ends a connection, and what makes it silent. The transport ends because the client closes
the connection, because it is lost, or because the stream of the server breaks the rules. The
connection, and the session with it, is silent from the first two on; a stream that breaks the rules
does not make it silent. -/
theorem silence_of_closed (address : Value × Value) (timeout : Timeout) :
    (∀ es : List (Event Listener), ((Connection.start address timeout).run es).EndsBy
      (∃ x ∈ es, x.ends = true) ((Reader.start.feed (received es)).2.fault.isSome = true)) ∧
    ∀ acts : List Act, ∃ c, ((connected address timeout).after acts).connection = some c ∧
      c.EndsBy (c.isClosed = true)
        ((Reader.start.feed (acts.flatMap Act.piece)).2.fault.isSome = true) ∧
      (((connected address timeout).after acts).Silent c ↔ c.isClosed = true) ∧
      ((∃ a ∈ acts, a.ends = true) → c.isClosed = true) := by
  constructor
  · intro es
    -- a connection starts open, so an event has closed it
    have hends : (∃ x ∈ es, x.ends = true) ↔
        ((Connection.start address timeout : Connection Listener).run es).isClosed = true := by
      rw [Connection.isClosed_run_iff]
      simp [Connection.start, Connection.isClosed]
    rw [hends]
    exact Connection.endsBy_run address timeout es
  · intro acts
    obtain ⟨es, h⟩ := exists_traced address timeout acts
    refine ⟨_, h.connection, ?_, silent_iff h.connection, isClosed_of_ends h.connection⟩
    -- the bytes of the acts are those of the events that they were for the connection
    rw [← h.received_eq]
    exact Connection.endsBy_run address timeout es

/-- A reply of an unknown type arrives. -/
def faulty : List (Event Listener) := [.deliver (Bytes.ascii "?\r\n")]

/-- The transport was told to close, and a command is written all the same. -/
theorem not_silent_after_fault :
    let c := (Connection.start (.none, .none) .none).run faulty
    c.closes = 1 ∧ c.TransportEnds ∧ ¬ c.Silent ∧
      (c.submit (.text (.ofString "PING")) [] (.direct 0)).connection.writes =
        [Bytes.ascii "*1\r\n$4\r\nPING\r\n"] := by
  have hcloses : ((Connection.start (.none, .none) .none).run faulty).closes = 1 := by
    decide +kernel
  refine ⟨hcloses, .inl (hcloses ▸ Nat.one_pos), fun h => ?_, by decide +kernel⟩
  have hopen : ((Connection.start (.none, .none) .none).run faulty).isClosed = false := by
    decide +kernel
  cases hopen.symm.trans (h.closed [])

end Session

end SortedSets

import SortedSets.Connection.Basic

/-!
# Runs of a connection

A run is a list of events in the order in which they happen: commands are handed over, bytes
arrive, callers give up, and what is due follows at any later time. A run fixes the bytes of all
commands, the bytes of all pieces, and who gave up which command.

## Main definitions

* `Event`, `Connection.step`, `Connection.run`: what can happen, and what it does
* `requests`, `received`, `replies`: the commands of a run, its stream, and the replies of the
  stream
* `GivenUp`: a command that its caller gave up in a run
* `Orderly`: the server answers no more commands than there were, and blocks of gathered commands
  lie apart
-/

namespace SortedSets

open Wire (Reply Reader)

/-- What can happen to a connection. -/
inductive Event (Listener : Type) where
  | submit (name : Value) (args : List Value) (listener : Listener)
  | giveUp (t : Ticket)
  | abandon (t : Ticket)
  | expire (t : Ticket)
  | deliver (piece : Bytes)
  /-- The oldest of what is due happens. -/
  | follow
  | enterBuffer
  | leaveBuffer
  | close
  | drop (e : Option Error)

variable {Listener : Type}

namespace Connection

/-- What an event does to a connection. -/
def step (c : Connection Listener) : Event Listener → Connection Listener
  | .submit name args l => (c.submit name args l).connection
  | .giveUp t => (c.giveUp t).1
  | .abandon t => (c.abandon t).1
  | .expire t => (c.expire t).1
  | .deliver piece => c.deliver piece
  | .follow => c.followNext.1
  | .enterBuffer => c.enterBuffer
  | .leaveBuffer => c.leaveBuffer
  | .close => c.close
  | .drop e => c.drop e

/-- What the events of a run do to a connection. -/
def run (c : Connection Listener) (es : List (Event Listener)) : Connection Listener :=
  es.foldl step c

@[simp] theorem run_nil (c : Connection Listener) : c.run [] = c := rfl

@[simp] theorem run_cons (c : Connection Listener) (e : Event Listener)
    (es : List (Event Listener)) : c.run (e :: es) = (c.step e).run es := rfl

@[simp] theorem run_append (c : Connection Listener) (es fs : List (Event Listener)) :
    c.run (es ++ fs) = (c.run es).run fs := List.foldl_append

end Connection

/-! ## What a run sends and receives -/

/-- The bytes of the command that an event hands over, unless the command is refused. -/
def Event.request? (c : Connection Listener) : Event Listener → Option Bytes
  | .submit name args _ => (c.requestOf name args).toOption
  | _ => none

/-- The piece of the stream that arrives in an event. -/
def Event.piece : Event Listener → Bytes
  | .deliver piece => piece
  | _ => []

/-- The commands of a run as bytes, in the order in which they were handed over. -/
def requests (c : Connection Listener) : List (Event Listener) → List Bytes
  | [] => []
  | e :: es => (e.request? c).toList ++ requests (c.step e) es

theorem requests_append (c : Connection Listener) (es fs : List (Event Listener)) :
    requests c (es ++ fs) = requests c es ++ requests (c.run es) fs := by
  induction es generalizing c with
  | nil => rfl
  | cons e es ih => simp [requests, ih]

theorem requests_snoc (c : Connection Listener) (es : List (Event Listener))
    (e : Event Listener) :
    requests c (es ++ [e]) = requests c es ++ (e.request? (c.run es)).toList := by
  simp [requests_append, requests]

/-- The stream of a run: all its pieces. -/
def received (es : List (Event Listener)) : Bytes :=
  es.flatMap Event.piece

@[simp] theorem received_nil : received ([] : List (Event Listener)) = [] := rfl

@[simp] theorem received_append (es fs : List (Event Listener)) :
    received (es ++ fs) = received es ++ received fs := List.flatMap_append

theorem received_singleton (e : Event Listener) : received [e] = e.piece :=
  List.flatMap_singleton ..

/-- The complete replies of the stream of a run, in order. -/
def replies (es : List (Event Listener)) : List Reply :=
  (Reader.start.feed (received es)).1

@[simp] theorem replies_nil : replies ([] : List (Event Listener)) = [] := by
  rw [replies, received_nil, Reader.feed_start_nil]

/-! ## Who gave up -/

/-- The error that ends every command of a connection as soon as it was sent, if its timeout is
such. -/
def Timeout.atOnce? : Timeout → Option Error
  | .expired => some .timedOut
  | .invalid e => some e
  | .none | .ahead => Option.none

/-- By an event the caller of a command gives it up with an outcome of its own. -/
def Event.GivesUp (c : Connection Listener) (t : Ticket) (o : Outcome) :
    Event Listener → Prop
  | .giveUp s | .abandon s => s = t ∧ t < c.exchanges.length ∧ o = .cancelled
  | .expire s => s = t ∧ t < c.exchanges.length ∧ o = .failed .timedOut
  | .submit name args l =>
    (c.submit name args l).ticket = .ok t ∧ ∃ e, c.timeout.atOnce? = some e ∧ o = .failed e
  | _ => False

/-- Some event of a run gives a command up. -/
def GivenUp (c : Connection Listener) (es : List (Event Listener)) (t : Ticket) (o : Outcome) :
    Prop :=
  ∃ pre e, pre ++ [e] <+: es ∧ e.GivesUp (c.run pre) t o

/-- What was given up in a longer run was given up before, or by the last event. -/
theorem givenUp_snoc {c : Connection Listener} {es : List (Event Listener)} {e : Event Listener}
    {t : Ticket} {o : Outcome} :
    GivenUp c (es ++ [e]) t o ↔ GivenUp c es t o ∨ e.GivesUp (c.run es) t o := by
  constructor
  · rintro ⟨pre, e', h, hg⟩
    -- the event that gives the command up is the last one, or one of those before
    rcases List.prefix_concat_iff.1 h with h | h
    · obtain ⟨rfl, he⟩ := List.append_inj' h rfl
      obtain rfl := List.singleton_inj.1 he
      exact .inr hg
    · exact .inl ⟨pre, e', h, hg⟩
  · rintro (⟨pre, e', h, hg⟩ | hg)
    · exact ⟨pre, e', h.trans (List.prefix_append es [e]), hg⟩
    · exact ⟨es, e, List.prefix_refl _, hg⟩

/-! ## Orderly runs -/

/-- What may come after a run: the server answers no more commands than were handed over, each
once, while the transport is there, and a block of gathered commands begins only outside of
another. That the server answers a command only after it was written is more than is needed. -/
def Event.Permitted (c : Connection Listener) (es : List (Event Listener)) :
    Event Listener → Prop
  | .deliver piece =>
    (c.run es).attached = true ∧
      (replies (es ++ [.deliver piece])).length ≤ (requests c es).length
  | .enterBuffer => (c.run es).buffer = none
  | _ => True

/-- A run in which the server answers no more commands than there were, and blocks of gathered
commands lie apart. -/
def Orderly (c : Connection Listener) (es : List (Event Listener)) : Prop :=
  ∀ pre e, pre ++ [e] <+: es → e.Permitted c pre

theorem orderly_snoc {c : Connection Listener} {es : List (Event Listener)}
    {e : Event Listener} : Orderly c (es ++ [e]) ↔ Orderly c es ∧ e.Permitted c es := by
  constructor
  · intro h
    exact ⟨fun pre e' hp => h pre e' (hp.trans (List.prefix_append es [e])),
      h es e (List.prefix_refl _)⟩
  · rintro ⟨h, he⟩ pre e' hp
    rcases List.prefix_concat_iff.1 hp with hp | hp
    · obtain ⟨rfl, he'⟩ := List.append_inj' hp rfl
      obtain rfl := List.singleton_inj.1 he'
      exact he
    · exact h pre e' hp

instance (c : Connection Listener) (es : List (Event Listener)) (e : Event Listener) :
    Decidable (e.Permitted c es) :=
  match e with
  | .deliver _ => inferInstanceAs (Decidable (_ ∧ _))
  | .enterBuffer => inferInstanceAs (Decidable (_ = _))
  | .submit .. | .giveUp _ | .abandon _ | .expire _ | .follow | .leaveBuffer | .close | .drop _ =>
    .isTrue trivial

/-- Each event of an orderly run is permitted after those in front of it. -/
theorem orderly_iff_getElem {c : Connection Listener} {es : List (Event Listener)} :
    Orderly c es ↔ ∀ (n : Nat) (h : n < es.length), es[n].Permitted c (es.take n) := by
  constructor
  · intro h n hn
    refine h _ _ ?_
    rw [← List.take_succ_eq_append_getElem hn]
    exact List.take_prefix _ es
  · rintro h pre e ⟨post, rfl⟩
    have hp := h pre.length (by simp)
    simpa using hp

instance (c : Connection Listener) (es : List (Event Listener)) : Decidable (Orderly c es) :=
  decidable_of_iff' _ orderly_iff_getElem

end SortedSets

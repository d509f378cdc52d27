import SortedSets.Proofs.Connection.Enrolment
import SortedSets.Proofs.Connection.Notices

/-!
# Commands sent in a row

Commands that are sent one after the other, with nothing in between but what follows from them at
once. Whether a command can be sent does not depend on those in front of it, so that the bytes, the
roles and the listeners of the whole row can be read off the commands.

## Main definitions

* `Dispatch`, `Connection.executeAll`: commands sent one after the other
* `Event.sends`: the events of which sending is made

## Main results

* `Connection.executeAll_run`: the run that sends the commands
* `Connection.gathered_run`: the bytes of commands that are gathered
* `Connection.listener?_executeAll`: who listens to the commands
-/

namespace SortedSets

variable {Listener : Type}

/-- A command to be sent, for somebody who listens. -/
structure Dispatch (Listener : Type) where
  name : Value
  args : List Value
  listener : Listener

/-- The command handed over. -/
def Dispatch.event (d : Dispatch Listener) : Event Listener :=
  .submit d.name d.args d.listener

/-- The events of which sending is made: a command is handed over, or what is due happens. -/
def Event.sends : Event Listener → Bool
  | .submit .. | .follow => true
  | _ => false

/-- What the client brings about on its own: commands, bytes written or gathered, the end. -/
def Event.isOwn : Event Listener → Bool
  | .submit .. | .follow | .enterBuffer | .leaveBuffer | .close => true
  | _ => false

theorem Event.isOwn_of_sends {e : Event Listener} (h : e.sends = true) : e.isOwn = true := by
  cases e <;> first | rfl | cases h

namespace Connection

/-- Commands sent one after the other, each with all that follows at once. -/
def executeAll (c : Connection Listener) (ds : List (Dispatch Listener)) : Connection Listener :=
  ds.foldl (fun c d => (c.execute d.name d.args d.listener).connection) c

variable {c d : Connection Listener} {es : List (Event Listener)}

/-- Who listens to a command stays. -/
theorem listener?_run {t : Ticket} {l : Listener} (h : c.listener? t = some l)
    (es : List (Event Listener)) : (c.run es).listener? t = some l := by
  refine Kept.run (P := fun c => c.listener? t = some l) ⟨?_, ?_, ?_, ?_⟩ es h
  · intro c d hc he
    rwa [listener?, he]
  · intro c s o hc
    rwa [listener?_settle]
  · intro c s o hc
    rwa [listener?_answer]
  · intro c role k hc
    have hlt : t < c.exchanges.length := by
      obtain ⟨x, hx, -⟩ := Option.bind_eq_some_iff.1 hc
      exact (List.getElem?_eq_some_iff.1 hx).1
    rwa [listener?, enlist, List.getElem?_append_left hlt]

/-- Whether a command can be sent depends on whether the connection is closed only. -/
theorem requestOf_congr (h : d.isClosed = c.isClosed) (name : Value) (args : List Value) :
    d.requestOf name args = c.requestOf name args := by
  simp only [requestOf, h]

/-! ## Runs that send -/

/-- What shows outside of events by which commands are sent. -/
theorem outside_of_sends {e : Event Listener} (he : e.sends = true) (c : Connection Listener) :
    (c.outside e).closing = c.closing ∧ (c.outside e).attached = c.attached ∧
      ∀ g, c.buffer = some g → (c.outside e).writes = c.writes ∧
        (c.outside e).buffer = some (g ++ (e.request? c).toList.flatten) := by
  cases e with
  | submit name args l =>
    simp only [outside, Event.request?]
    split
    · next hd =>
      rw [hd]
      exact ⟨rfl, rfl, fun g hg => ⟨rfl, hg.trans (congrArg some (List.append_nil g).symm)⟩⟩
    · next data hd =>
      rw [hd, enlist]
      refine ⟨by rw [emit_frame], by rw [emit_frame], fun g hg => ?_⟩
      simp [emit, hg, Except.toOption]
  | follow => exact ⟨rfl, rfl, fun g hg => ⟨rfl, by simp [outside, Event.request?, hg]⟩⟩
  | giveUp | abandon | expire | deliver | enterBuffer | leaveBuffer | close | drop => cases he

/-- Sending closes nothing. -/
theorem open_run (hs : ∀ e ∈ es, e.sends = true) :
    (c.run es).closing = c.closing ∧ (c.run es).attached = c.attached := by
  induction es generalizing c with
  | nil => exact ⟨rfl, rfl⟩
  | cons e es ih =>
    obtain ⟨h₁, h₂⟩ := ih (c := c.step e) fun f hf => hs f (List.mem_cons_of_mem e hf)
    obtain ⟨h₃, h₄, -⟩ := outside_of_sends (hs e List.mem_cons_self) c
    have ho := step_outside c e
    exact ⟨h₁.trans (ho.closing_eq.trans h₃), h₂.trans (ho.attached_eq.trans h₄)⟩

theorem isClosed_run (hs : ∀ e ∈ es, e.sends = true) : (c.run es).isClosed = c.isClosed := by
  rw [isClosed, isClosed, (open_run hs).1, (open_run hs).2]

/-- Commands that are gathered: nothing is written, and their bytes are gathered in order. -/
theorem gathered_run (hs : ∀ e ∈ es, e.sends = true) {g : Bytes} (hg : c.buffer = some g) :
    (c.run es).writes = c.writes ∧
      (c.run es).buffer = some (g ++ (requests c es).flatten) := by
  induction es generalizing c g with
  | nil => exact ⟨rfl, by simpa [requests] using hg⟩
  | cons e es ih =>
    obtain ⟨-, -, hout⟩ := outside_of_sends (hs e List.mem_cons_self) c
    obtain ⟨hw, hb⟩ := hout g hg
    have ho := step_outside c e
    obtain ⟨hw', hb'⟩ := ih (fun f hf => hs f (List.mem_cons_of_mem e hf))
      (ho.buffer_eq.trans hb)
    refine ⟨hw'.trans (ho.writes_eq.trans hw), ?_⟩
    rw [run_cons, hb', requests, List.flatten_append, List.append_assoc]

/-- What is due is no command. -/
theorem requests_follow (n : Nat) (c : Connection Listener) :
    requests c (List.replicate n .follow) = [] ∧ verbs c (List.replicate n .follow) = [] := by
  induction n generalizing c with
  | zero => exact ⟨rfl, rfl⟩
  | succ n ih =>
    simp only [List.replicate_succ, requests, verbs, (ih (c.step .follow)).1, (ih (c.step .follow)).2]
    exact ⟨rfl, rfl⟩

/-- A command sent with all that follows, as a run. -/
theorem execute_run (name : Value) (args : List Value) (l : Listener) (c : Connection Listener) :
    ∃ n, (c.execute name args l).connection =
      c.run (.submit name args l :: List.replicate n .follow) := by
  refine ⟨(c.submit name args l).connection.due.length, ?_⟩
  rw [run_cons, ← followMany_eq_run]
  rfl

theorem sends_execute {name : Value} {args : List Value} {l : Listener} {n : Nat}
    {e : Event Listener} (he : e ∈ Event.submit name args l :: List.replicate n .follow) :
    e.sends = true := by
  rcases List.mem_cons.1 he with rfl | he
  · rfl
  · rw [List.eq_of_mem_replicate he]
    rfl

theorem isClosed_execute (name : Value) (args : List Value) (l : Listener)
    (c : Connection Listener) : (c.execute name args l).connection.isClosed = c.isClosed := by
  obtain ⟨n, hn⟩ := execute_run name args l c
  rw [hn]
  exact isClosed_run fun e he => sends_execute he

/-- The run that sends commands one after the other, with their bytes and their verbs. -/
theorem executeAll_run (c : Connection Listener) (ds : List (Dispatch Listener)) :
    ∃ es, (∀ e ∈ es, e.sends = true) ∧ c.executeAll ds = c.run es ∧
      requests c es = ds.flatMap (fun d => (d.event.request? c).toList) ∧
      verbs c es = ds.flatMap fun d => (d.event.verb? c).toList := by
  induction ds generalizing c with
  | nil => exact ⟨[], by simp, rfl, rfl, rfl⟩
  | cons d ds ih =>
    obtain ⟨n, hn⟩ := execute_run d.name d.args d.listener c
    obtain ⟨es, hes, hall, hreq, hverb⟩ := ih (c.execute d.name d.args d.listener).connection
    -- sending closes nothing, so that the later requests can be read off the state before the first
    have hclosed := isClosed_execute d.name d.args d.listener c
    have hsame := requestOf_congr hclosed
    have hsplit (fs : List (Event Listener)) : d.event :: List.replicate n .follow ++ fs =
      [d.event] ++ (List.replicate n .follow ++ fs) := rfl
    refine ⟨d.event :: List.replicate n .follow ++ es, fun e he => ?_, ?_, ?_, ?_⟩
    · rcases List.mem_append.1 he with he | he
      · exact sends_execute he
      · exact hes e he
    · rw [run_append]
      exact hall.trans (congrArg (run · es) hn)
    · rw [hsplit, requests_append, requests_append, (requests_follow n _).1, List.nil_append,
        List.flatMap_cons]
      refine congrArg₂ (· ++ ·) (List.append_nil _) ?_
      rw [← run_append]
      refine (congrArg (requests · es) hn.symm).trans (hreq.trans ?_)
      simp only [Dispatch.event, Event.request?, hsame]
    · rw [hsplit, verbs_append, verbs_append, (requests_follow n _).2, List.nil_append,
        List.flatMap_cons]
      refine congrArg₂ (· ++ ·) (List.append_nil _) ?_
      rw [← run_append]
      refine (congrArg (verbs · es) hn.symm).trans (hverb.trans ?_)
      simp only [Dispatch.event, Event.verb?, hsame]

/-- A run has one more exchange for each of its verbs. -/
theorem length_verbs (c : Connection Listener) (es : List (Event Listener)) :
    (c.run es).exchanges.length = c.exchanges.length + (verbs c es).length := by
  induction es generalizing c with
  | nil => rfl
  | cons e es ih =>
    -- a command that is sent is the only event with a verb, and the only one with a new exchange
    have hstep : (c.step e).exchanges.length = c.exchanges.length + (e.verb? c).toList.length := by
      rw [(step_outside c e).length_eq]
      cases e with
      | submit name args l =>
        simp only [outside, Event.verb?]
        split
        · next hd =>
          rw [hd]
          rfl
        · next data hd =>
          rw [hd, enlist, emit_frame]
          exact List.length_append
      | leaveBuffer =>
        rw [outside, leaveBuffer_frame]
        rfl
      | close =>
        rw [outside, close_frame]
        rfl
      | giveUp | abandon | expire | deliver | follow | enterBuffer | drop => rfl
    rw [run_cons, ih, hstep, verbs, List.length_append, Nat.add_assoc]

theorem attached_of_run (h : (c.run es).attached = true) : c.attached = true := by
  induction es generalizing c with
  | nil => exact h
  | cons e es ih => exact attached_of_step (ih h)

/-- The roles and the open transaction after more commands. -/
theorem enrolment_run {address : Value × Value} {timeout : Timeout} {es₀ : List (Event Listener)}
    (hc : c = (start address timeout).run es₀) (es : List (Event Listener))
    (hl : (c.run es).attached = true) :
    ((c.run es).roles, (c.run es).transaction) = enrolAll (c.roles, c.transaction) (verbs c es) := by
  have hl₀ := attached_of_run hl
  subst hc
  have hall := roles_run address timeout (es₀ ++ es) (by rwa [run_append])
  rw [run_append, verbs_append, enrolAll_append, ← roles_run address timeout es₀ hl₀] at hall
  exact hall

/-! ## A row of commands that can be sent -/

/-- A command that is handed over and sent. -/
structure Sendable (c : Connection Listener) (x : Dispatch Listener) : Prop where
  request : ∃ data, c.requestOf x.name x.args = .ok data
  verb : ∃ v, Verb.ofWord x.name = .ok v

theorem Sendable.congr {x : Dispatch Listener} (h : Sendable c x) (hd : d.isClosed = c.isClosed) :
    Sendable d x :=
  ⟨by rw [requestOf_congr hd]; exact h.request, h.verb⟩

/-- A command that can be sent has the next ticket. -/
theorem ticket_execute {x : Dispatch Listener} (h : Sendable c x) :
    (c.execute x.name x.args x.listener).ticket = .ok c.exchanges.length := by
  obtain ⟨data, hdata⟩ := h.request
  obtain ⟨v, hv⟩ := h.verb
  rcases submit_cases x.name x.args x.listener c with ⟨e, hd, -, -⟩ | ⟨data, e, -, hw, -, -⟩ |
    ⟨data, verb, -, -, -, ht⟩
  · cases hdata.symm.trans hd
  · cases hv.symm.trans hw
  · exact ht

/-- A command that has a ticket could be sent. -/
theorem sendable_of_ticket {x : Dispatch Listener} {t : Ticket}
    (h : (c.execute x.name x.args x.listener).ticket = .ok t) : Sendable c x := by
  have ht : (c.submit x.name x.args x.listener).ticket = .ok t := h
  rcases submit_cases x.name x.args x.listener c with ⟨e, -, -, he⟩ | ⟨data, e, -, -, -, he⟩ |
    ⟨data, verb, hd, hw, -, -⟩
  · cases he.symm.trans ht
  · cases he.symm.trans ht
  · exact ⟨⟨data, hd⟩, ⟨verb, hw⟩⟩

theorem due_execute (name : Value) (args : List Value) (l : Listener) (c : Connection Listener) :
    (c.execute name args l).connection.due = [] :=
  due_followAll _

@[simp] theorem executeAll_append (c : Connection Listener) (xs ys : List (Dispatch Listener)) :
    c.executeAll (xs ++ ys) = (c.executeAll xs).executeAll ys := List.foldl_append

theorem isClosed_executeAll (c : Connection Listener) (xs : List (Dispatch Listener)) :
    (c.executeAll xs).isClosed = c.isClosed := by
  obtain ⟨es, hes, h, -⟩ := executeAll_run c xs
  rw [h, isClosed_run hes]

theorem due_executeAll (hd : c.due = []) (xs : List (Dispatch Listener)) :
    (c.executeAll xs).due = [] := by
  induction xs generalizing c with
  | nil => exact hd
  | cons x xs ih => exact ih (due_execute ..)

/-- One more exchange, which has the listener of the command. -/
theorem length_execute {x : Dispatch Listener} (hd : c.due = []) (h : Sendable c x) :
    (c.execute x.name x.args x.listener).connection.exchanges.length = c.exchanges.length + 1 ∧
      (c.execute x.name x.args x.listener).connection.listener? c.exchanges.length =
        some x.listener := by
  obtain ⟨-, e, he, -, ps, hp, -⟩ := reports_execute hd (ticket_execute h)
  exact ⟨hp.length_eq.trans he.length_eq,
    (hp.listener?_eq _).trans ((he.listener?_eq _).trans (if_pos rfl))⟩

/-- The roles and the open transaction after commands sent one after the other over an open
connection. -/
theorem enrolment_executeAll {address : Value × Value} {timeout : Timeout}
    {es₀ : List (Event Listener)} (hc : c = (start address timeout).run es₀) (ho : c.isClosed = false)
    (xs : List (Dispatch Listener)) :
    ((c.executeAll xs).roles, (c.executeAll xs).transaction) =
      enrolAll (c.roles, c.transaction) (xs.flatMap fun x => (x.event.verb? c).toList) := by
  obtain ⟨es, hes, hrun, -, hverbs⟩ := executeAll_run c xs
  have hl : (c.run es).attached = true := by
    rw [(open_run hes).2]
    simpa [isClosed] using (Bool.or_eq_false_iff.1 ho).2
  rw [hrun, enrolment_run hc es hl, hverbs]

/-- The role of a command, and the open transaction after it. -/
theorem classify_execute {address : Value × Value} {timeout : Timeout}
    {es₀ : List (Event Listener)} (hc : c = (start address timeout).run es₀) (ho : c.isClosed = false)
    {x : Dispatch Listener} (hx : ∃ data, c.requestOf x.name x.args = .ok data) {w : Verb}
    (hw : Verb.ofWord x.name = .ok w) :
    (c.executeAll [x]).role? c.exchanges.length =
        some (classify w c.transaction c.exchanges.length).1 ∧
      (c.executeAll [x]).transaction = (classify w c.transaction c.exchanges.length).2 := by
  obtain ⟨data, hdata⟩ := hx
  have hverb : x.event.verb? c = some (some w) := by
    simp only [Dispatch.event, Event.verb?, hdata, hw]
    rfl
  have hall := enrolment_executeAll hc ho [x]
  rw [List.flatMap_singleton, hverb] at hall
  have hroles : (c.executeAll [x]).roles =
      c.roles ++ [(classify w c.transaction c.roles.length).1] := congrArg Prod.fst hall
  rw [← length_roles]
  refine ⟨?_, congrArg Prod.snd hall⟩
  rw [← getElem?_roles, hroles]
  exact List.getElem?_concat_length

/-- Each command of a row has an exchange of its own, with its listener. -/
theorem listener?_executeAll (hd : c.due = []) {xs : List (Dispatch Listener)}
    (h : ∀ x ∈ xs, Sendable c x) :
    (c.executeAll xs).exchanges.length = c.exchanges.length + xs.length ∧
      ∀ (i : Nat) (x : Dispatch Listener), xs[i]? = some x →
        (c.executeAll xs).listener? (c.exchanges.length + i) = some x.listener := by
  induction xs generalizing c with
  | nil => exact ⟨rfl, by simp⟩
  | cons x xs ih =>
    obtain ⟨hlen, hl⟩ := length_execute hd (h x List.mem_cons_self)
    obtain ⟨hlen', hl'⟩ := ih (due_execute ..) fun y hy =>
      (h y (List.mem_cons_of_mem x hy)).congr (isClosed_execute x.name x.args x.listener c)
    rw [hlen] at hlen' hl'
    refine ⟨hlen'.trans (by rw [List.length_cons]; omega), fun i y hi => ?_⟩
    cases i with
    | zero =>
      obtain rfl := Option.some.inj hi
      -- the first exchange keeps its listener while the others are sent
      obtain ⟨es, -, hes, -⟩ := executeAll_run (c.execute x.name x.args x.listener).connection xs
      exact (congrArg (listener? · _) hes).trans (listener?_run hl es)
    | succ i =>
      have hi' := hl' i y hi
      rwa [Nat.add_assoc, Nat.add_comm 1] at hi'

end Connection

end SortedSets

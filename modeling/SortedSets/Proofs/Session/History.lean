import SortedSets.Proofs.Connection.Block
import SortedSets.Proofs.Connection.Matching
import SortedSets.Proofs.Session.Invariant

/-!
# The connection in a run of a session

What a session does to its connection is a run of the connection: the transport brings bytes or is
lost, and what follows are commands, bytes gathered or written, and the end. Only a client that
gives something up gives up commands. So everything that holds of the runs of a connection holds of
the connection of a session.

## Main definitions

* `Session.Ran`: the connection went on by events of a kind
* `Session.Traced`: the events of the connection in a run of a session

## Main results

* `Session.exists_run_act`: what an act is to the connection
* `Session.exists_traced`, `Session.Traced.append`: what a run of a session is to the connection
* `Session.Traced.answer?_of_reply`: the reply of a number is the answer to the command of that
  number
-/

namespace SortedSets

open Wire (Reply)

/-- What the transport does in an act. -/
def Act.arrival : Act → List (Event Listener)
  | .receive piece => [.deliver piece]
  | .lose e => [.drop e]
  | _ => []

namespace Session

/-! ## Events of the connection -/

/-- The connection of `t` is that of `s` after events of a kind. -/
def Ran (P : Event Listener → Prop) (s t : Session) : Prop :=
  ∃ es, (∀ e ∈ es, P e) ∧ t.connection = s.connection.map (Connection.run · es)

section Ran

variable {P : Event Listener → Prop} {s t u : Session}

theorem Ran.of_connection (h : t.connection = s.connection) : Ran P s t :=
  ⟨[], by simp, by simp [h]⟩

theorem Ran.trans (h : Ran P s t) (h' : Ran P t u) : Ran P s u := by
  obtain ⟨es, hes, ht⟩ := h
  obtain ⟨fs, hfs, hu⟩ := h'
  refine ⟨es ++ fs, fun e he => ?_, ?_⟩
  · exact (List.mem_append.1 he).elim (hes e) (hfs e)
  · simp [hu, ht, Option.map_map, Function.comp_def]

/-- The connection changes by a single event. -/
theorem Ran.of_event {e : Event Listener} (he : P e)
    (h : t.connection = s.connection.map (Connection.step · e)) : Ran P s t :=
  ⟨[e], by simpa using he, h⟩

/-- The client changes its connection by events of its own. -/
theorem kept_ran (hP : ∀ e : Event Listener, e.isOwn = true → P e) : Kept (Ran P) where
  trans h h' := h.trans h'
  inner h _ _ := .of_connection h
  send name args l s := by
    cases hc : s.connection with
    | none => exact .of_connection (by simp [send, hc])
    -- sending is one event, followed by what is due
    | some c =>
      obtain ⟨n, hn⟩ := Connection.execute_run name args l c
      refine ⟨.submit name args l :: List.replicate n .follow,
        fun e he => hP e (Event.isOwn_of_sends (Connection.sends_execute he)), ?_⟩
      simp only [send, hc, hn, Option.map_some]
  later _ _ := .of_connection rfl
  close s := .of_event (hP .close rfl) rfl
  spend _ _ := .of_connection rfl
  startRun _ _ _ := .of_connection rfl
  newBatch _ _ := .of_connection rfl
  setBuffered on s := by
    cases on with
    | true => exact .of_event (hP .enterBuffer rfl) rfl
    | false => exact .of_event (hP .leaveBuffer rfl) rfl

theorem keptByQueueing_ran : KeptByQueueing (Ran P) := fun _ _ _ => .of_connection rfl

end Ran

/-- What an act is to the connection: what the transport does, and then what the client does. -/
theorem exists_run_act {s : Session} (hs : s.OnlySpentRun) (a : Act) :
    ∃ es, (∀ e ∈ es, e.isOwn = true ∨ (∃ h, a = .cancel h) ∧ ∃ t, e = .giveUp t) ∧
      (s.act a).connection = s.connection.map (Connection.run · (a.arrival ++ es)) := by
  have hown := kept_ran (P := fun e => e.isOwn = true) fun _ he => he
  -- the transport does something, and what follows is told
  have hhappen (e : Event Listener)
      (f : Connection Listener → Connection Listener × List (Notice Listener))
      (hf : ∀ c, f c = (c.step e).followAll) :
      ∃ es, (∀ e ∈ es, e.isOwn = true) ∧
        (s.happen f).connection = s.connection.map (Connection.run · (e :: es)) := by
    cases hc : s.connection with
    | none => exact ⟨[], by simp, by simp [happen, hc]⟩
    | some c =>
      obtain ⟨es, hes, hconn⟩ := hown.happen hc f
      refine ⟨List.replicate (c.step e).due.length .follow ++ es, fun e he => ?_, ?_⟩
      · rcases List.mem_append.1 he with he | he
        · rw [List.eq_of_mem_replicate he]
          rfl
        · exact hes e he
      · simp [hconn, hf, Connection.followAll, Connection.followMany_eq_run]
  cases ha : a.isOwn with
  | true =>
    obtain ⟨es, hes, hconn⟩ := hown.act hs (fun _ => keptByQueueing_ran) ha
    refine ⟨es, fun e he => .inl (hes e he), ?_⟩
    cases a with
    | cancel | receive | lose => cases ha
    | _ => exact hconn
  | false =>
    cases a with
    | receive piece =>
      obtain ⟨es, hes, hconn⟩ := hhappen (.deliver piece) (Connection.receive piece) fun _ => rfl
      exact ⟨es, fun e he => .inl (hes e he), hconn⟩
    | lose e =>
      obtain ⟨es, hes, hconn⟩ := hhappen (.drop e) (Connection.lose e) fun _ => rfl
      obtain ⟨fs, hfs, hconn'⟩ := hown.endClosers (s.happen (Connection.lose e))
      refine ⟨es ++ fs, fun e he => .inl ((List.mem_append.1 he).elim (hes e) (hfs e)), ?_⟩
      refine hconn'.trans ?_
      simp [hconn, Option.map_map, Function.comp_def, Act.arrival]
    | cancel h =>
      have hall := kept_ran (P := fun e => e.isOwn = true ∨ ∃ t, e = .giveUp t) fun _ he => .inl he
      have hcancel (s : Session) (c : Connection Listener) (t : Ticket) (hc : s.connection = some c) :
          Ran (fun e => e.isOwn = true ∨ ∃ t, e = .giveUp t) s
            { s with connection := some (c.cancel t).1 } := by
        refine ⟨.giveUp t :: List.replicate (c.giveUp t).1.due.length .follow, fun e he => ?_, ?_⟩
        · rcases List.mem_cons.1 he with rfl | he
          · exact .inr ⟨t, rfl⟩
          · rw [List.eq_of_mem_replicate he]
            exact .inl rfl
        · simp [hc, Connection.cancel, Connection.followAll, Connection.followMany_eq_run,
            Connection.step]
      obtain ⟨es, hes, hconn⟩ := hall.cancel hcancel h s
      exact ⟨es, fun e he => (hes e he).imp_right fun ht => ⟨⟨h, rfl⟩, ht⟩, hconn⟩
    | _ => cases ha

/-! ## Runs of a session -/

variable {address : Value × Value} {timeout : Timeout} {acts : List Act}
  {es : List (Event Listener)}

/-- Only batches that were sent wait for exchanges, in every run. -/
theorem onlySpentRun_after (address : Value × Value) (timeout : Timeout) (acts : List Act) :
    ((connected address timeout).after acts).OnlySpentRun := by
  obtain ⟨owners, L, T, -, hc⟩ := exists_owners address timeout acts
  exact fun b x hx hs => (hc.unspent b x hx hs).1

/-- What every act keeps is kept in a longer run. -/
theorem Kept.after {R : Session → Session → Prop} (k : Kept R) (hq : KeptByQueueing R)
    (hr : ∀ (s : Session) (c : Connection Listener), R s { s with connection := some c })
    (address : Value × Value) (timeout : Timeout) (acts more : List Act) :
    R ((connected address timeout).after acts)
      ((connected address timeout).after (acts ++ more)) := by
  induction more using List.reverseRec with
  | nil =>
    rw [List.append_nil]
    exact k.refl _
  | append_singleton more a ih =>
    rw [← List.append_assoc, after_append _ (acts ++ more)]
    have hs := onlySpentRun_after address timeout (acts ++ more)
    exact k.trans ih (k.act_of_connection (fun _ => hq) hr hs)

/-- The events of the connection in a run of a session. -/
structure Traced (address : Value × Value) (timeout : Timeout) (acts : List Act)
    (es : List (Event Listener)) : Prop where
  connection : ((connected address timeout).after acts).connection =
    some ((Connection.start address timeout).run es)
  received_eq : received es = acts.flatMap Act.piece
  /-- A command is given up only if the client gives something up. -/
  spares : (∀ h, .cancel h ∉ acts) → ∀ t, ∀ e ∈ es, e.spares t = true
  /-- Replies and commands keep step if the server answers no more commands than were sent. -/
  inStep : (connected address timeout).Served acts → InStep (.start address timeout) es

/-- Events that bring no bytes. -/
theorem inStep_append (h : InStep (.start address timeout) es) {fs : List (Event Listener)}
    (hf : ∀ f ∈ fs, (∀ piece, f ≠ .deliver piece) ∧ f.piece = []) :
    InStep (.start address timeout) (es ++ fs) := by
  induction fs using List.reverseRec with
  | nil => rwa [List.append_nil]
  | append_singleton fs f ih =>
    have hlast := hf f (by simp)
    rw [← List.append_assoc]
    exact (ih fun g hg => hf g (by simp [hg])).snoc_of_piece hlast.1 hlast.2

namespace Traced

theorem nil (address : Value × Value) (timeout : Timeout) : Traced address timeout [] [] where
  connection := rfl
  received_eq := rfl
  spares _ _ _ he := by cases he
  inStep _ := inStep_run address timeout fun pre e h => by
    cases List.append_eq_nil_iff.1 (List.prefix_nil.1 h) with
    | intro _ h => cases h

/-- The connection goes on in an act. -/
theorem snoc (h : Traced address timeout acts es) (a : Act) :
    ∃ fs, Traced address timeout (acts ++ [a]) (es ++ fs) := by
  obtain ⟨fs, hfs, hconn⟩ := exists_run_act (onlySpentRun_after address timeout acts) a
  rw [h.connection, Option.map_some] at hconn
  -- what the client does brings no bytes
  have hquiet (f : Event Listener) (hf : f ∈ fs) : (∀ piece, f ≠ .deliver piece) ∧ f.piece = [] := by
    rcases hfs f hf with hf | ⟨-, t, rfl⟩
    · cases f <;> simp_all [Event.isOwn, Event.piece]
    · simp [Event.piece]
  have hpieces : received fs = [] :=
    List.flatMap_eq_nil_iff.2 fun f hf => (hquiet f hf).2
  have harrival : received a.arrival = a.piece := by
    cases a <;> simp [Act.arrival, Act.piece, received, Event.piece]
  refine ⟨a.arrival ++ fs, ?_, ?_, fun hc t e he => ?_, fun hserved => ?_⟩
  · rw [after_append, after_cons, after_nil, hconn, ← Connection.run_append]
  · simp [h.received_eq, hpieces, harrival]
  · -- nobody gave anything up
    rcases List.mem_append.1 he with he | he
    · exact h.spares (fun k hk => hc k (by simp [hk])) t e he
    · rcases List.mem_append.1 he with he | he
      · cases a <;> simp_all [Act.arrival, Event.spares]
      · rcases hfs e he with ho | ⟨⟨k, rfl⟩, -⟩
        · cases e <;> first | rfl | cases ho
        · exact absurd (hc k) (by simp)
  · have hbefore : (connected address timeout).Served acts :=
      fun before piece hp => hserved before piece (hp.trans (List.prefix_append _ _))
    rw [← List.append_assoc]
    refine inStep_append ?_ hquiet
    have hstep := h.inStep hbefore
    cases a with
    | receive piece =>
      obtain ⟨hl, hle⟩ := hserved acts piece (List.prefix_refl _)
      refine hstep.snoc_deliver ⟨?_, ?_⟩
      · simpa [isAttached, h.connection] using hl
      · simpa [SortedSets.replies, Act.replies, Event.piece, Act.piece, h.received_eq, sent,
          h.connection, length_requests, received_singleton] using hle
    | lose e => exact hstep.snoc_of_piece (by simp) rfl
    | _ => simpa [Act.arrival] using hstep

/-- The connection goes on in a longer run. -/
theorem append (h : Traced address timeout acts es) (more : List Act) :
    ∃ fs, Traced address timeout (acts ++ more) (es ++ fs) := by
  induction more generalizing acts es with
  | nil => exact ⟨[], by rwa [List.append_nil, List.append_nil]⟩
  | cons a more ih =>
    obtain ⟨fs, hfs⟩ := h.snoc a
    obtain ⟨gs, hgs⟩ := ih hfs
    exact ⟨fs ++ gs, by rwa [← List.append_assoc, List.append_cons]⟩

theorem replies_eq (h : Traced address timeout acts es) : replies es = Act.replies acts := by
  rw [replies, h.received_eq, Act.replies]

/-- The reply of a number is the answer to the command of that number, unless somebody gave
something up. -/
theorem answer?_of_reply (h : Traced address timeout acts es) (ht : timeout.atOnce? = none)
    (hc : ∀ h, .cancel h ∉ acts) (hs : (connected address timeout).Served acts) {t : Ticket}
    {r : Reply} (hr : (Act.replies acts)[t]? = some r) :
    ((Connection.start address timeout : Connection Listener).run es).answer? t =
      some r.outcome :=
  (h.inStep hs).answer?_of_reply (h.replies_eq ▸ hr)
    fun o => not_givenUp_of_spares ht (h.spares hc t) o

end Traced

/-- The connection in a run of a session. -/
theorem exists_traced (address : Value × Value) (timeout : Timeout) (acts : List Act) :
    ∃ es, Traced address timeout acts es := by
  obtain ⟨es, h⟩ := (Traced.nil address timeout).append acts
  exact ⟨es, h⟩

/-- The connection in a longer run. -/
theorem exists_run_after {c : Connection Listener}
    (hc : ((connected address timeout).after acts).connection = some c) (more : List Act) :
    ∃ fs, ((connected address timeout).after (acts ++ more)).connection = some (c.run fs) := by
  obtain ⟨es, h⟩ := exists_traced address timeout acts
  obtain ⟨fs, hfs⟩ := h.append more
  obtain rfl := Option.some.inj (h.connection.symm.trans hc)
  exact ⟨fs, by rw [hfs.connection, Connection.run_append]⟩

/-- A batch whose sending was not broken off counts its exchanges in every longer run. -/
theorem Launched.exists_counting {terms : Terms} {owners : List Owner} {before after : List Act}
    {b : BatchId} {x : Batch} {h : HandleId} {collectsErrors : Bool} {c : Connection Listener}
    {j : Nat} (hx : ((connected address timeout).after before).batches[b]? = some x)
    (hl : Launched terms owners b x h collectsErrors c j
      (((connected address timeout).after before).run b collectsErrors))
    (hn : x.failure? c = none) (hacts : acts = before ++ .run b collectsErrors :: after) :
    ∃ (z : Batch) (r : Run), ((connected address timeout).after acts).batches[b]? = some z ∧
      z.transactional = x.transactional ∧ z.slots.map Slot.claim = x.slots.map Slot.claim ∧
        z.run = some r ∧
          r.key = (h, collectsErrors, List.range' c.exchanges.length (x.row b c).length) := by
  have hgrown := kept_grown.after keptByQueueing_grown (fun _ _ => .of_batches rfl) address timeout
  have hall := hgrown before (.run b collectsErrors :: after)
  have hrest := hgrown (before ++ [.run b collectsErrors]) after
  rw [List.append_assoc, List.singleton_append] at hrest
  rw [← hacts] at hall hrest
  rw [after_append, after_cons, after_nil] at hrest
  obtain ⟨y, r, hy, hysp, hyc, hyr, hkey⟩ := hl.counts hn
  obtain ⟨z, hz, hyz⟩ := hrest b y hy
  obtain ⟨z', hz', hxz⟩ := hall b x hx
  obtain rfl := Option.some.inj (hz.symm.trans hz')
  obtain ⟨r', hr', hkey'⟩ := hyz.run r hyr
  exact ⟨z, r', hz, hxz.transactional_eq, (hyz.spent hysp).2.trans hyc, hr', hkey'.trans hkey⟩

end Session

end SortedSets

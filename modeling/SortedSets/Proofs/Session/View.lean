import SortedSets.Proofs.Connection.Notices
import SortedSets.Proofs.Session.Handles

/-!
# What a session sees of its connection

A session learns of its exchanges by notices. Between an operation of the connection and the last
of its notices, some exchanges have ended of which nobody was told yet. What a session sees is who
listens to each exchange, and what that listener was told.

## Main definitions

* `Connection.told`: what the listener of an exchange was told
* `Session.View`: who listens, what was told, and which notices are still to be told

## Main results

* `Session.View.next`: a notice that is told
* `Session.View.report`: an operation of the connection adds its notices
* `Session.View.send_ok`, `Session.View.send_error`: a command that is sent, or is not
-/

namespace SortedSets

/-- What the listener of an exchange was told while the outcomes `ps` are still to be told. -/
def Connection.told {Listener : Type} (c : Connection Listener) (ps : List (Ticket × Outcome))
    (t : Ticket) : Option Outcome :=
  (c.listener? t).bind fun _ => if t ∈ ps.map Prod.fst then none else c.outcome? t

namespace Session

/-- The connection of a session, in which nothing is due: who listens to each exchange and what
that listener was told, when the notices `ns` are still to be told. -/
def View (listener? : Ticket → Option Listener) (told? : Ticket → Option Outcome)
    (ns : List (Notice Listener)) (s : Session) : Prop :=
  ∃ c ps, s.connection = some c ∧ c.due = [] ∧ (ps.map Prod.fst).Nodup ∧
    (∀ p ∈ ps, c.outcome? p.1 = some p.2) ∧ c.notices ps = ns ∧ c.listener? = listener? ∧
    c.told ps = told?

namespace View

variable {listener? : Ticket → Option Listener} {told? : Ticket → Option Outcome}
  {ns : List (Notice Listener)} {s s' : Session} {c : Connection Listener}

theorem congr (h : View listener? told? ns s) (hs : s'.connection = s.connection) :
    View listener? told? ns s' := by
  rwa [View, hs]

theorem due (h : View listener? told? ns s) (hc : s.connection = some c) : c.due = [] := by
  obtain ⟨d, ps, hd, hdue, -⟩ := h
  obtain rfl := Option.some.inj (hc.symm.trans hd)
  exact hdue

theorem listener?_eq (h : View listener? told? ns s) (hc : s.connection = some c) :
    c.listener? = listener? := by
  obtain ⟨d, ps, hd, -, -, -, -, hl, -⟩ := h
  obtain rfl := Option.some.inj (hc.symm.trans hd)
  exact hl

/-- At the beginning there is nothing to see. -/
theorem connected (address : Value × Value) (timeout : Timeout) :
    View (fun _ => none) (fun _ => none) [] (.connected address timeout) := by
  refine ⟨.start address timeout, [], rfl, rfl, List.nodup_nil, by simp, rfl, ?_, ?_⟩
  · funext t
    simp [Connection.listener?, Connection.start]
  · funext t
    simp [Connection.told, Connection.listener?, Connection.start]

/-- When nothing is left to be told, each listener knows the outcome of its exchange. -/
theorem told_eq (h : View listener? told? [] s) :
    ∃ c, s.connection = some c ∧ c.due = [] ∧ c.listener? = listener? ∧
      ∀ t l, listener? t = some l → told? t = c.outcome? t := by
  obtain ⟨c, ps, hc, hd, -, -, hn, rfl, rfl⟩ := h
  refine ⟨c, hc, hd, rfl, fun t l hl => ?_⟩
  rw [Connection.told, hl, Option.bind_some, if_neg]
  -- a listener to whom something is still to be told would have a notice
  intro hm
  obtain ⟨p, hp, rfl⟩ := List.mem_map.1 hm
  have hnone := List.filterMap_eq_nil_iff.1 hn p hp
  rw [hl] at hnone
  cases hnone

/-- A notice is told: its listener knows the outcome now. -/
theorem next {n : Notice Listener} (h : View listener? told? (n :: ns) s) :
    ∃ t told'?, listener? t = some n.listener ∧ told? t = none ∧ told'? t = some n.outcome ∧
      (∀ u, u ≠ t → told'? u = told? u) ∧ View listener? told'? ns s := by
  obtain ⟨c, ps, hc, hd, hnodup, hout, hn, rfl, rfl⟩ := h
  -- Induction on the outcomes: those without a listener make no difference.
  induction ps with
  | nil => cases hn
  | cons p ps ih =>
    obtain ⟨hmem, hnodup⟩ := List.nodup_cons.1 hnodup
    have hout' (q) (hq : q ∈ ps) := hout q (List.mem_cons_of_mem p hq)
    have hother (u : Ticket) (hu : u ≠ p.1) : c.told ps u = c.told (p :: ps) u := by
      simp only [Connection.told, List.map_cons, List.mem_cons, hu, false_or]
    cases hl : c.listener? p.1 with
    | none =>
      have hsame : c.told ps = c.told (p :: ps) := by
        funext u
        by_cases hu : u = p.1
        · rw [Connection.told, Connection.told, hu, hl, Option.bind_none, Option.bind_none]
        · exact hother u hu
      rw [← hsame]
      refine ih hnodup hout' ?_
      simpa [Connection.notices, hl] using hn
    | some l =>
      simp only [Connection.notices, List.filterMap_cons, hl, Option.map_some,
        List.cons.injEq] at hn
      obtain ⟨rfl, hn⟩ := hn
      refine ⟨p.1, c.told ps, hl, ?_, ?_, hother, c, ps, hc, hd, hnodup, hout', hn, rfl, rfl⟩
      · simp [Connection.told]
      · rw [Connection.told, hl, Option.bind_some, if_neg hmem]
        exact hout p List.mem_cons_self

/-- An operation of the connection adds its notices. -/
theorem report (h : View listener? told? ns s) (hc : s.connection = some c)
    {r : Connection Listener × List (Notice Listener)} (hr : Connection.Reports c r)
    (hd : r.1.due = []) (hs' : s'.connection = some r.1) :
    View listener? told? (r.2 ++ ns) s' := by
  obtain ⟨c', ps, hc', -, hnodup, hout, hn, rfl, rfl⟩ := h
  obtain rfl := Option.some.inj (hc.symm.trans hc')
  obtain ⟨qs, he, hq⟩ := hr
  -- what ended now had no outcome before
  have hnew {t : Ticket} (hq : t ∈ qs.map Prod.fst) : c.outcome? t = none := by
    obtain ⟨q, hqs, rfl⟩ := List.mem_map.1 hq
    exact (he.ended q hqs).1
  have hold {t : Ticket} (hp : t ∈ ps.map Prod.fst) : t ∉ qs.map Prod.fst := by
    intro hq
    obtain ⟨p, hps, rfl⟩ := List.mem_map.1 hp
    cases (hout p hps).symm.trans (hnew hq)
  refine ⟨r.1, qs ++ ps, hs', hd, ?_, ?_, ?_, funext he.listener?_eq, ?_⟩
  · rw [List.map_append, List.nodup_append]
    refine ⟨he.nodup, hnodup, ?_⟩
    rintro t hq _ hp rfl
    exact hold hp hq
  · intro p hp
    rcases List.mem_append.1 hp with hp | hp
    · exact (he.ended p hp).2
    · rw [he.kept p.1 (hold (List.mem_map_of_mem hp)), hout p hp]
  · rw [Connection.notices_append, he.notices_eq, he.notices_eq, hn, hq]
  · funext t
    simp only [Connection.told, List.map_append, List.mem_append, he.listener?_eq]
    by_cases hq : t ∈ qs.map Prod.fst
    · rw [if_pos (.inl hq), hnew hq, ite_self]
    · simp only [hq, false_or, he.kept t hq]

/-- The order in which notices are to be told makes no difference to what is seen. -/
theorem swap {ms : List (Notice Listener)} (h : View listener? told? (ms ++ ns) s) :
    View listener? told? (ns ++ ms) s := by
  obtain ⟨c, ps, hc, hd, hnodup, hout, hn, hl, ht⟩ := h
  obtain ⟨ps, qs, rfl, rfl, rfl⟩ := List.filterMap_eq_append_iff.1 hn
  refine ⟨c, qs ++ ps, hc, hd, ?_, ?_, Connection.notices_append c qs ps, hl, ?_⟩
  · rw [List.map_append, List.nodup_append] at hnodup ⊢
    exact ⟨hnodup.2.1, hnodup.1, fun t ht u hu he => hnodup.2.2 u hu t ht he.symm⟩
  · exact fun p hp => hout p (List.mem_append.2 (List.mem_append.1 hp).symm)
  · rw [← ht]
    funext t
    simp only [Connection.told, List.map_append, List.mem_append, or_comm]

/-- A change of the connection that ends no command. -/
theorem mapConnection (h : View listener? told? ns s)
    {f : Connection Listener → Connection Listener} (he : ∀ c, (f c).exchanges = c.exchanges)
    (hd : ∀ c, (f c).due = c.due) : View listener? told? ns (s.mapConnection f) := by
  have ⟨c, ps, hc, hdue, _⟩ := h
  refine h.report hc (r := (f c, [])) (.of_ends (.of_exchanges (he c))) ((hd c).trans hdue) ?_
  simp [Session.mapConnection, hc]

theorem enterBuffer (h : View listener? told? ns s) :
    View listener? told? ns (s.mapConnection Connection.enterBuffer) :=
  h.mapConnection (fun _ => rfl) fun _ => rfl

theorem leaveBuffer (h : View listener? told? ns s) :
    View listener? told? ns (s.mapConnection Connection.leaveBuffer) :=
  h.mapConnection (fun c => by rw [Connection.leaveBuffer_frame])
    fun c => by rw [Connection.leaveBuffer_frame]

/-! ## Sending -/

section Sent

variable {name : Value} {args : List Value} {l : Listener}

/-- A command that is not sent leaves at most an exchange behind to which nobody listens. -/
theorem send_error (h : View listener? told? ns s) {e : Error}
    (he : (s.send name args l).2.2 = .error e) :
    (s.send name args l).2.1 = [] ∧ View listener? told? ns (s.send name args l).1 := by
  obtain ⟨c, ps, hc, hd, hnodup, hout, hn, rfl, rfl⟩ := h
  simp only [send, hc] at he ⊢
  obtain ⟨hnone, hconn⟩ := Connection.execute_error hd he
  -- a new exchange without listener changes nothing that is told
  have hsame : (∀ t, (c.execute name args l).connection.listener? t = c.listener? t) ∧
      ∀ t, (c.execute name args l).connection.outcome? t = c.outcome? t := by
    rcases hconn with heq | hmore
    · exact ⟨fun t => by rw [heq], fun t => by rw [heq]⟩
    · refine ⟨fun t => ?_, hmore.outcome?_eq⟩
      rw [hmore.listener?_eq]
      split
      · next ht => simp [Connection.listener?, ht]
      · rfl
  refine ⟨hnone, _, ps, rfl, Connection.due_followAll _, hnodup,
    fun p hp => (hsame.2 p.1).trans (hout p hp), ?_, funext hsame.1, ?_⟩
  · rw [Connection.notices_congr fun p _ => hsame.1 p.1, hn]
  · funext t
    simp only [Connection.told, hsame.1, hsame.2]

/-- A command that is sent has its listener before anything is told. -/
theorem send_ok (h : View listener? told? ns s) {t : Ticket}
    (ht : (s.send name args l).2.2 = .ok t) :
    listener? t = none ∧ told? t = none ∧ ∃ listener'?, listener'? t = some l ∧
      (∀ u, u ≠ t → listener'? u = listener? u) ∧
      View listener'? told? ((s.send name args l).2.1 ++ ns) (s.send name args l).1 := by
  obtain ⟨c, ps, hc, hd, hnodup, hout, hn, rfl, rfl⟩ := h
  simp only [send, hc] at ht ⊢
  obtain ⟨rfl, d, hmore, hdd, hr⟩ := Connection.reports_execute hd ht
  have hnew : c.listener? c.exchanges.length = none := by simp [Connection.listener?]
  have hnone : c.outcome? c.exchanges.length = none := by simp [Connection.outcome?]
  have hlisten (u) (hu : u ≠ c.exchanges.length) : d.listener? u = c.listener? u := by
    rw [hmore.listener?_eq, if_neg hu]
  refine ⟨hnew, by rw [Connection.told, hnew, Option.bind_none], d.listener?, ?_, hlisten, ?_⟩
  · rw [hmore.listener?_eq, if_pos rfl]
  · -- the session sees the new exchange first, and then what followed at once
    have hview : View d.listener? (c.told ps) ns { s with connection := some d } := by
      refine ⟨d, ps, rfl, hdd, hnodup, fun p hp => (hmore.outcome?_eq p.1).trans (hout p hp), ?_,
        rfl, ?_⟩
      · refine (Connection.notices_congr fun p hp => hlisten p.1 fun he => ?_).trans hn
        cases (hout p hp).symm.trans (he ▸ hnone)
      · funext u
        simp only [Connection.told, hmore.outcome?_eq]
        by_cases hu : u = c.exchanges.length
        · rw [hu, hnone, ite_self, hnew]
          cases d.listener? c.exchanges.length <;> rfl
        · rw [hlisten u hu]
    exact hview.report rfl hr (Connection.due_followAll _) rfl

end Sent

end View

end Session

end SortedSets

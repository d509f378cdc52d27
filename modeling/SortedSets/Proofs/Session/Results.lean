import SortedSets.Proofs.Session.Calls
import SortedSets.Proofs.Session.Written

/-!
# The results of calls

The reply to a command is the result of its call, converted as the command says. An exchange that
answers for itself ends with its own reply; one of a transaction ends with its place in the reply to
the end of the transaction. Whichever it is, the handle of the call ends with the result, and a batch
ends with the results of its calls.

## Main definitions

* `Command.result`: what the reply to a command is for the call that made it
* `Ending.ofResult`, `Ending.ofResults`: how a handle ends, and how a batch
* `Session.Undisturbed`: nobody gives anything up, and the server answers what was sent

## Main results

* `Session.outcome?_of_reply`, `Session.outcome?_of_place`: how exchanges end
* `Session.Holds.ending?_of_reads`, `Session.Holds.ending?_of_slot`: how handles end
* `Session.Holds.ending?_of_run`: how a batch ends
-/

namespace SortedSets

open Wire (Reply)

/-- A value converted as a command says. -/
def Command.convert (c : Command) (v : Value) : Except Error Converted :=
  match c.conversion with
  | some k => k.apply v
  | none => .ok (.value v)

/-- What the reply to a command is for the call that made it. -/
def Command.result (c : Command) : Reply → Except Error Converted
  | .error message => .error (.reply message)
  | r => c.convert r.toValue

/-- The end of a handle by the result of its call. -/
def Ending.ofResult (x : Except Error Converted) : Ending :=
  Session.endingOf (x.map Converted.result)

theorem Ending.reply?_ofResult (x : Except Error Converted) : (ofResult x).reply? = some x := by
  rcases x with e | (v | p) <;> rfl

theorem Command.reading_eq (c : Command) (v : Value) :
    c.reading v = (c.convert v).map Converted.result := by
  unfold Command.reading Command.convert
  cases c.conversion <;> rfl

/-- A reply read as the command means it. -/
theorem Command.ending_reading (c : Command) (r : Reply) :
    r.outcome.ending c.reading = .ofResult (c.result r) := by
  cases r with
  | error message => rfl
  | bytes | int | nil | array => exact congrArg Session.endingOf (c.reading_eq _)

/-- How a batch ends whose calls have these results: with all of them, or with the errors among them
if there are any and they are not collected. -/
def Ending.ofResults (transactional collectsErrors : Bool)
    (results : List (Except Error Converted)) : Ending :=
  if collectsErrors || (errorsOf results).isEmpty then .result (.batch results)
  else .failed (.batch transactional (errorsOf results))

theorem mapM_eq_some {α β : Type} {f : α → Option β} {xs : List α} {ys : List β}
    (h : xs.map f = ys.map some) : xs.mapM f = some ys := by
  induction xs generalizing ys with
  | nil =>
    obtain rfl : ys = [] := List.map_eq_nil_iff.1 h.symm
    rfl
  | cons x xs ih =>
    cases ys with
    | nil => cases h
    | cons y ys =>
      obtain ⟨hx, hxs⟩ := List.cons.inj h
      rw [List.mapM_cons, hx, ih hxs]
      rfl

/-- A list of which one entry has no value has none. -/
theorem mapM_eq_none {α β : Type} {f : α → Option β} {xs : List α} {x : α} (hx : x ∈ xs)
    (hf : f x = none) : xs.mapM f = none := by
  induction xs with
  | nil => cases hx
  | cons y ys ih =>
    rw [List.mapM_cons]
    rcases List.mem_cons.1 hx with rfl | hx
    · rw [hf]
      rfl
    · rw [ih hx]
      cases f y <;> rfl

namespace Session

/-- Nobody gives anything up, and the server answers no more commands than were sent. -/
structure Undisturbed (s : Session) (acts : List Act) : Prop where
  spares : ∀ h, .cancel h ∉ acts
  served : s.Served acts

/-- A server that answers last and does not answer more than was sent. -/
theorem Undisturbed.of_last {s : Session} (acts : List Act) {piece : Bytes}
    (hc : ∀ h, .cancel h ∉ acts) (hr : ∀ piece, .receive piece ∉ acts)
    (ha : (s.after acts).isAttached = true)
    (hle : (Act.replies (acts ++ [.receive piece])).length ≤ (s.after acts).sent) :
    s.Undisturbed (acts ++ [.receive piece]) where
  spares h := by simp [hc h]
  served before piece' hp := by
    rcases List.prefix_concat_iff.1 hp with heq | hp
    · obtain ⟨rfl, hpiece⟩ := List.append_inj' heq rfl
      obtain rfl : piece' = piece := by simpa using hpiece
      exact ⟨ha, hle⟩
    · exact absurd (hp.subset (by simp)) (hr piece')

/-- A batch that was not given up ends with the results of its calls. -/
theorem batchEnding_of_results {s : Session} {x : Batch} {r : Run}
    {results : List (Except Error Converted)} (hr : r.cancelled = false)
    (h : x.slots.map (fun slot => s.ending? slot.handle) =
      results.map fun result => some (.ofResult result)) :
    s.batchEnding x r = .ofResults x.transactional r.collectsErrors results := by
  have hall : x.slots.mapM (fun slot => s.replyOf? slot.handle) = some results := by
    refine mapM_eq_some ?_
    have hbind := congrArg (List.map (Option.bind · Ending.reply?)) h
    simp only [List.map_map, Function.comp_def, Option.bind_some, Ending.reply?_ofResult] at hbind
    exact hbind
  simp only [batchEnding, hr, hall, Ending.ofResults]
  rfl

/-! ## How exchanges end -/

section Run

variable {address : Value × Value} {timeout : Timeout} {acts : List Act} {d : Connection Listener}

/-- An exchange that answers for itself ends with the reply of its number. -/
theorem outcome?_of_reply (ht : timeout.atOnce? = none)
    (hu : (connected address timeout).Undisturbed acts)
    (hd : ((connected address timeout).after acts).connection = some d) {u : Ticket} {role : Role}
    (hrole : d.role? u = some role) (hne : role ≠ .queued) {r : Reply}
    (hr : (Act.replies acts)[u]? = some r) : d.outcome? u = some r.outcome := by
  obtain ⟨es, htraced⟩ := exists_traced address timeout acts
  obtain ⟨owners, hs⟩ := exists_owners address timeout acts
  have hdue := hs.due hd
  obtain rfl := Option.some.inj (htraced.connection.symm.trans hd)
  refine (sound_run address timeout es).outcome?_of_own ?_
    (htraced.answer?_of_reply ht hu.spares hu.served hr) (by simp [hdue])
    (not_givenUp_of_spares ht (htraced.spares hu.spares u))
  rw [hrole]
  exact fun h => hne (Option.some.inj h)

/-- An exchange of a transaction that was acknowledged ends with its place in the reply to the end
of the transaction. -/
theorem outcome?_of_place (ht : timeout.atOnce? = none)
    (hu : (connected address timeout).Undisturbed acts)
    (hd : ((connected address timeout).after acts).connection = some d) {e u : Ticket}
    {queue : List Ticket} (hrole : d.role? e = some (.ending false queue)) {rs : List Reply}
    (he : (Act.replies acts)[e]? = some (.array rs)) {bs : Bytes}
    (hq : (Act.replies acts)[u]? = some (.bytes bs)) {i : Nat} (hi : queue[i]? = some u) {r : Reply}
    (hr : rs[i]? = some r) : d.outcome? u = some r.outcome := by
  obtain ⟨es, htraced⟩ := exists_traced address timeout acts
  obtain ⟨owners, hs⟩ := exists_owners address timeout acts
  have hdue := hs.due hd
  obtain rfl := Option.some.inj (htraced.connection.symm.trans hd)
  have hslot : (u, r.outcome) ∈ slotOutcomes false queue (.reply (.array rs)) := by
    refine (mem_slotOutcomes_reply (by simp)).2 ⟨i, hi, ?_⟩
    rw [Wire.Reply.slots, List.getElem?_map, hr, Option.map_some]
  refine (sound_run address timeout es).outcome?_of_slot hrole
    (htraced.answer?_of_reply ht hu.spares hu.served he) hslot (by simp [hdue])
    ⟨_, htraced.answer?_of_reply ht hu.spares hu.served hq⟩ fun o ho => ?_
  exact absurd ho (not_givenUp_of_spares ht (htraced.spares hu.spares u) o)

end Run

/-! ## How handles end -/

namespace Holds

variable {terms : Terms} {owners : List Owner} {s : Session} {d : Connection Listener}
  (hs : Holds terms owners [] s) (hd : s.connection = some d) (hg : ∀ h, ¬ terms.given h)

include hs hd hg

/-- A handle that nobody gave up ends as its listener reads the reply. -/
theorem ending?_of_reads {u : Ticket} {l : Listener} (hl : d.listener? u = some l) {h : HandleId}
    {command : Command} (hreads : l.Reads h command) {r : Reply}
    (hq : Conversion.isQueued r.toValue = false) (ho : d.outcome? u = some r.outcome) :
    s.ending? h = some (.ofResult (command.result r)) := by
  obtain ⟨f, hf, hfr⟩ := hreads
  cases hs.listens hd hl with
  | reading hr _ hk =>
    obtain ⟨rfl, rfl⟩ := Prod.mk.inj (Option.some.inj (hf.symm.trans hr))
    rcases hk with hk | ⟨hgiven, -⟩
    · rw [hk, ho, Option.map_some, hfr r hq, command.ending_reading]
    · exact absurd hgiven (hg _)
  | frame => cases hf
  | slot => cases hf
  | fetching => cases hf

/-- The handle of a slot that nobody gave up ends with the result of its call. -/
theorem ending?_of_slot {u : Ticket} {b : BatchId} {i : Nat}
    (hl : d.listener? u = some (.slot b i)) {y : Batch} (hy : s.batches[b]? = some y) {slot : Slot}
    (hi : y.slots[i]? = some slot) {r : Reply} (ho : d.outcome? u = some r.outcome) :
    s.ending? slot.handle = some (.ofResult (slot.command.result r)) := by
  rcases hs.knows_slot hd hl hy hi with hk | ⟨hgiven, -⟩
  · rw [hk, ho, Option.map_some, slot.command.ending_reading]
  · exact absurd hgiven (hg _)

/-- A batch that nobody gave up ends with the results of its calls when all its exchanges have
ended. -/
theorem ending?_of_run {b : BatchId} {y : Batch} (hy : s.batches[b]? = some y) {r : Run}
    (hr : y.run = some r) (hne : r.tickets ≠ []) (hall : ∀ u ∈ r.tickets, d.outcome? u ≠ none)
    {results : List (Except Error Converted)}
    (hresults : y.slots.map (fun slot => s.ending? slot.handle) =
      results.map fun result => some (.ofResult result)) :
    s.ending? r.handle = some (.ofResults y.transactional r.collectsErrors results) := by
  obtain ⟨L, T, hv, hc⟩ := hs
  obtain ⟨d', hd', -, rfl, htold⟩ := hv.told_eq
  obtain rfl := Option.some.inj (hd.symm.trans hd')
  have hcount := hc.counts b y r hy hr
  -- all its exchanges were told, so that none is outstanding
  have hzero : r.outstanding = 0 := by
    rw [hcount.outstanding, untold, List.countP_eq_zero.2]
    · rfl
    · intro u hu
      obtain ⟨l, hl, -⟩ := Option.bind_eq_some_iff.1 ((hcount.mem_tickets u).1 hu)
      simpa [htold u l hl] using hall u hu
  have hcancelled : r.cancelled = false := by
    cases h : r.cancelled with
    | false => rfl
    | true => exact absurd (hcount.cancelled h) (hg _)
  obtain ⟨e, he⟩ := Option.ne_none_iff_exists'.1 (hcount.ended hzero hne)
  rw [he, (hcount.ending e he).2, batchEnding_of_results hcancelled hresults]

end Holds

end Session

end SortedSets

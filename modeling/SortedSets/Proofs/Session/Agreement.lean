import SortedSets.Proofs.Session.Changes
import SortedSets.Proofs.Session.Kept
import SortedSets.Proofs.Session.View

/-!
# Telling

A session agrees with its connection as soon as all that its connection reported was told. Until
then the notices that are still to be told make up the difference: each of them, when told, brings
the session nearer, and an operation of the connection adds its own.

## Main definitions

* `Session.Holds`: handles and batches agree with what they were told, and some notices are still
  to be told
* `Session.Rests`: so they do, while a step waits for no page

## Main results

* `Session.Holds.tellWith`, `Session.Holds.tellAll`: notices are told
* `Session.Rests.requestPage`: the step of a cursor that sends a command
* `Session.Holds.happen`: something happens to the connection, with all that follows
-/

namespace SortedSets

namespace Session

/-- Handles and batches agree with what they were told, and the notices `ns` are still to be
told. -/
def Holds (terms : Terms) (owners : List Owner) (ns : List (Notice Listener))
    (s : Session) : Prop :=
  ∃ listener? told?, View listener? told? ns s ∧ Consistent terms owners listener? told? none s

/-- So they do, while the step whose handle is `h` is pending and waits for no page. -/
def Rests (terms : Terms) (owners : List Owner) (ns : List (Notice Listener)) (h : HandleId)
    (s : Session) : Prop :=
  ∃ listener? told?, View listener? told? ns s ∧ Consistent terms owners listener? told? none s ∧
    ¬ Fetches listener? told? h ∧ s.ending? h = none

namespace Holds

variable {terms : Terms} {owners owners' : List Owner} {ns ms : List (Notice Listener)}
  {s s' : Session}

/-- A session that agrees with its connection has one. -/
theorem exists_connection (hs : Holds terms owners ns s) : ∃ c, s.connection = some c := by
  obtain ⟨L, T, ⟨c, ps, hc, -⟩, -⟩ := hs
  exact ⟨c, hc⟩

theorem due (hs : Holds terms owners ns s) {c : Connection Listener} (hc : s.connection = some c) :
    c.due = [] := by
  obtain ⟨L, T, hv, -⟩ := hs
  exact hv.due hc

/-- When nothing is left to be told, each listener knows the outcome of its exchange. -/
theorem listens (hs : Holds terms owners [] s) {c : Connection Listener}
    (hc : s.connection = some c) {t : Ticket} {l : Listener} (hl : c.listener? t = some l) :
    s.Listens terms.given owners t (c.outcome? t) l := by
  obtain ⟨L, T, hv, hcons⟩ := hs
  obtain ⟨c', hc', -, rfl, htold⟩ := hv.told_eq
  obtain rfl := Option.some.inj (hc.symm.trans hc')
  rw [← htold t l hl]
  exact hcons.listening t l hl

/-- A handle that is owned is there. -/
theorem lt_length (hs : Holds terms owners ns s) {h : HandleId} {o : Owner}
    (ho : owners[h]? = some o) : h < s.handles.length := by
  obtain ⟨L, T, -, hc⟩ := hs
  exact hc.lt_length ho

theorem owner_of_slot (hs : Holds terms owners ns s) {b : BatchId} {x : Batch}
    (hx : s.batches[b]? = some x) {i : Nat} {slot : Slot} (hi : x.slots[i]? = some slot) :
    owners[slot.handle]? = some (.slot b i) := by
  obtain ⟨L, T, -, hc⟩ := hs
  exact hc.slot b x i slot hx hi

/-- The handle of a slot knows the outcome of the exchange that its slot listens to. -/
theorem knows_slot (hs : Holds terms owners [] s) {c : Connection Listener}
    (hc : s.connection = some c) {t : Ticket} {b : BatchId} {i : Nat}
    (hl : c.listener? t = some (.slot b i)) {x : Batch} (hx : s.batches[b]? = some x) {slot : Slot}
    (hi : x.slots[i]? = some slot) :
    s.Knows terms.given slot.handle (Outcome.ending slot.command.reading) (c.outcome? t) := by
  cases hs.listens hc hl with
  | reading hr => cases hr
  | slot hx' _ hi' hk =>
    obtain rfl := Option.some.inj (hx.symm.trans hx')
    obtain rfl := Option.some.inj (hi.symm.trans hi')
    exact hk

/-- A session that agrees with the same connection. -/
theorem of_consistent (hs : Holds terms owners ns s) (hconn : s'.connection = s.connection)
    (h : ∀ L T, Consistent terms owners L T none s → Consistent terms owners' L T none s') :
    Holds terms owners' ns s' := by
  obtain ⟨L, T, hv, hc⟩ := hs
  exact ⟨L, T, hv.congr hconn, h L T hc⟩

/-- What changes neither the connection, nor handles, nor batches. -/
theorem congr (hs : Holds terms owners ns s) (hconn : s'.connection = s.connection)
    (hh : s'.handles = s.handles) (hb : s'.batches = s.batches) (hcl : s'.closers = s.closers) :
    Holds terms owners ns s' :=
  hs.of_consistent hconn fun _ _ hc => hc.congr hh hb hcl

/-- A handle that nobody relies on ends. -/
theorem endHandle_other (hs : Holds terms owners ns s) {h : HandleId}
    (ho : owners[h]? = some .other) (e : Ending) : Holds terms owners ns (s.endHandle h e) :=
  hs.of_consistent (connection_endHandle s h e) fun _ _ hc =>
    hc.endHandle_of_not_relied ho (fun h => h) (hc.not_fetches (by simp [ho])) e

theorem setCursor (hs : Holds terms owners ns s) (i : CursorId) (x : Cursor ScanOptions) :
    Holds terms owners ns (s.setCursor i x) := by
  rw [setCursor_eq]
  exact hs.congr rfl rfl rfl rfl

theorem setSource (hs : Holds terms owners ns s) {h : HandleId}
    (ho : ∀ b i, owners[h]? ≠ some (.slot b i)) (hw : ∀ c step, owners[h]? ≠ some (.step c step))
    (t : Ticket) : Holds terms owners ns (s.setSource h (.exchange t)) :=
  hs.of_consistent (connection_setSource s h _) fun _ _ hc =>
    hc.setSource (.inl ⟨t, rfl, ho⟩) (hc.not_fetches hw)

end Holds

/-! ## Steps that wait for no page -/

namespace Rests

variable {terms : Terms} {owners : List Owner} {ns : List (Notice Listener)} {h : HandleId}
  {s : Session}

theorem holds (hs : Rests terms owners ns h s) : Holds terms owners ns s := by
  obtain ⟨L, T, hv, hc, -, -⟩ := hs
  exact ⟨L, T, hv, hc⟩

theorem setCursor (hs : Rests terms owners ns h s) (i : CursorId) (x : Cursor ScanOptions) :
    Rests terms owners ns h (s.setCursor i x) := by
  obtain ⟨L, T, hv, hc, hf, hn⟩ := hs
  rw [setCursor_eq]
  exact ⟨L, T, hv.congr rfl, hc.congr rfl rfl rfl, hf, hn⟩

/-- The step ends. -/
theorem endHandle (hs : Rests terms owners ns h s) {c : CursorId} {step : Step}
    (ho : owners[h]? = some (.step c step)) (e : Ending) :
    Holds terms owners ns (s.endHandle h e) := by
  obtain ⟨L, T, hv, hc, hf, -⟩ := hs
  exact ⟨L, T, hv.congr (connection_endHandle ..), hc.endHandle_of_not_relied ho (fun h => h) hf e⟩

/-- A step of a cursor goes as far as it goes. -/
theorem proceed (hs : Rests terms owners ns h s) {again : Session → Session} {c : CursorId}
    {step : Step} (ho : owners[h]? = some (.step c step))
    (hagain : ∀ s, Rests terms owners ns h s → Holds terms owners ns (again s))
    (p : Progress ScanOptions) : Holds terms owners ns (s.proceed again h c p) := by
  cases p with
  | ended cursor r => exact (hs.setCursor c cursor).endHandle ho _
  | fetch cursor => exact hagain _ (hs.setCursor c cursor)

end Rests

namespace Holds

variable {terms : Terms} {owners owners' : List Owner} {ns ms : List (Notice Listener)}
  {s s' : Session}

/-! ## One notice -/

/-- Whoever is told next listens to an exchange of which it was not told. -/
theorem listens_next {n : Notice Listener} (hs : Holds terms owners (n :: ns) s) :
    ∃ t, s.Listens terms.given owners t none n.listener := by
  obtain ⟨L, T, hv, hc⟩ := hs
  obtain ⟨t, T', hl, hbefore, -⟩ := hv.next
  exact ⟨t, hbefore ▸ hc.listening t _ hl⟩

/-- A notice is told. -/
theorem tellWith {n : Notice Listener} {again : HandleId → CursorId → Step → Session → Session}
    (hs : Holds terms owners (n :: ns) s)
    (hagain : ∀ h i step s, owners[h]? = some (.step i step) → Rests terms owners ns h s →
      Holds terms owners ns (again h i step s)) :
    Holds terms owners ns (s.tellWith again n) := by
  obtain ⟨L, T, hv, hc⟩ := hs
  obtain ⟨t, T', hl, hbefore, hafter, hother, hnext⟩ := hv.next
  have hlisten := hc.listening t _ hl
  rw [hbefore] at hlisten
  -- the session that agrees when the notice was told
  have hdone {s' : Session} (hs' : s'.connection = s.connection)
      (h : Consistent terms owners L T' none s') : Holds terms owners ns s' :=
    ⟨L, T', hnext.congr hs', h⟩
  obtain ⟨l, o⟩ := n
  cases hlisten with
  | @reading _ h f hr ho hk =>
    -- the handle ends
    rw [tellWith_reading hr]
    have hb : l.batch? = none := by cases l <;> first | rfl | cases hr
    have hw : l.owner t = .exchange t := by cases l <;> first | rfl | cases hr
    have hnew := hk.told (hc.lt_length ho) o
    refine hdone (by simp) ?_
    exact hb ▸ hc.told_endHandle hl hbefore hafter hother (hw ▸ ho) (by simp [hw]) (f o)
      (.reading hr ho hnew)
  | @frame b x hx hsp =>
    -- the batch counts
    exact hdone (by simp [Session.tellWith])
      (hc.told_self hl hbefore hafter hother (.frame hx hsp)).countDown
  | @slot b x i slot hx hsp hi hk =>
    -- the slot is filled, and the batch counts
    have ho := hc.slot b x i slot hx hi
    refine hdone (by simp [Session.tellWith]) (Consistent.countDown ?_)
    dsimp only
    rw [fillSlot_eq hx hi]
    split
    · next hf =>
      -- its handle was given up before
      refine hc.told_self hl hbefore hafter hother
        (.slot hx hsp hi (.inr (hk.resolve_left fun hn => ?_)))
      exact hc.filled b x hx slot (List.mem_of_getElem? hi) hf hn
    · rw [setBatch_endHandle]
      have hnew := hk.told (hc.lt_length ho) o
      have htold := hc.told_endHandle hl hbefore hafter hother ho (by simp [Listener.owner]) _
        (.slot (by simpa using hx) hsp hi hnew)
      refine htold.fill (by simpa using hx) hi ?_
      rcases hnew with hnew | ⟨-, hnew⟩ <;> simp [hnew]
  | @fetching h i step ho hk =>
    -- the cursor goes on, and the step waits for no other page
    have hidle : ¬ Fetches L T' h :=
      hc.not_fetches_of_told hl hbefore (by simp [hafter]) hother
    have hsame := hc.told_self hl hbefore hafter hother (.fetching ho fun hn => (by cases hn))
    have hs' : Rests terms owners ns h s := ⟨L, T', hnext, hsame, hidle, (hk rfl).1⟩
    simp only [Session.tellWith]
    split
    · exact hs'.holds
    · exact hs'.endHandle ho _
    · exact hs'.proceed ho (fun s hs => hagain h i step s ho hs) _
    · exact hs'.proceed ho (fun s hs => hagain h i step s ho hs) _

/-! ## Sending -/

section Sent

variable {name : Value} {args : List Value} {l : Listener}

/-- A command that is not sent. -/
theorem send_error (hs : Holds terms owners ns s) {e : Error}
    (h : (s.send name args l).2.2 = .error e) :
    (s.send name args l).2.1 = [] ∧ Holds terms owners ns (s.send name args l).1 := by
  obtain ⟨L, T, hv, hc⟩ := hs
  obtain ⟨hn, hv⟩ := hv.send_error h
  exact ⟨hn, L, T, hv, hc.congr (by simp) (by simp) (by simp)⟩

/-- A command that is sent for somebody who is there already. -/
theorem send_ok (hs : Holds terms owners ns s) {t : Ticket}
    (h : (s.send name args l).2.2 = .ok t) (hb : l.batch? = none)
    (hl : s.Listens terms.given owners t none l) :
    Holds terms owners ((s.send name args l).2.1 ++ ns) (s.send name args l).1 := by
  obtain ⟨L, T, hv, hc⟩ := hs
  obtain ⟨hn, ht, L', hl', hu, hv⟩ := hv.send_ok h
  refine ⟨L', T, hv, Consistent.congr ?_ (handles_send ..) (batches_send ..) (closers_send ..)⟩
  refine hc.enlist hn hl' hu ht hl (fun b i he => ?_) fun b he => ?_
  · rw [he] at hb
    cases hb
  · cases hb.symm.trans he

end Sent

/-- What a command brought about at once is told. -/
theorem tellEarly (hs : Holds terms owners (ms ++ ns) s) : Holds terms owners ns (s.tellEarly ms) := by
  induction ms generalizing s with
  | nil => exact hs
  | cons n ms ih => exact ih (hs.tellWith fun _ _ _ _ _ hs => hs.holds)

/-- What is told changes no connection, since no client is about to be ready, unless a page is asked
for. -/
theorem connection_tellWith {n : Notice Listener}
    {again : HandleId → CursorId → Step → Session → Session} (hs : Holds terms owners (n :: ns) s)
    (hagain : ∀ h i step t, t.connection = s.connection →
      (again h i step t).connection = s.connection) :
    (s.tellWith again n).connection = s.connection := by
  have hproceed (h : HandleId) (i : CursorId) (step : Step) (p : Progress ScanOptions) :
      (s.proceed (again h i step) h i p).connection = s.connection := by
    cases p with
    | ended cursor r => exact (connection_endHandle ..).trans (connection_setCursor ..)
    | fetch cursor => exact hagain h i step _ (connection_setCursor ..)
  obtain ⟨t, hl⟩ := hs.listens_next
  obtain ⟨l, o⟩ := n
  cases hl with
  | reading hr =>
    rw [tellWith_reading hr]
    exact connection_endHandle ..
  | frame => exact connection_countDown
  | slot => exact connection_countDown.trans (connection_fillSlot ..)
  | fetching =>
    simp only [Session.tellWith]
    split
    · rfl
    · exact connection_endHandle ..
    · exact hproceed ..
    · exact hproceed ..

theorem connection_tellEarly (hs : Holds terms owners (ms ++ ns) s) :
    (s.tellEarly ms).connection = s.connection := by
  induction ms generalizing s with
  | nil => rfl
  | cons n ms ih =>
    exact (ih (hs.tellWith fun _ _ _ _ _ hs => hs.holds)).trans
      (hs.connection_tellWith fun _ _ _ _ ht => ht)

/-- A notice does not end the handle of a batch that does not count yet. -/
theorem ending?_tellWith {n : Notice Listener} (hs : Holds terms owners (n :: ns) s) {h : HandleId}
    {b : BatchId} (ho : owners[h]? = some (.batch b))
    (hrun : ∀ x : Batch, s.batches[b]? = some x → x.run = none) :
    (s.tellWith (fun _ _ _ s => s) n).ending? h = s.ending? h := by
  obtain ⟨L, T, hv, hc⟩ := hs
  -- neither another owner's handle is this one, nor that of a batch that counts
  have hne {k : HandleId} {w : Owner} (hk : owners[k]? = some w) (hw : w ≠ .batch b) : h ≠ k := by
    rintro rfl
    exact hw (Option.some.inj (hk.symm.trans ho))
  have hcount {d : BatchId} {x : Batch} {r : Run} (hx : s.batches[d]? = some x)
      (hr : x.run = some r) : h ≠ r.handle := by
    refine hne (hc.counts d x r hx hr).owner fun hd => ?_
    obtain rfl := Owner.batch.inj hd
    cases (hrun x hx).symm.trans hr
  obtain ⟨t, T', hl, -⟩ := hv.next
  obtain ⟨l, o⟩ := n
  cases hc.listening t l hl with
  | reading hr hk =>
    rw [tellWith_reading hr]
    exact ending?_endHandle_of_ne s _ (hne hk (by simp))
  | frame => exact ending?_countDown_of_ne fun x r => hcount
  | @slot d x i slot hx hsp hi =>
    refine (ending?_countDown_of_ne fun y r hy hr => ?_).trans ?_
    · -- a batch whose slot is filled counts as it did
      obtain ⟨y', hy', hxy⟩ := keptByTelling_later.fillSlot d i o s d x hx
      obtain rfl := Option.some.inj (hy.symm.trans hy')
      have hkey := hxy.run_eq
      rw [hr, Option.map_some, eq_comm] at hkey
      obtain ⟨r', hr', hkey⟩ := Option.map_eq_some_iff.1 hkey
      have hh : r'.handle = r.handle := congrArg Prod.fst hkey
      rw [← hh]
      exact hcount hx hr'
    · rw [fillSlot_eq hx hi]
      split
      · rfl
      · exact ending?_endHandle_of_ne _ _ (hne (hc.slot d x i slot hx hi) (by simp))
  | fetching hk =>
    have hh := hne hk (by simp)
    simp only [Session.tellWith]
    split
    · rfl
    · exact ending?_endHandle_of_ne s _ hh
    · exact ending?_proceed_of_ne hh ..
    · exact ending?_proceed_of_ne hh ..

/-- What is told early does not end the handle of a batch that does not count yet. -/
theorem ending?_tellEarly (hs : Holds terms owners (ms ++ ns) s) {h : HandleId} {b : BatchId}
    (ho : owners[h]? = some (.batch b)) (hrun : ∀ x : Batch, s.batches[b]? = some x → x.run = none) :
    (s.tellEarly ms).ending? h = s.ending? h := by
  induction ms generalizing s with
  | nil => rfl
  | cons n ms ih =>
    refine (ih (hs.tellWith fun _ _ _ _ _ hs => hs.holds) fun x hx => ?_).trans
      (hs.ending?_tellWith ho hrun)
    -- the batch does not count afterwards either
    have hlater : Session.Later s (s.tellWith (fun _ _ _ s => s) n) :=
      keptByTelling_later.tellWith (fun _ _ _ => keptByTelling_later.refl) n s
    obtain ⟨L, T, -, hc⟩ := hs
    obtain ⟨y, hy, -⟩ := hc.spent h b ho
    obtain ⟨x', hx', hxy⟩ := hlater b y hy
    obtain rfl := Option.some.inj (hx.symm.trans hx')
    simpa [hrun y hy] using hxy.run_eq

end Holds

/-- A step of a cursor asks for a page. -/
theorem Rests.requestPage {terms : Terms} {owners : List Owner} {ns : List (Notice Listener)}
    {s : Session} {h : HandleId} (hs : Rests terms owners ns h s) {i : CursorId} {step : Step}
    (ho : owners[h]? = some (.step i step)) :
    Holds terms owners ns (s.requestPage h i step) := by
  unfold Session.requestPage
  split
  · exact hs.holds
  · split
    · exact hs.proceed ho (fun _ hs => hs.holds) _
    · next command _ =>
      dsimp only
      obtain ⟨L, T, hv, hc, hf, hn⟩ := hs
      split
      · next hr =>
        have hrests : Rests terms owners ns h
            (s.send (.bytes command.name) command.args (.fetching h i step)).1 :=
          ⟨L, T, (hv.send_error hr).2, hc.congr (by simp) (by simp) (by simp), hf, by simpa using hn⟩
        exact hrests.proceed ho (fun _ hs => hs.holds) _
      · next t hr =>
        obtain ⟨hl, ht, L', hl', hu, hv'⟩ := hv.send_ok hr
        -- the handle has its new source before anybody listens for it
        have hsource := hc.setSource (.inl ⟨t, rfl, by simp [ho]⟩) hf
        have hlisten : (s.setSource h (.exchange t)).Listens terms.given owners t none
            (.fetching h i step) := by
          refine .fetching ho fun _ => ⟨by simpa using hn, ?_⟩
          rw [source?_setSource, if_pos ⟨rfl, hc.lt_length ho⟩]
        refine Holds.tellEarly ⟨L', T, hv'.congr (connection_setSource ..), ?_⟩
        refine (hsource.enlist hl hl' hu ht hlisten nofun nofun).congr ?_ (by simp) (by simp)
        rw [setSource_eq, setSource_eq, handles_send]

namespace Holds

variable {terms : Terms} {owners : List Owner} {ns ms : List (Notice Listener)} {s : Session}

/-! ## All notices -/

/-- Notices are told one after the other. -/
theorem tellAll (hs : Holds terms owners (ms ++ ns) s) : Holds terms owners ns (s.tellAll ms) := by
  induction ms generalizing s with
  | nil => exact hs
  | cons n ms ih => exact ih (hs.tellWith fun _ _ _ _ ho hs => hs.requestPage ho)

/-- An operation of the connection reports what is to be told. -/
theorem report (hs : Holds terms owners [] s) {c : Connection Listener} (hc : s.connection = some c)
    {r : Connection Listener × List (Notice Listener)} (hr : Connection.Reports c r)
    (hd : r.1.due = []) : Holds terms owners r.2 { s with connection := some r.1 } := by
  obtain ⟨L, T, hv, hcons⟩ := hs
  have htold : View L T (r.2 ++ []) { s with connection := some r.1 } := hv.report hc hr hd rfl
  rw [List.append_nil] at htold
  exact ⟨L, T, htold, hcons.congr rfl rfl rfl⟩

/-- Something happens to the connection. -/
theorem happen (hs : Holds terms owners [] s)
    {f : Connection Listener → Connection Listener × List (Notice Listener)}
    (hr : ∀ c, Connection.Reports c (f c)) (hd : ∀ c, (f c).1.due = []) :
    Holds terms owners [] (s.happen f) := by
  obtain ⟨c, hc⟩ := hs.exists_connection
  simp only [Session.happen, hc]
  refine tellAll ?_
  rw [List.append_nil]
  exact hs.report hc (hr c) (hd c)

end Holds

end Session

end SortedSets

import SortedSets.Proofs.Scan.Account
import SortedSets.Proofs.Session.Delivered

/-!
# The pages of a cursor in a session

Steps of a cursor, replies, and whatever else a client does with its connection, in any order. All
pages that arrive for a cursor go into its account: their items were delivered by the steps of the
cursor or wait, each once, as long as nobody closes the cursor.

## Main definitions

* `Session.arrivals`: what arrives for a cursor in a run
* `Session.stepsOf`: the handles of the steps of a cursor
* `Session.made?`: a cursor as it was made
* `Session.Follows`: a cursor with its account in a session
* `Session.Accounted`: the same with the owners of all handles

## Main results

* `Session.Follows.tell`, `Session.Follows.step`: an answer that is told, and a step
* `Session.Accounted.act`: what every act does
* `Session.exists_accounted`: the account of a cursor in every run
-/

namespace SortedSets

/-- What an answer comes to that is for a step of the cursor `c`. -/
def Notice.arrival? (c : CursorId) (n : Notice Listener) : Option Arrival :=
  match n.listener, n.outcome with
  | .fetching _ i _, .reply r =>
    if i = c then some (.ofResult decodePairs (Session.pageOf r.toValue)) else none
  | _, _ => none

theorem Notice.arrival?_of_isReply {c : CursorId} {n : Notice Listener}
    (hn : n.outcome.isReply = false) : n.arrival? c = none := by
  obtain ⟨l, o⟩ := n
  cases o with
  | reply r => cases hn
  | failed | cancelled => cases l <;> rfl

/-! ## Cursors that are made -/

/-- A cursor is made at the start of its scan. -/
theorem Command.start_of_zscanIter {mode : Mode} {key options next : Value}
    {cursor : Cursor ScanOptions} (h : zscanIter mode key options next = .ok cursor) :
    ∃ id o, cursor = .start id o := by
  simp only [zscanIter, bind, Except.bind, pure, Except.pure] at h
  grind

theorem Method.start_of_call {m : Method} {mode : Mode} {args : List Value}
    {named : List (String × Value)} {key : Value} {cursor : Cursor ScanOptions}
    (h : m.call mode args named = .ok (.scan key cursor)) :
    ∃ id o, cursor = .start id o := by
  have hscan {k : Value} {r : Except Error (Cursor ScanOptions)}
      (h : r.map (Call.scan k) = .ok (.scan key cursor)) : r = .ok cursor := by
    cases r with
    | error e => cases h
    | ok d =>
      cases h
      rfl
  have hsend {r : Except Error Command} (h : r.map Call.send = .ok (.scan key cursor)) : False := by
    cases r <;> cases h
  unfold call at h
  cases ha : m.signature.bind args named with
  | error e =>
    rw [ha] at h
    cases h
  | ok a =>
    rw [ha] at h
    replace h : m.apply mode a = .ok (.scan key cursor) := h
    -- only two methods make cursors, and both start them in the same way
    cases m with
    | zscanIter => exact Command.start_of_zscanIter (hscan h)
    | izscan =>
      replace h := hscan h
      unfold Command.izscan at h
      cases ho : ScanOptions.ofValues (a.get "match") (a.get "count") with
      | error e =>
        rw [ho] at h
        cases h
      | ok o =>
        rw [ho] at h
        exact Command.start_of_zscanIter h
    | _ => exact (hsend h).elim

namespace Session

variable {c i : CursorId} {K : List HandleId} {arrived : List Arrival} {s t : Session}
  {first? : Option Scan} {terms : Terms} {owners : List Owner}

/-! ## What happens in a run -/

/-- What can be seen of each act of a run, in order. -/
def observed {α : Type} (f : Session → Act → List α) : Session → List Act → List α
  | _, [] => []
  | s, a :: acts => f s a ++ observed f (s.act a) acts

theorem observed_snoc {α : Type} (f : Session → Act → List α) (s : Session) (acts : List Act)
    (a : Act) : observed f s (acts ++ [a]) = observed f s acts ++ f (s.after acts) a := by
  induction acts generalizing s with
  | nil => simp [observed]
  | cons b acts ih => simp [observed, ih]

/-- What arrives for the cursor `c` in an act. Nothing arrives for a cursor that is not there. -/
def arriving (c : CursorId) (s : Session) : Act → List Arrival
  | .receive piece =>
    match s.scans[c]?, s.connection with
    | some _, some d => (d.receive piece).2.filterMap (Notice.arrival? c)
    | _, _ => []
  | _ => []

/-- The handle of the step of the cursor `c` that an act is. -/
def stepping (c : CursorId) (s : Session) (a : Act) : List HandleId :=
  if a.step?.map Prod.fst = some c then [s.nextHandle] else []

/-- What arrives for the cursor `c` in a run. -/
def arrivals (c : CursorId) : Session → List Act → List Arrival :=
  observed (arriving c)

/-- The handles of the steps of the cursor `c` in a run. -/
def stepsOf (c : CursorId) : Session → List Act → List HandleId :=
  observed (stepping c)

/-- What the steps of the cursor `c` have delivered after a run. -/
def deliveries (c : CursorId) (s : Session) (acts : List Act) : List Delivery :=
  (stepsOf c s acts).filterMap (s.after acts).delivered?

/-- The cursor `c` as it is when it is made in a run. -/
def made? (c : CursorId) : Session → List Act → Option Scan
  | s, [] => s.scans[c]?
  | s, a :: acts => s.scans[c]? <|> made? c (s.act a) acts

theorem made?_snoc (c : CursorId) (s : Session) (acts : List Act) (a : Act) :
    made? c s (acts ++ [a]) = (made? c s acts <|> (s.after (acts ++ [a])).scans[c]?) := by
  induction acts generalizing s with
  | nil => rfl
  | cons b acts ih =>
    rw [List.cons_append, made?, made?, ih, after_cons]
    cases s.scans[c]? <;> rfl

/-! ## A cursor with its account -/

/-- The cursor `c`, which was made as `first?`, has the account of all that arrived for it and of
all that its steps delivered. -/
inductive Follows (c : CursorId) (K : List HandleId) (arrived : List Arrival) (s : Session) :
    Option Scan → Prop
  | absent (hc : s.scans[c]? = none) (ha : arrived = []) (hd : ∀ h ∈ K, s.delivered? h = none) :
      Follows c K arrived s none
  | there {first scan : Scan} (hc : s.scans[c]? = some scan) (hkey : scan.key = first.key)
      (h : first.cursor.Stands arrived (K.filterMap s.delivered?) scan.cursor) :
      Follows c K arrived s (some first)

/-- A step that delivers puts its delivery beside those of the others. -/
theorem filterMap_delivered (hK : K.Nodup) {h : HandleId} (hh : h ∈ K) (hn : s.ending? h = none)
    (hlt : h < s.handles.length) {e : Ending} {d : Delivery} (hd : e.delivery? = some d) :
    (K.filterMap (s.endHandle h e).delivered?).Perm (d :: K.filterMap s.delivered?) := by
  have hbefore : s.delivered? h = none := by rw [delivered?, hn]; rfl
  have hafter : (s.endHandle h e).delivered? h = some d := by
    rw [delivered?, ending?_endHandle_self s e hlt, hn]
    exact hd
  -- the other steps are as they were
  have hother : (K.erase h).filterMap (s.endHandle h e).delivered? =
      (K.erase h).filterMap s.delivered? := by
    refine List.filterMap_congr fun k hk => ?_
    have hne : k ≠ h := (hK.mem_erase_iff.1 hk).1
    rw [delivered?, ending?_endHandle_of_ne s e hne, delivered?]
  have hsplit := List.perm_cons_erase hh
  have hnew := hsplit.filterMap (s.endHandle h e).delivered?
  have hold := hsplit.filterMap s.delivered?
  rw [List.filterMap_cons_some hafter, hother] at hnew
  rw [List.filterMap_cons_none hbefore] at hold
  exact hnew.trans (hold.symm.cons d)

namespace Still

/-- A step of another cursor goes as far as it goes. -/
theorem proceed_of_ne (hi : i ≠ c) {h : HandleId} (hh : h ∉ K) {again : Session → Session}
    (hagain : ∀ t, t.connection = s.connection → Still c K t (again t))
    (p : Progress ScanOptions) : Still c K s (s.proceed again h i p) := by
  have hmoved (x : Cursor ScanOptions) : Still c K s (s.setCursor i x) :=
    of_same (getElem?_setCursor_of_ne hi x) fun k => ending?_setCursor s k i x
  cases p with
  | ended x r => exact (hmoved x).trans (endHandle (.inl hh))
  | fetch x => exact (hmoved x).trans (hagain _ (connection_setCursor ..))

theorem filterMap_eq (h : Still c K s t) : K.filterMap t.delivered? = K.filterMap s.delivered? :=
  List.filterMap_congr h.delivered_eq

end Still

namespace Follows

theorem still (h : Follows c K arrived s first?) (hst : Still c K s t) :
    Follows c K arrived t first? := by
  cases h with
  | absent hc ha hd =>
    exact .absent (hst.scan_eq.trans hc) ha fun k hk => (hst.delivered_eq k hk).trans (hd k hk)
  | there hc hkey h => exact .there (hst.scan_eq.trans hc) hkey (hst.filterMap_eq ▸ h)

/-- A cursor is made once. -/
theorem made_eq (h : Follows c K arrived s first?) : (first? <|> s.scans[c]?) = first? := by
  cases h with
  | absent hc => exact hc
  | there => rfl

/-- A step of a cursor as far as it goes, given what it comes to. -/
theorem proceed {first scan : Scan} (hc : s.scans[c]? = some scan) (hkey : scan.key = first.key)
    (hK : K.Nodup) {h : HandleId} (hh : h ∈ K) (hn : s.ending? h = none)
    (hlt : h < s.handles.length) {p : Progress ScanOptions}
    (hp : first.cursor.Goes arrived (K.filterMap s.delivered?) p) {again : Session → Session}
    (hagain : ∀ t, t.connection = s.connection → Still c K t (again t)) :
    Follows c K arrived (s.proceed again h c p) (some first) := by
  -- moving a cursor delivers nothing
  have hset (x : Cursor ScanOptions) : K.filterMap (s.setCursor c x).delivered? =
      K.filterMap s.delivered? := by
    refine List.filterMap_congr fun k _ => ?_
    rw [delivered?, ending?_setCursor, delivered?]
  have hmoved {x : Cursor ScanOptions}
      (hx : first.cursor.Stands arrived (K.filterMap s.delivered?) x) :
      Follows c K arrived (s.setCursor c x) (some first) :=
    .there (getElem?_setCursor_self hc x) hkey (hset x ▸ hx)
  cases p with
  | fetch x => exact (hmoved hp).still (hagain _ (connection_setCursor ..))
  | ended x r =>
    cases r with
    | error e => exact (hmoved hp).still (.endHandle (.inr rfl))
    | ok d =>
      have hd := filterMap_delivered (s := s.setCursor c x) hK hh
        ((ending?_setCursor ..).trans hn) (by rw [setCursor_eq]; exact hlt)
        (Ending.delivery?_endingOf (.ok d))
      rw [hset x] at hd
      have hend : (s.proceed again h c (.ended x (.ok d))).scans[c]? =
          some { scan with cursor := x } := by
        rw [Session.proceed, scans_endHandle]
        exact getElem?_setCursor_self hc x
      exact .there hend hkey (hp.perm hd)

/-! ### Answers -/

/-- An answer for a step of the cursor takes the step further, if the cursor is there. -/
theorem tell_fetching (hf : Follows c K arrived s first?) (hidle : s.Idle) (hK : K.Nodup)
    {h : HandleId} (hh : h ∈ K) (hn : s.ending? h = none) (hlt : h < s.handles.length) (step : Step)
    (r : Wire.Reply) :
    Follows c K (arrived ++ first?.elim [] fun _ => [.ofResult decodePairs (pageOf r.toValue)])
      (s.tell ⟨.fetching h c step, .reply r⟩) first? := by
  cases hf with
  | absent hc ha hd =>
    have hsame : s.tell ⟨.fetching h c step, .reply r⟩ = s := by
      simp only [Session.tell, tellWith, hc]
    rw [hsame]
    exact .absent hc (by simpa using ha) hd
  | @there first scan hc hkey hstands =>
    have htell : s.tell ⟨.fetching h c step, .reply r⟩ =
        s.proceed (fun s => s.requestPage h c step) h c
          (scan.cursor.resume decodePairs step (pageOf r.toValue)) := by
      simp only [Session.tell, tellWith, hc]
    rw [htell]
    exact proceed hc hkey hK hh hn hlt (hstands.resume decodePairs step (pageOf r.toValue))
      fun t ht => .requestPage (hidle.of_connection ht) h c step

/-- Whoever is told next. An answer for a step of the cursor takes the step further. -/
theorem tell {n : Notice Listener} {ns : List (Notice Listener)}
    (hf : Follows c K arrived s first?) (hs : Holds terms owners (n :: ns) s) (hK : K.Nodup)
    (hmem : ∀ h, h ∈ K ↔ ∃ way, owners[h]? = some (.step c way)) :
    Follows c K (arrived ++ first?.elim [] fun _ => (n.arrival? c).toList) (s.tell n) first? := by
  have hidle := hs.idle
  obtain ⟨t, hl⟩ := hs.listens_next
  have hnot {h : HandleId} {w : Owner} (ho : owners[h]? = some w) (hw : ∀ way, w ≠ .step c way) :
      h ∉ K := by
    intro hh
    obtain ⟨way, hway⟩ := (hmem h).1 hh
    exact hw way (Option.some.inj (ho.symm.trans hway))
  have hask (h : HandleId) (i : CursorId) (step : Step) (t : Session)
      (ht : t.connection = s.connection) : Still c K t (t.requestPage h i step) :=
    .requestPage (hidle.of_connection ht) h i step
  -- whoever does not step the cursor has no part in its account
  have hstill (ha : n.arrival? c = none) (hst : Still c K s (s.tell n)) :
      Follows c K (arrived ++ first?.elim [] fun _ => (n.arrival? c).toList) (s.tell n) first? := by
    rw [ha]
    cases first? <;> simpa using hf.still hst
  by_cases hr : n.outcome.isReply = false
  · exact hstill (Notice.arrival?_of_isReply hr) (.tellWith hr _)
  obtain ⟨l, o⟩ := n
  cases hl with
  | reading hl ho =>
    refine hstill (by cases l <;> first | rfl | cases hl) ?_
    rw [Session.tell, tellWith_reading hl]
    exact .endHandle (.inl (hnot ho (by simp)))
  | frame => exact hstill rfl (.countDown _)
  | @slot b x k slot =>
    refine hstill rfl (Still.trans (.fillSlot (.inr ?_)) (.countDown b))
    intro x' slot' hx' hk'
    exact hnot (hs.owner_of_slot hx' hk') (by simp)
  | @fetching h i step ho hk =>
    obtain ⟨hn, -⟩ := hk rfl
    cases o with
    | failed | cancelled => exact absurd rfl hr
    | reply r =>
      by_cases hi : i = c
      · subst hi
        have harrival : Notice.arrival? i ⟨.fetching h i step, .reply r⟩ =
            some (.ofResult decodePairs (pageOf r.toValue)) := if_pos rfl
        rw [harrival]
        exact hf.tell_fetching hidle hK ((hmem h).2 ⟨step, ho⟩) hn (hs.lt_length ho) step r
      · refine hstill (if_neg hi) ?_
        simp only [Session.tell, tellWith]
        split
        · exact .refl s
        · exact .endHandle (.inr rfl)
        · exact .proceed_of_ne hi (hnot ho (by simp [hi])) (hask h i step) _
        · exact .proceed_of_ne hi (hnot ho (by simp [hi])) (hask h i step) _

theorem tellAll {ns : List (Notice Listener)} (hf : Follows c K arrived s first?)
    (hs : Holds terms owners ns s) (hK : K.Nodup)
    (hmem : ∀ h, h ∈ K ↔ ∃ way, owners[h]? = some (.step c way)) :
    Follows c K (arrived ++ first?.elim [] fun _ => ns.filterMap (Notice.arrival? c)) (s.tellAll ns)
      first? := by
  induction ns generalizing arrived s with
  | nil =>
    change Follows c K _ s first?
    cases first? <;> simpa using hf
  | cons n ns ih =>
    have hnext := hs.tellWith fun _ _ _ _ ho hs => hs.requestPage ho
    have h := ih (hf.tell hs hK hmem) hnext
    change Follows c K _ ((s.tell n).tellAll ns) first?
    -- the answers are those of the first notice, if any, and of the others
    have hsplit : (n :: ns).filterMap (Notice.arrival? c) =
        (n.arrival? c).toList ++ ns.filterMap (Notice.arrival? c) := by
      cases hn : n.arrival? c <;> simp [hn]
    cases first? with
    | none => simpa using h
    | some first =>
      rw [List.append_assoc] at h
      simpa only [Option.elim_some, hsplit] using h

/-- Bytes arrive, and with them the answers for the steps of the cursor. -/
theorem receive (hf : Follows c K arrived s first?) (hs : Holds terms owners [] s) (hK : K.Nodup)
    (hmem : ∀ h, h ∈ K ↔ ∃ way, owners[h]? = some (.step c way)) (piece : Bytes) :
    Follows c K (arrived ++ arriving c s (.receive piece)) (s.receive piece) first? := by
  obtain ⟨d, hd⟩ := hs.exists_connection
  have htold := hs.report hd (Connection.reports_receive piece d) (Connection.due_followAll _)
  have h := (hf.still (t := { s with connection := some (d.receive piece).1 })
    (.of_handles rfl rfl)).tellAll htold hK hmem
  have harriving : arriving c s (.receive piece) =
      first?.elim [] fun _ => (d.receive piece).2.filterMap (Notice.arrival? c) := by
    cases hf with
    | absent hc => simp only [arriving, hc]; rfl
    | there hc => simp only [arriving, hc, hd]; rfl
  rw [harriving]
  simpa only [Session.receive, happen, hd] using h

/-! ### Steps -/

/-- The handle of a new step has delivered nothing. -/
theorem addStep (hf : Follows c K arrived s first?) :
    Follows c (K ++ [s.nextHandle]) arrived (s.addHandle .alone) first? := by
  have hnew : (s.addHandle .alone).delivered? s.nextHandle = none := by
    rw [delivered?, ending?_addHandle, nextHandle, ending?_length]
    rfl
  have hold : Still c K s (s.addHandle .alone) := .addHandle .alone
  have h := hf.still hold
  cases h with
  | absent hc ha hd =>
    refine .absent hc ha fun k hk => ?_
    rcases List.mem_append.1 hk with hk | hk
    · exact hd k hk
    · rwa [List.mem_singleton.1 hk]
  | there hc hkey h =>
    refine .there hc hkey ?_
    rwa [List.filterMap_append, List.filterMap_cons_none hnew, List.filterMap_nil, List.append_nil]

/-- A step of the cursor. -/
theorem step (hf : Follows c K arrived s first?) (hs : s.Idle) (hK : (K ++ [s.nextHandle]).Nodup)
    (way : Step) : Follows c (K ++ [s.nextHandle]) arrived (s.step c way) first? := by
  have hnew := hf.addStep
  unfold Session.step
  dsimp only
  cases hnew with
  | absent hc ha hd =>
    rw [hc]
    exact .absent hc ha hd
  | there hc hkey h =>
    rw [hc]
    refine proceed hc hkey hK (by simp) ?_ (by simp [nextHandle, addHandle]) (h.begin way) ?_
    · exact (ending?_addHandle ..).trans (ending?_length s)
    · intro t ht
      exact .requestPage (hs.of_connection ht) s.nextHandle c way

end Follows

/-- A step of another cursor. -/
theorem Still.step_of_ne (hs : s.Idle) (hi : i ≠ c) (hK : s.nextHandle ∉ K) (way : Step) :
    Still c K s (s.step i way) := by
  refine (addHandle .alone).trans ?_
  unfold Session.step
  dsimp only
  split
  · exact refl _
  · refine proceed_of_ne hi hK (fun t ht => ?_) _
    exact requestPage (hs.of_connection ht) s.nextHandle i way

/-! ### Cursors that are made and closed -/

theorem Follows.closeCursor (hf : Follows c K arrived s first?) (i : CursorId) :
    Follows c K arrived (s.closeCursor i) first? := by
  unfold Session.closeCursor
  split
  · exact hf
  · next scan hi =>
    by_cases hic : i = c
    · subst hic
      cases hf with
      | absent hc => cases hc.symm.trans hi
      | there hc hkey h =>
        obtain rfl := Option.some.inj (hc.symm.trans hi)
        refine .there (getElem?_setCursor_self hi _) hkey ?_
        -- from now on there is nothing to account for
        intro hopen
        refine absurd ?_ hopen
        unfold Cursor.close
        split
        · next hclosed => exact hclosed
        · rfl
    · exact hf.still (.of_same (getElem?_setCursor_of_ne hic _)
        fun k => ending?_setCursor s k i _)

/-- A call makes a cursor, or it leaves all cursors as they are. -/
theorem call_cases (hs : s.Idle) (method : String) (args : List Value)
    (named : List (String × Value)) :
    (∃ key id options, (s.call method args named).1 =
      { s with scans := s.scans ++ [⟨key, .start id options⟩] }) ∨
      ∀ c K, Still c K s (s.call method args named).1 := by
  unfold call
  split
  · exact .inr fun _ _ => .refl s
  · split
    · exact .inr fun _ _ => .refl s
    · next hcall =>
      obtain ⟨id, options, rfl⟩ := Method.start_of_call hcall
      exact .inl ⟨_, id, options, rfl⟩
    · right
      intro c K
      split
      · exact .sendFor hs ..
      · exact .sendFor hs ..
      · exact .sendFor hs ..

theorem Follows.call (hf : Follows c K arrived s first?) (hs : s.Idle) (method : String)
    (args : List Value) (named : List (String × Value)) :
    Follows c K arrived (s.call method args named).1
      (first? <|> (s.call method args named).1.scans[c]?) := by
  rcases call_cases hs method args named with ⟨key, id, options, h⟩ | hstill
  · rw [h]
    by_cases hc : c = s.scans.length
    · subst hc
      cases hf with
      | there hc => simp at hc
      | absent hc ha hd =>
        -- nothing arrived for it, and no step has delivered anything
        have hnone : K.filterMap s.delivered? = [] := List.filterMap_eq_nil_iff.2 hd
        simp only [List.getElem?_concat_length]
        refine .there (List.getElem?_concat_length ..) rfl ?_
        intro hopen
        rw [ha]
        exact hnone ▸ .start id options
    · have hsame : Follows c K arrived { s with scans := s.scans ++ [⟨key, .start id options⟩] }
          first? := by
        refine hf.still (.of_same ?_ fun _ => rfl)
        exact (getElem?_concat ..).trans (if_neg hc)
      rwa [hsame.made_eq]
  · have hsame := hf.still (hstill c K)
    rwa [hsame.made_eq]

/-! ## Every act -/

/-- A cursor with its account, in a session whose handles have their owners. -/
structure Accounted (terms : Terms) (owners : List Owner) (c : CursorId) (K : List HandleId)
    (arrived : List Arrival) (s : Session) (first? : Option Scan) : Prop where
  holds : Holds terms owners [] s
  nodup : K.Nodup
  mem_iff : ∀ h, h ∈ K ↔ ∃ way, owners[h]? = some (.step c way)
  follows : Follows c K arrived s first?

namespace Accounted

theorem nextHandle_notMem (ha : Accounted terms owners c K arrived s first?) :
    s.nextHandle ∉ K := by
  intro hmem
  obtain ⟨way, ho⟩ := (ha.mem_iff _).1 hmem
  exact Nat.lt_irrefl _ (ha.holds.lt_length ho)

/-- What every act but a step does to the account. -/
theorem follows_act (ha : Accounted terms owners c K arrived s first?) {a : Act}
    (hstep : a.step? = none) : Follows c K (arrived ++ arriving c s a) (s.act a)
      (first? <|> (s.act a).scans[c]?) := by
  have hidle := ha.holds.idle
  have hsame {t : Session} (hst : Still c K s t) :
      Follows c K (arrived ++ []) t (first? <|> t.scans[c]?) := by
    have hfollows := ha.follows.still hst
    rwa [List.append_nil, hfollows.made_eq]
  cases a with
  | call method args named =>
    have hfollows := ha.follows.call hidle method args named
    rwa [← List.append_nil arrived] at hfollows
  | execute name args => exact hsame (.sendFor hidle ..)
  | select db => exact hsame (.select hidle db)
  | step => cases hstep
  | closeCursor i =>
    have hfollows := ha.follows.closeCursor i
    rw [← List.append_nil arrived] at hfollows
    exact hfollows.made_eq.symm ▸ hfollows
  | newBatch transactional => exact hsame (.of_handles rfl rfl)
  | enqueue b method args named => exact hsame (.enqueue b method args named)
  | run b collectsErrors => exact hsame (.run hidle b collectsErrors)
  | cancel h => exact hsame (.cancel hidle h)
  | setBuffered on => exact hsame (.of_handles rfl rfl)
  | receive piece =>
    have hfollows := ha.follows.receive ha.holds ha.nodup ha.mem_iff piece
    exact hfollows.made_eq.symm ▸ hfollows
  | lose e =>
    have hlost := ha.holds.happen (Connection.reports_lose e) fun _ => Connection.due_followAll _
    refine hsame (.lose hidle fun p hp hK => ?_)
    -- whoever waits for the end of the connection is no step
    obtain ⟨way, ho⟩ := (ha.mem_iff _).1 hK
    obtain ⟨L, T, -, hc⟩ := hlost
    cases (hc.closer p hp).symm.trans ho
  | close => exact hsame (.of_handles rfl rfl)
  | awaitClosed v => exact hsame (.awaitClosed ha.nextHandle_notMem v)

/-- A step, be it of another cursor. -/
theorem step (ha : Accounted terms owners c K arrived s first?) (i : CursorId) (way : Step) :
    Accounted terms (owners ++ [.step i way]) c (K ++ stepping c s (.step i way))
      (arrived ++ arriving c s (.step i way)) (s.step i way)
      (first? <|> (s.step i way).scans[c]?) := by
  have hs := ha.holds.step i way
  have hidle := ha.holds.idle
  have hlength : owners.length = s.nextHandle := by
    obtain ⟨L, T, -, hc⟩ := ha.holds
    exact hc.length_eq
  have harriving : arrived ++ arriving c s (.step i way) = arrived := List.append_nil arrived
  rw [harriving]
  by_cases hi : i = c
  · subst hi
    have hstepping : stepping i s (.step i way) = [s.nextHandle] := if_pos rfl
    rw [hstepping]
    have hnodup : (K ++ [s.nextHandle]).Nodup := by
      refine List.nodup_append.2 ⟨ha.nodup, by simp, ?_⟩
      rintro h hh k hk rfl
      exact ha.nextHandle_notMem (List.mem_singleton.1 hk ▸ hh)
    have hfollows := ha.follows.step hidle hnodup way
    refine ⟨hs, hnodup, fun h => ?_, hfollows.made_eq.symm ▸ hfollows⟩
    rw [getElem?_concat, hlength, List.mem_append, List.mem_singleton, ha.mem_iff h]
    split
    · next hh => exact iff_of_true (.inr hh) ⟨way, rfl⟩
    · next hh => simp [hh]
  · have hstepping : stepping c s (.step i way) = [] := if_neg fun h => hi (Option.some.inj h)
    have hfollows := ha.follows.still (.step_of_ne hidle hi ha.nextHandle_notMem way)
    rw [hstepping, List.append_nil]
    refine ⟨hs, ha.nodup, fun h => ?_, hfollows.made_eq.symm ▸ hfollows⟩
    rw [getElem?_concat, hlength, ha.mem_iff h]
    split
    · next hh =>
      -- the new handle is that of another cursor
      subst hh
      rw [← hlength, List.getElem?_eq_none (Nat.le_refl _)]
      simp [hi]
    · rfl

/-- What every act does. -/
theorem act (ha : Accounted terms owners c K arrived s first?) (a : Act)
    (hg : ∀ h, a = .cancel h → terms.given h) :
    ∃ more, Accounted terms (owners ++ more) c (K ++ stepping c s a) (arrived ++ arriving c s a)
      (s.act a) (first? <|> (s.act a).scans[c]?) := by
  cases hstep : a.step? with
  | none =>
    obtain ⟨more, hmore, hs⟩ := ha.holds.act_of_step? hg hstep
    have hnone : stepping c s a = [] := if_neg (by simp [hstep])
    refine ⟨more, hs, ?_, fun h => ?_, ?_⟩
    · rw [hnone, List.append_nil]
      exact ha.nodup
    · rw [hnone, List.append_nil, ha.mem_iff h, List.getElem?_append]
      split
      · rfl
      · next hlt =>
        -- no handle of a step is new
        rw [List.getElem?_eq_none (Nat.not_lt.1 hlt)]
        constructor
        · rintro ⟨way, ho⟩
          cases ho
        · rintro ⟨way, ho⟩
          cases hmore _ (List.mem_of_getElem? ho)
    · rw [hnone, List.append_nil]
      exact ha.follows_act hstep
  | some p =>
    cases a with
    | step i way =>
      exact ⟨[.step i way], ha.step i way⟩
    | _ => cases hstep

end Accounted

/-- A cursor with its account, in every run. -/
theorem exists_accounted (address : Value × Value) (timeout : Timeout) (c : CursorId)
    (acts : List Act) : ∃ owners, Accounted (.ofGiven fun _ => True) owners c
      (stepsOf c (connected address timeout) acts) (arrivals c (connected address timeout) acts)
      ((connected address timeout).after acts) (made? c (connected address timeout) acts) := by
  induction acts using List.reverseRec with
  | nil =>
    refine ⟨[], holds_connected _ address timeout, List.nodup_nil, ?_, ?_⟩
    · intro h
      exact iff_of_false List.not_mem_nil (by simp)
    · exact .absent rfl rfl (by simp [stepsOf, observed])
  | append_singleton acts a ih =>
    obtain ⟨owners, ha⟩ := ih
    obtain ⟨more, hnext⟩ := ha.act a fun _ _ => trivial
    refine ⟨owners ++ more, ?_⟩
    rw [made?_snoc, stepsOf, observed_snoc, arrivals, observed_snoc, after_append]
    exact hnext

end Session

end SortedSets

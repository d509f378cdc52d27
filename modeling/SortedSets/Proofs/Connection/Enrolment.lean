import SortedSets.Proofs.Connection.Sound

/-!
# The roles of the commands of a run

What the reply to a command means depends on the words of the commands alone, in the order in
which they were handed over: not on the server, nor on the times at which replies come or callers
give up. So it can be read off a script of direct commands and transactions.

## Main definitions

* `verbs`, `enrolAll`: the verbs of a run, and the roles that verbs lead to
* `Item`, `RawTransaction`, `Part`: scripts of direct commands and transactions
* `RawTransaction.Placed`: the commands of a transaction have their roles

## Main results

* `roles_run`: the roles of a run in which the transport is not lost
* `placed_run`: each transaction of a script has its roles, and each direct command its own
-/

namespace SortedSets

variable {Listener : Type}

/-! ## Verbs -/

/-- The verb of the command that an event hands over, unless the command is refused; a word that
is no text has none. -/
def Event.verb? (c : Connection Listener) : Event Listener → Option (Option Verb)
  | .submit name args _ =>
    match c.requestOf name args with
    | .ok _ => some (Verb.ofWord name).toOption
    | .error _ => none
  | _ => none

/-- The verbs of the commands of a run, in the order in which they were handed over. -/
def verbs (c : Connection Listener) : List (Event Listener) → List (Option Verb)
  | [] => []
  | e :: es => (e.verb? c).toList ++ verbs (c.step e) es

theorem verbs_append (c : Connection Listener) (es fs : List (Event Listener)) :
    verbs c (es ++ fs) = verbs c es ++ verbs (c.run es) fs := by
  induction es generalizing c with
  | nil => rfl
  | cons e es ih => simp [verbs, ih]

theorem verbs_snoc (c : Connection Listener) (es : List (Event Listener)) (e : Event Listener) :
    verbs c (es ++ [e]) = verbs c es ++ (e.verb? (c.run es)).toList := by
  simp [verbs_append, verbs]

/-- Roles so far and the open transaction, with the next command added. A word that is no text
changes no transaction. -/
def enrolWord (s : List Role × Option (List Ticket)) (w : Option Verb) :
    List Role × Option (List Ticket) :=
  match w with
  | some verb =>
    let (role, transaction) := Connection.classify verb s.2 s.1.length
    (s.1 ++ [role], transaction)
  | none => (s.1 ++ [.plain], s.2)

/-- Roles so far and the open transaction, with more commands added. -/
def enrolAll (s : List Role × Option (List Ticket)) (ws : List (Option Verb)) :
    List Role × Option (List Ticket) :=
  ws.foldl enrolWord s

theorem enrolAll_append (s : List Role × Option (List Ticket)) (vs ws : List (Option Verb)) :
    enrolAll s (vs ++ ws) = enrolAll (enrolAll s vs) ws :=
  List.foldl_append

/-- Later commands leave the roles of earlier ones alone. -/
theorem prefix_enrolAll (s : List Role × Option (List Ticket)) (ws : List (Option Verb)) :
    s.1 <+: (enrolAll s ws).1 := by
  induction ws generalizing s with
  | nil => exact List.prefix_refl _
  | cons w ws ih =>
    refine List.IsPrefix.trans ?_ (ih (enrolWord s w))
    cases w <;> exact List.prefix_append _ _

/-! ## Runs -/

namespace Connection

theorem length_roles (c : Connection Listener) : c.roles.length = c.exchanges.length :=
  List.length_map ..

/-- A connection is in the mode of transactions while one is open. -/
theorem mode_eq_iff {c : Connection Listener} :
    c.mode = .transactional ↔ c.transaction.isSome = true := by
  unfold mode inTransaction
  split <;> simp_all

/-- An event that sends nothing leaves the roles alone. -/
theorem roles_step {c : Connection Listener} {e : Event Listener}
    (h : (c.step e).exchanges.length = c.exchanges.length) : (c.step e).roles = c.roles := by
  refine List.ext_getElem? fun t => ?_
  rw [getElem?_roles, getElem?_roles]
  -- a role that is there stays, and there are no more commands than before
  cases hr : c.role? t with
  | some r => exact role?_run hr [e]
  | none =>
    have hle : c.roles.length ≤ t := List.getElem?_eq_none_iff.1 ((getElem?_roles c t).trans hr)
    rw [length_roles] at hle
    refine (getElem?_roles _ t).symm.trans (List.getElem?_eq_none ?_)
    rwa [length_roles, h]

/-- What an event does to the roles and to the open transaction, as long as the transport is
there. -/
theorem enrolment_step {given : Ticket → Outcome → Prop} {c : Connection Listener}
    (h : Course given c) {e : Event Listener} (hl : (c.step e).attached = true) :
    ((c.step e).roles, (c.step e).transaction) =
      enrolAll (c.roles, c.transaction) (e.verb? c).toList := by
  -- an event that sends nothing and keeps the open transaction
  have hsame (hx : (c.step e).exchanges.length = c.exchanges.length)
      (ht : (c.step e).transaction = c.transaction) (hv : e.verb? c = none) :
      ((c.step e).roles, (c.step e).transaction) =
        enrolAll (c.roles, c.transaction) (e.verb? c).toList := by
    rw [roles_step hx, ht, hv]
    rfl
  have hout := (step_outside c e).length_eq
  cases e with
  | submit name args l =>
    rcases submit_cases name args l c with ⟨e, hd, hs, -⟩ | ⟨data, e, hd, hw, hs, -⟩ |
      ⟨data, verb, hd, hw, hs, -⟩
    · refine hsame ?_ ?_ ?_
      · rw [step, hs]
      · rw [step, hs]
      · simp only [Event.verb?, hd]
    · -- a word that is no text
      have hv : Event.verb? c (.submit name args l) = some none := by
        simp only [Event.verb?, hd, hw]
        rfl
      rw [step, hs, roles_enlist, emit_frame, hv]
      rfl
    · -- a command of a known verb; its timeout may end it, but changes no role
      have hv : Event.verb? c (.submit name args l) = some (some verb) := by
        simp only [Event.verb?, hd, hw]
        rfl
      rw [step, hs, (quiet_startTimeout _ _).roles_eq, transaction_startTimeout, hv, emit_frame]
      simp only [Option.toList_some, enrolAll, List.foldl_cons, List.foldl_nil, enrolWord,
        length_roles]
      refine Prod.ext ?_ rfl
      exact roles_enlist ..
  | giveUp t => exact hsame hout (transaction_giveUp t c) rfl
  | abandon t => exact hsame hout rfl rfl
  | expire t => exact hsame hout (transaction_expire t c) rfl
  | deliver piece => exact hsame hout (by rw [step, deliver_frame, assign_frame]) rfl
  | follow =>
    refine hsame hout ?_ rfl
    rcases followNext_cases c with ⟨-, he⟩ | ⟨t, o, ds, -, he⟩ | ⟨ds, hd, -⟩
    · rw [step, he]
    · rw [step, he, settleAll_eq]
    · -- the transport would be lost already
      have hf := h.lost_of_due (hd ▸ List.mem_cons_self)
      have ha := (quiet_followNext c).attached_eq
      cases hl.symm.trans (ha.trans hf)
  | enterBuffer => exact hsame hout rfl rfl
  | leaveBuffer =>
    exact hsame (by rw [step, leaveBuffer_frame]) (by rw [step, leaveBuffer_frame]) rfl
  | close => exact hsame (by rw [step, close_frame]) (by rw [step, close_frame]) rfl
  | drop x => cases hl

end Connection

/-- The roles of a run in which the transport is not lost, and the open transaction, follow from its
verbs. -/
theorem roles_run (address : Value × Value) (timeout : Timeout) (es : List (Event Listener))
    (hl : ((Connection.start address timeout : Connection Listener).run es).attached = true) :
    (((Connection.start address timeout : Connection Listener).run es).roles,
        ((Connection.start address timeout : Connection Listener).run es).transaction) =
      enrolAll ([], none) (verbs (.start address timeout) es) := by
  induction es using List.reverseRec with
  | nil => rfl
  | append_singleton es e ih =>
    rw [Connection.run_append] at hl ⊢
    have hs := Connection.enrolment_step (sound_run address timeout es).course hl
    rw [verbs_snoc, enrolAll_append, ← ih (Connection.attached_of_step hl)]
    exact hs

/-! ## Scripts -/

/-- What a client sends inside of a transaction: a command, or another opening of a transaction,
which the server refuses. -/
inductive Item where
  | command
  | nested
deriving DecidableEq

/-- A transaction as a client sends it: an opening, items, and an end. -/
structure RawTransaction where
  items : List Item
  discards : Bool

/-- A script is made of direct commands and transactions. -/
inductive Part where
  | direct
  | transaction (T : RawTransaction)

namespace Item

/-- The verb of an item. -/
def verb : Item → Verb
  | command => .other
  | nested => .multi

/-- What the reply to an item means. -/
def role : Item → Role
  | command => .queued
  | nested => .plain

/-- The tickets of the commands among items that follow each other. -/
def queueFrom : Ticket → List Item → List Ticket
  | _, [] => []
  | t, command :: is => t :: queueFrom (t + 1) is
  | t, nested :: is => queueFrom (t + 1) is

/-- A command has the ticket of its place. -/
theorem mem_queueFrom {t s : Ticket} {is : List Item} :
    s ∈ queueFrom t is ↔ ∃ j : Nat, is[j]? = some command ∧ s = t + j := by
  induction is generalizing t with
  | nil => simp [queueFrom]
  | cons i is ih =>
    -- what is behind the first item is one place further on
    have hstep : (∃ j : Nat, is[j]? = some command ∧ s = t + 1 + j) ↔
        ∃ j : Nat, (i :: is)[j + 1]? = some command ∧ s = t + (j + 1) := by
      simp only [List.getElem?_cons_succ, Nat.add_assoc, Nat.add_comm 1]
    cases i with
    | command =>
      rw [queueFrom, List.mem_cons, ih, hstep]
      constructor
      · rintro (rfl | ⟨j, hj, rfl⟩)
        · exact ⟨0, rfl, rfl⟩
        · exact ⟨j + 1, hj, rfl⟩
      · rintro ⟨j, hj, rfl⟩
        cases j with
        | zero => exact .inl rfl
        | succ j => exact .inr ⟨j, hj, rfl⟩
    | nested =>
      rw [queueFrom, ih, hstep]
      constructor
      · rintro ⟨j, hj, rfl⟩
        exact ⟨j + 1, hj, rfl⟩
      · rintro ⟨j, hj, rfl⟩
        cases j with
        | zero => cases hj
        | succ j => exact ⟨j, hj, rfl⟩

theorem length_queueFrom (t : Ticket) (is : List Item) :
    (queueFrom t is).length = is.count command := by
  induction is generalizing t with
  | nil => rfl
  | cons i is ih => cases i <;> simp [queueFrom, ih]

end Item

namespace RawTransaction

/-- The verbs of a transaction. -/
def verbs (T : RawTransaction) : List Verb :=
  .multi :: (T.items.map Item.verb ++ [if T.discards then .discard else .exec])

/-- The tickets of the commands of a transaction whose opening has the given ticket. -/
def queue (T : RawTransaction) (m : Ticket) : List Ticket :=
  Item.queueFrom (m + 1) T.items

/-- The ticket of the end of a transaction. -/
def last (T : RawTransaction) (m : Ticket) : Ticket :=
  m + 1 + T.items.length

/-- The roles of a transaction. -/
def roles (T : RawTransaction) (m : Ticket) : List Role :=
  .plain :: (T.items.map Item.role ++ [.ending T.discards (T.queue m)])

end RawTransaction

/-- The verbs of a part. -/
def Part.verbs : Part → List Verb
  | direct => [.other]
  | transaction T => T.verbs

/-- The roles of a part that begins at the given ticket. -/
def Part.roles (m : Ticket) : Part → List Role
  | direct => [.plain]
  | transaction T => T.roles m

/-- The verbs of a script. -/
def scriptVerbs (script : List Part) : List (Option Verb) :=
  (script.flatMap Part.verbs).map some

/-! ## The roles of a script -/

/-- Items join the open transaction, but for openings, which have a plain role. -/
theorem enrolAll_items (is : List Item) (rs : List Role) (queue : List Ticket) :
    enrolAll (rs, some queue) (is.map fun i => some i.verb) =
      (rs ++ is.map Item.role, some (queue ++ Item.queueFrom rs.length is)) := by
  induction is generalizing rs queue with
  | nil => simp [enrolAll, Item.queueFrom]
  | cons i is ih =>
    have hcons : enrolAll (rs, some queue) ((i :: is).map fun i => some i.verb) =
        enrolAll (enrolWord (rs, some queue) (some i.verb)) (is.map fun i => some i.verb) := rfl
    rw [hcons]
    cases i with
    | command =>
      refine (ih (rs ++ [.queued]) (queue ++ [rs.length])).trans ?_
      simp [Item.role, Item.queueFrom]
    | nested =>
      refine (ih (rs ++ [.plain]) queue).trans ?_
      simp [Item.role, Item.queueFrom]

/-- A transaction has its roles and leaves none open. -/
theorem enrolAll_transaction (T : RawTransaction) (rs : List Role) :
    enrolAll (rs, none) (T.verbs.map some) = (rs ++ T.roles rs.length, none) := by
  have hsplit : T.verbs.map some =
      some .multi :: (T.items.map (fun i => some i.verb) ++
        [some (if T.discards then .discard else .exec)]) := by
    simp [RawTransaction.verbs]
  -- after the opening the transaction is open and empty, so the items can join it
  have hopen : enrolAll (rs, none) (T.verbs.map some) =
      enrolAll (enrolAll (rs ++ [.plain], some []) (T.items.map fun i => some i.verb))
        [some (if T.discards then .discard else .exec)] := by
    rw [hsplit, ← enrolAll_append]
    rfl
  rw [hopen, enrolAll_items]
  cases hd : T.discards <;>
    simp [enrolAll, enrolWord, Connection.classify, RawTransaction.roles, RawTransaction.queue, hd]

theorem enrolAll_part (p : Part) (rs : List Role) :
    enrolAll (rs, none) (p.verbs.map some) = (rs ++ p.roles rs.length, none) := by
  cases p with
  | direct => rfl
  | transaction T => exact enrolAll_transaction T rs

theorem length_part_roles (p : Part) (m : Ticket) : (p.roles m).length = p.verbs.length := by
  cases p with
  | direct => rfl
  | transaction T => simp [Part.roles, Part.verbs, RawTransaction.roles, RawTransaction.verbs]

/-- A script leaves no transaction open, and has a role for each of its commands. -/
theorem exists_enrolAll_script (script : List Part) (rs : List Role) :
    ∃ rs', enrolAll (rs, none) (scriptVerbs script) = (rs', none) ∧
      rs'.length = rs.length + (script.flatMap Part.verbs).length := by
  induction script generalizing rs with
  | nil => exact ⟨rs, rfl, rfl⟩
  | cons p script ih =>
    obtain ⟨rs', hrs, hlen⟩ := ih (rs ++ p.roles rs.length)
    refine ⟨rs', ?_, ?_⟩
    · rw [scriptVerbs, List.flatMap_cons, List.map_append, enrolAll_append, enrolAll_part]
      exact hrs
    · rw [hlen, List.length_append, length_part_roles, List.flatMap_cons, List.length_append]
      omega

/-- Each part of a script has its roles, from its place on. -/
theorem roles_part_prefix (before : List Part) (p : Part) (after : List Part) :
    ∃ rs, rs.length = (before.flatMap Part.verbs).length ∧
      rs ++ p.roles (before.flatMap Part.verbs).length <+:
        (enrolAll ([], none) (scriptVerbs (before ++ p :: after))).1 := by
  -- the parts in front leave no transaction open, and those behind change no roles
  obtain ⟨rs, hrs, hlen⟩ := exists_enrolAll_script before []
  rw [List.length_nil, Nat.zero_add] at hlen
  refine ⟨rs, hlen, ?_⟩
  have hsplit : scriptVerbs (before ++ p :: after) =
      scriptVerbs before ++ (p.verbs.map some ++ scriptVerbs after) := by
    simp [scriptVerbs]
  rw [hsplit, enrolAll_append, hrs, enrolAll_append, enrolAll_part, hlen]
  exact prefix_enrolAll (rs ++ p.roles (before.flatMap Part.verbs).length, none) _

/-- A run that follows a script: its commands are the first ones of the script, and the transport
is not lost. -/
structure Follows (script : List Part) (c₀ : Connection Listener) (es : List (Event Listener)) :
    Prop where
  verbs : verbs c₀ es <+: scriptVerbs script
  attached : (c₀.run es).attached = true

/-- The commands of a part that were sent have the roles of the part. -/
theorem role?_part {address : Value × Value} {timeout : Timeout} {es : List (Event Listener)}
    {before : List Part} {p : Part} {after : List Part}
    (h : Follows (before ++ p :: after) (.start address timeout) es) {j : Nat} {r : Role}
    (hr : (p.roles (before.flatMap Part.verbs).length)[j]? = some r)
    (hlt : (before.flatMap Part.verbs).length + j <
      ((Connection.start address timeout).run es).exchanges.length) :
    ((Connection.start address timeout).run es).role? ((before.flatMap Part.verbs).length + j) =
      some r := by
  -- the roles of the run and those up to the end of the part are both first roles of the script
  obtain ⟨ws, hws⟩ := h.verbs
  have hrun := congrArg Prod.fst (roles_run address timeout es h.attached)
  obtain ⟨rs, hlen, hp⟩ := roles_part_prefix before p after
  have hq := prefix_enrolAll (enrolAll ([], none) (verbs (.start address timeout) es)) ws
  rw [← enrolAll_append, hws, ← hrun] at hq
  rw [← Connection.length_roles] at hlt
  have hfull := List.prefix_iff_getElem?.1 hq _ hlt
  obtain ⟨hj, rfl⟩ := List.getElem?_eq_some_iff.1 hr
  have hpart := List.prefix_iff_getElem?.1 hp ((before.flatMap Part.verbs).length + j)
    (by rw [List.length_append, hlen]; exact Nat.add_lt_add_left hj _)
  rw [hfull] at hpart
  rw [← Connection.getElem?_roles, List.getElem?_eq_getElem hlt, Option.some.inj hpart,
    List.getElem_append_right (by omega)]
  simp [hlen]

/-- The commands of a transaction that were sent have their roles. -/
structure RawTransaction.Placed (T : RawTransaction) (m : Ticket) (c : Connection Listener) :
    Prop where
  opening : m < c.exchanges.length → c.role? m = some .plain
  item : ∀ (j : Nat) (i : Item), T.items[j]? = some i → m + 1 + j < c.exchanges.length →
    c.role? (m + 1 + j) = some i.role
  ending : T.last m < c.exchanges.length →
    c.role? (T.last m) = some (.ending T.discards (T.queue m))

/-- Each transaction of a script has its roles. -/
theorem placed_run {address : Value × Value} {timeout : Timeout} {es : List (Event Listener)}
    {before : List Part} {T : RawTransaction} {after : List Part}
    (h : Follows (before ++ .transaction T :: after) (.start address timeout) es) :
    T.Placed (before.flatMap Part.verbs).length ((Connection.start address timeout).run es) := by
  refine ⟨fun hlt => role?_part h (j := 0) rfl hlt, fun j i hi hlt => ?_, fun hlt => ?_⟩
  · rw [Nat.add_assoc, Nat.add_comm 1] at hlt ⊢
    refine role?_part h ?_ hlt
    have hj : j < T.items.length := (List.getElem?_eq_some_iff.1 hi).1
    rw [Part.roles, RawTransaction.roles, List.getElem?_cons_succ,
      List.getElem?_append_left (by simpa using hj), List.getElem?_map, hi]
    rfl
  · rw [RawTransaction.last, Nat.add_assoc, Nat.add_comm 1] at hlt ⊢
    refine role?_part h ?_ hlt
    rw [Part.roles, RawTransaction.roles, List.getElem?_cons_succ,
      List.getElem?_append_right (by simp)]
    simp

end SortedSets

import SortedSets.Proofs.Connection.Resolution

/-!
# Openings that are refused

A connection opens a transaction when it sends the opening, and does not look at the reply. If the
server refuses the opening, the connection treats the next commands as those of a transaction all
the same: they wait for its end. The end that the client sends, which the server refuses as well,
settles them and brings the connection back.

## Main definitions

* `itemOf`: what a word is inside of a transaction
* `Waits`: a connection whose opening was refused, as long as no end was sent
* `Recovers`: such a connection once an end was sent

## Main results

* `enrolAll_open`, `enrolAll_direct`: the roles of commands that leave a transaction as it is
* `opening_refused`: what a connection does whose opening was refused
-/

namespace SortedSets

open Wire (Reply)

variable {Listener : Type}

/-! ## Roles -/

/-- What a word is inside of a transaction that it does not end. -/
def itemOf : Option Verb → Item
  | some .other => .command
  | _ => .nested

/-- Words that end no transaction join the open one. -/
theorem enrolAll_open {ws : List (Option Verb)} (hw : ∀ w ∈ ws, w ≠ some .exec ∧ w ≠ some .discard)
    (rs : List Role) (queue : List Ticket) :
    enrolAll (rs, some queue) ws =
      (rs ++ (ws.map itemOf).map Item.role,
        some (queue ++ Item.queueFrom rs.length (ws.map itemOf))) := by
  rw [← enrolAll_items]
  -- inside of a transaction a word and its item are enrolled alike
  induction ws generalizing rs queue with
  | nil => rfl
  | cons w ws ih =>
    have hstep : enrolWord (rs, some queue) w = enrolWord (rs, some queue) (some (itemOf w).verb) := by
      obtain ⟨he, hd⟩ := hw w List.mem_cons_self
      rcases w with _ | _ | _ | _ | _
      · rfl
      · rfl
      · exact absurd rfl he
      · exact absurd rfl hd
      · rfl
    have ih := ih fun u hu => hw u (List.mem_cons_of_mem w hu)
    change enrolAll (enrolWord (rs, some queue) w) ws = _
    rw [hstep]
    -- whatever the word is, a transaction is open behind it
    cases hi : itemOf w with
    | command => simpa [enrolAll, enrolWord, Item.verb, Connection.classify, hi] using ih _ _
    | nested => simpa [enrolAll, enrolWord, Item.verb, Connection.classify, hi] using ih _ _

/-- Words that open no transaction have plain roles if none is open. -/
theorem enrolAll_direct {us : List (Option Verb)} (hu : ∀ u ∈ us, u ≠ some .multi)
    (rs : List Role) : enrolAll (rs, none) us = (rs ++ List.replicate us.length .plain, none) := by
  induction us generalizing rs with
  | nil => simp [enrolAll]
  | cons u us ih =>
    -- without an open transaction only its opening has a role of its own
    have hstep : enrolWord (rs, none) u = (rs ++ [.plain], none) := by
      have := hu u List.mem_cons_self
      rcases u with _ | _ | _ | _ | _
      · rfl
      · exact absurd rfl this
      · rfl
      · rfl
      · rfl
    have ih := ih fun w hw => hu w (List.mem_cons_of_mem u hw)
    change enrolAll (enrolWord (rs, none) u) us = _
    rw [hstep, ih, List.length_cons, List.replicate_succ, List.append_assoc]
    rfl

theorem length_enrolAll (s : List Role × Option (List Ticket)) (ws : List (Option Verb)) :
    (enrolAll s ws).1.length = s.1.length + ws.length := by
  induction ws generalizing s with
  | nil => rfl
  | cons w ws ih =>
    have hstep : (enrolWord s w).1.length = s.1.length + 1 := by
      cases w <;> simp [enrolWord]
    refine (ih (enrolWord s w)).trans ?_
    rw [hstep, List.length_cons]
    omega

/-- An opening that was sent in direct mode, and words behind it that end no transaction: each joins
the one that the opening began. -/
theorem exists_enrolAll_opening {vs ws : List (Option Verb)}
    (hd : (enrolAll ([], none) vs).2 = none) (hw : ∀ w ∈ ws, w ≠ some .exec ∧ w ≠ some .discard) :
    ∃ rs : List Role, rs.length = vs.length ∧ ∀ tail,
      enrolAll ([], none) (vs ++ some .multi :: (ws ++ tail)) =
        enrolAll (rs ++ .plain :: (ws.map itemOf).map Item.role,
          some (Item.queueFrom (rs.length + 1) (ws.map itemOf))) tail := by
  obtain ⟨rs, hrs⟩ : ∃ rs, enrolAll ([], none) vs = (rs, none) := ⟨_, Prod.ext rfl hd⟩
  have hlen := length_enrolAll ([], none) vs
  rw [hrs] at hlen
  have hopened : enrolAll (rs, none) (some .multi :: ws) =
      (rs ++ .plain :: (ws.map itemOf).map Item.role,
        some (Item.queueFrom (rs.length + 1) (ws.map itemOf))) := by
    change enrolAll (rs ++ [.plain], some []) ws = _
    rw [enrolAll_open hw]
    simp
  refine ⟨rs, by simpa using hlen, ?_⟩
  intro tail
  rw [← List.cons_append, enrolAll_append, hrs, enrolAll_append, hopened]

/-- The end of a transaction, and words behind it that open no other one. -/
theorem enrolAll_ending {us : List (Option Verb)} (hu : ∀ u ∈ us, u ≠ some .multi) (is : List Item)
    (discards : Bool) (rs : List Role) :
    enrolAll (rs ++ .plain :: is.map Item.role, some (Item.queueFrom (rs.length + 1) is))
        (some (if discards then .discard else .exec) :: us) =
      (rs ++ ((⟨is, discards⟩ : RawTransaction).roles rs.length ++ List.replicate us.length .plain),
        none) := by
  have hend : enrolWord (rs ++ .plain :: is.map Item.role,
        some (Item.queueFrom (rs.length + 1) is)) (some (if discards then .discard else .exec)) =
      (rs ++ (⟨is, discards⟩ : RawTransaction).roles rs.length, none) := by
    cases discards <;> simp [enrolWord, Connection.classify, RawTransaction.roles,
      RawTransaction.queue]
  change enrolAll (enrolWord _ _) us = _
  rw [hend, enrolAll_direct hu, List.append_assoc]

namespace Connection

variable {c : Connection Listener}

/-- A command that was sent has the role of its place. -/
theorem role?_of_prefix {rs : List Role} (h : c.roles <+: rs) {t : Ticket}
    (ht : t < c.exchanges.length) : c.role? t = rs[t]? := by
  rw [← length_roles] at ht
  rw [← getElem?_roles, List.prefix_iff_getElem?.1 h t ht, List.getElem?_eq_getElem ht]

end Connection

/-- A transaction whose roles are those of a connection from its opening on has its roles. -/
theorem RawTransaction.placed_of_prefix {T : RawTransaction} {rs more : List Role}
    {c : Connection Listener} (h : c.roles <+: rs ++ (T.roles rs.length ++ more)) :
    T.Placed rs.length c := by
  -- the roles are found at their distance from the opening
  have hrole {j : Nat} {r : Role} (hr : (T.roles rs.length)[j]? = some r)
      (hlt : rs.length + j < c.exchanges.length) : c.role? (rs.length + j) = some r := by
    have hj := (List.getElem?_eq_some_iff.1 hr).1
    rw [Connection.role?_of_prefix h hlt, List.getElem?_append_right (Nat.le_add_right ..),
      Nat.add_sub_cancel_left, List.getElem?_append_left hj, hr]
  refine ⟨fun hlt => hrole (j := 0) rfl hlt, fun j i hi hlt => ?_, fun hlt => ?_⟩
  · rw [Nat.add_assoc, Nat.add_comm 1] at hlt ⊢
    refine hrole ?_ hlt
    have hj : j < T.items.length := (List.getElem?_eq_some_iff.1 hi).1
    rw [RawTransaction.roles, List.getElem?_cons_succ, List.getElem?_append_left (by simpa using hj),
      List.getElem?_map, hi]
    rfl
  · rw [RawTransaction.last, Nat.add_assoc, Nat.add_comm 1] at hlt ⊢
    refine hrole ?_ hlt
    rw [RawTransaction.roles, List.getElem?_cons_succ, List.getElem?_append_right (by simp)]
    simp

/-! ## The open transaction

The roles of commands come from the words that were sent, and the reply to the opening settles the
opening alone. So a refused opening is followed by the same roles as an accepted one, and the two
structures below say what the replies of a server do that opened no transaction. -/

/-- A connection whose opening, of the ticket `m`, was refused, and which has sent the words `ws`
since then but no end: it is in the mode of a transaction, and a command waits for the end unless it
was refused itself. -/
structure Waits (ws : List (Option Verb)) (m : Ticket) (c₀ : Connection Listener)
    (es : List (Event Listener)) : Prop where
  mode : (c₀.run es).mode = .transactional
  /-- A command that was not refused has not ended, even if its own reply has come. -/
  pending : ∀ j : Nat, ws[j]? = some (some .other) →
    (∀ message, (replies es)[m + 1 + j]? ≠ some (.error message)) →
    (∀ o, ¬ GivenUp c₀ es (m + 1 + j) o) → (c₀.run es).outcome? (m + 1 + j) = none
  /-- A command that was refused has ended with its own error. -/
  refused : ∀ (j : Nat) (message : Text), ws[j]? = some (some .other) →
    (replies es)[m + 1 + j]? = some (.error message) →
    .answered (m + 1 + j) (.failed (.reply message)) ∉ (c₀.run es).due →
    (∀ o, ¬ GivenUp c₀ es (m + 1 + j) o) →
      (c₀.run es).outcome? (m + 1 + j) = some (.failed (.reply message))

/-- The same connection once it has sent the end, and no other opening since then: it is in direct
mode, and the reply to the end settles the commands that wait. -/
structure Recovers (ws : List (Option Verb)) (discards : Bool) (m : Ticket)
    (c₀ : Connection Listener) (es : List (Event Listener)) : Prop where
  mode : (c₀.run es).mode = .direct
  /-- The end and every later command end with their own replies. -/
  own : ∀ (t : Ticket) (r : Reply), m + 1 + ws.length ≤ t → (replies es)[t]? = some r →
    .answered t r.outcome ∉ (c₀.run es).due → (∀ o, ¬ GivenUp c₀ es t o) →
      (c₀.run es).outcome? t = some r.outcome
  /-- A command that was not refused has ended as the reply to the end says: it fails with the error
  of an end that the server refuses, and is cancelled if the transaction was discarded. -/
  settled : ∀ (j : Nat) (r last : Reply) (o : Outcome), ws[j]? = some (some .other) →
    (replies es)[m + 1 + j]? = some r → (∀ message, r ≠ .error message) →
    (replies es)[m + 1 + ws.length]? = some last →
    (if discards then o = .cancelled else ∃ message, last = .error message ∧ o = last.outcome) →
    .answered (m + 1 + ws.length) last.outcome ∉ (c₀.run es).due →
    (∀ a, ¬ GivenUp c₀ es (m + 1 + ws.length) a) →
    (∀ a, GivenUp c₀ es (m + 1 + j) a → a = o) →
      (c₀.run es).outcome? (m + 1 + j) = some o

section Placed

variable {address : Value × Value} {timeout : Timeout} {es : List (Event Listener)}
  {T : RawTransaction} {m : Ticket}
  (hp : T.Placed m ((Connection.start address timeout : Connection Listener).run es))

include hp

/-- As long as the end of a transaction was not sent, only its own refusal has ended a command of it
that nobody gave up. -/
theorem answer?_of_open
    (hl : ((Connection.start address timeout : Connection Listener).run es).attached = true)
    (hopen : ((Connection.start address timeout : Connection Listener).run es).exchanges.length ≤
      T.last m)
    {t : Ticket} (ht : t ∈ T.queue m)
    (hg : ∀ o, ¬ GivenUp (.start address timeout : Connection Listener) es t o) {o : Outcome}
    (ho : ((Connection.start address timeout : Connection Listener).run es).outcome? t = some o) :
    ∃ x, o = .failed x ∧
      ((Connection.start address timeout : Connection Listener).run es).answer? t = some o := by
  have h : Sound _ ((Connection.start address timeout : Connection Listener).run es) :=
    sound_run address timeout es
  rcases h.course.justified t o ho with hgo | ⟨s, a, ha, hm, -⟩ | ⟨hd, -⟩
  · exact absurd hgo (hg o)
  · obtain ⟨r, hr⟩ := Connection.exists_role? (Connection.lt_of_answer? ha)
    rw [Connection.settlements_eq hr] at hm
    rcases Role.mem_settlements hm with heq | ⟨discards, queue, rfl, hslot⟩
    · -- its own answer, which settles it only if it is a refusal
      obtain ⟨rfl, rfl⟩ := Prod.mk.inj heq
      obtain ⟨j, hj, rfl⟩ := Item.mem_queueFrom.1 ht
      have hrole := hp.item j .command hj (Connection.lt_of_answer? ha)
      obtain rfl : r = .queued := Option.some.inj (hr.symm.trans hrole)
      cases o with
      | failed x => exact ⟨x, rfl, ha⟩
      | reply r => exact absurd hm List.not_mem_nil
      | cancelled => exact absurd hrole (h.course.vacated _ ha).1
    · -- the only end that could settle it was not sent
      obtain rfl := hp.eq_last h.queues hr (fst_mem_of_mem_slotOutcomes hslot) ht
      exact absurd (Connection.lt_of_role? hr) (Nat.not_lt.2 hopen)
  · cases hl.symm.trans hd

/-- A command of a transaction whose reply is no error was acknowledged. -/
theorem acknowledged_of_reply (hn : InStep (.start address timeout : Connection Listener) es)
    {t : Ticket} (ht : t ∈ T.queue m) {r : Reply} (hr : (replies es)[t]? = some r)
    (hne : ∀ message, r ≠ .error message) :
    ((Connection.start address timeout : Connection Listener).run es).Acknowledged t := by
  obtain ⟨j, hj, rfl⟩ := Item.mem_queueFrom.1 ht
  rcases hn.held _ _ hr with ha | ha
  · refine ⟨r, ha.trans ?_⟩
    cases r with
    | error message => exact absurd rfl (hne message)
    | _ => rfl
  · -- the place of a command of a transaction is never given up
    have hrole := hp.item j .command hj (Connection.lt_of_answer? ha)
    exact absurd hrole ((sound_run address timeout es).course.vacated _ ha).1

end Placed

section Words

variable {address : Value × Value} {timeout : Timeout} {es : List (Event Listener)}
  {ws : List (Option Verb)} {rs : List Role} {discards : Bool}

theorem mem_queue_of_words {j : Nat} (hj : ws[j]? = some (some .other)) (m : Ticket) :
    m + 1 + j ∈ (⟨ws.map itemOf, discards⟩ : RawTransaction).queue m :=
  Item.mem_queueFrom.2 ⟨j, by rw [List.getElem?_map, hj]; rfl, rfl⟩

/-- As long as no end was sent, the connection waits for one. -/
theorem waits_of_roles (hn : InStep (.start address timeout : Connection Listener) es)
    (hl : ((Connection.start address timeout : Connection Listener).run es).attached = true)
    (h : (((Connection.start address timeout : Connection Listener).run es).roles,
        ((Connection.start address timeout : Connection Listener).run es).transaction) =
      (rs ++ .plain :: (ws.map itemOf).map Item.role,
        some (Item.queueFrom (rs.length + 1) (ws.map itemOf)))) :
    Waits ws rs.length (.start address timeout : Connection Listener) es := by
  obtain ⟨hroles, htransaction⟩ := Prod.mk.inj h
  set T : RawTransaction := ⟨ws.map itemOf, false⟩ with hT
  have hprefix : ((Connection.start address timeout : Connection Listener).run es).roles <+:
      rs ++ (T.roles rs.length ++ []) := by
    rw [hroles, List.append_nil, RawTransaction.roles, ← List.cons_append]
    exact (List.prefix_append_right_inj rs).2 (List.prefix_append _ _)
  have hp : T.Placed rs.length ((Connection.start address timeout : Connection Listener).run es) :=
    RawTransaction.placed_of_prefix hprefix
  have hopen : ((Connection.start address timeout : Connection Listener).run es).exchanges.length ≤
      T.last rs.length := by
    rw [← Connection.length_roles, hroles]
    simp only [List.length_append, List.length_cons, List.length_map, RawTransaction.last, hT]
    omega
  have hsound : Sound _ ((Connection.start address timeout : Connection Listener).run es) :=
    sound_run address timeout es
  refine ⟨?_, ?_, ?_⟩
  · rw [Connection.mode_eq_iff, htransaction]
    rfl
  · intro j hj hne hg
    by_contra hsome
    obtain ⟨o, ho⟩ := Option.ne_none_iff_exists'.1 hsome
    obtain ⟨x, rfl, ha⟩ := answer?_of_open hp hl hopen (mem_queue_of_words hj _) hg ho
    -- its place would hold a failure, though the reply, if it has come, is none
    rcases Nat.lt_or_ge (rs.length + 1 + j) (replies es).length with hlt | hge
    · have hr := List.getElem?_eq_getElem hlt
      obtain ⟨r, hack⟩ := acknowledged_of_reply hp hn (mem_queue_of_words hj _) hr
        fun message he => hne message (hr.trans (congrArg some he))
      cases ha.symm.trans hack
    · obtain ⟨hc, -⟩ := hn.vacant hl hge ha
      cases hc
  · intro j message hj hr hd hg
    have ha : _ = some (Outcome.failed (.reply message)) := hn.answer?_of_reply hr hg
    -- a refusal is the one answer that settles a command of an open transaction
    have hrole := hp.item j .command (by rw [hT, List.getElem?_map, hj]; rfl)
      (Connection.lt_of_answer? ha)
    have hm : (rs.length + 1 + j, Outcome.failed (.reply message)) ∈
        ((Connection.start address timeout : Connection Listener).run es).settlements
          (rs.length + 1 + j) (.failed (.reply message)) := by
      rw [Connection.settlements_eq hrole]
      exact List.mem_singleton_self _
    obtain ⟨o, ho⟩ := Option.ne_none_iff_exists'.1 (hsound.outcome?_ne_none ha hd hm)
    obtain ⟨-, -, ha'⟩ := answer?_of_open hp hl hopen (mem_queue_of_words hj _) hg ho
    rw [ho, ← ha', ha]

/-- Once the end was sent, the reply to it settles what waits, and later commands have their own
replies. -/
theorem recovers_of_roles (hn : InStep (.start address timeout : Connection Listener) es) {n : Nat}
    (h : (((Connection.start address timeout : Connection Listener).run es).roles,
        ((Connection.start address timeout : Connection Listener).run es).transaction) =
      (rs ++ ((⟨ws.map itemOf, discards⟩ : RawTransaction).roles rs.length ++
        List.replicate n .plain), none)) :
    Recovers ws discards rs.length (.start address timeout : Connection Listener) es := by
  obtain ⟨hroles, htransaction⟩ := Prod.mk.inj h
  set T : RawTransaction := ⟨ws.map itemOf, discards⟩ with hT
  have hprefix : ((Connection.start address timeout : Connection Listener).run es).roles <+:
      rs ++ (T.roles rs.length ++ List.replicate n .plain) := hroles ▸ List.prefix_refl _
  have hp : T.Placed rs.length ((Connection.start address timeout : Connection Listener).run es) :=
    RawTransaction.placed_of_prefix hprefix
  have hlast : T.last rs.length = rs.length + 1 + ws.length := by
    simp [RawTransaction.last, hT]
  have hsound : Sound _ ((Connection.start address timeout : Connection Listener).run es) :=
    sound_run address timeout es
  refine ⟨?_, ?_, ?_⟩
  · rw [Connection.mode, Connection.inTransaction, htransaction]
    rfl
  · intro t r ht hr hd hg
    have ha := hn.answer?_of_reply hr hg
    refine hsound.outcome?_of_own ?_ ha hd hg
    have hlt := Connection.lt_of_answer? ha
    rcases Nat.eq_or_lt_of_le ht with rfl | ht
    · rw [← hlast] at hlt ⊢
      rw [hp.ending hlt]
      simp
    · -- behind the end there are plain roles only
      have hlen : rs.length + (T.roles rs.length).length ≤ t := by
        simp only [RawTransaction.roles, List.length_cons, List.length_append, List.length_map, hT,
          List.length_nil]
        omega
      rw [Connection.role?_of_prefix hprefix hlt,
        List.getElem?_append_right (by omega), List.getElem?_append_right (by omega),
        List.getElem?_replicate]
      split <;> simp
  · intro j r last o hj hr hne hend ho hd hlastg hg
    rw [← hlast] at hend hd hlastg
    -- the reply to the end hands each waiting command its outcome
    have ha := hn.answer?_of_reply hend hlastg
    have ht : rs.length + 1 + j ∈ T.queue rs.length := mem_queue_of_words hj _
    refine hsound.outcome?_of_slot (hp.ending (Connection.lt_of_answer? ha)) ha ?_ hd
      (acknowledged_of_reply hp hn ht hr hne) hg
    cases discards with
    | true =>
      obtain rfl : o = .cancelled := ho
      exact List.mem_map_of_mem ht
    | false =>
      obtain ⟨message, rfl, rfl⟩ : ∃ message, last = .error message ∧ o = last.outcome := ho
      exact List.mem_map_of_mem ht

end Words

/-- A connection that sent an opening in direct mode, which the server refused, and then more
commands, the words `ws` of which end no transaction. The opening fails with its own error. As long
as no end was sent, the connection waits for one; once it was sent, the connection recovers. -/
theorem opening_refused (address : Value × Value) (timeout : Timeout)
    (es : List (Event Listener)) (ho : Orderly (.start address timeout) es)
    (hl : ((Connection.start address timeout).run es).attached = true)
    (vs ws tail : List (Option Verb))
    (hv : verbs (.start address timeout) es = vs ++ some .multi :: (ws ++ tail))
    (hd : (enrolAll ([], none) vs).2 = none)
    (hw : ∀ w ∈ ws, w ≠ some .exec ∧ w ≠ some .discard) (message : Text)
    (hr : (replies es)[vs.length]? = some (.error message)) :
    (.answered vs.length (.failed (.reply message)) ∉ ((Connection.start address timeout).run es).due →
      (∀ o, ¬ GivenUp (.start address timeout) es vs.length o) →
        ((Connection.start address timeout).run es).outcome? vs.length =
          some (.failed (.reply message))) ∧
    (tail = [] → Waits ws vs.length (.start address timeout) es) ∧
    ∀ (discards : Bool) (us : List (Option Verb)),
      tail = some (if discards then .discard else .exec) :: us → (∀ u ∈ us, u ≠ some .multi) →
        Recovers ws discards vs.length (.start address timeout) es := by
  have hn := inStep_run address timeout ho
  have hroles := roles_run address timeout es hl
  obtain ⟨rs, hlen, hall⟩ := exists_enrolAll_opening hd hw
  rw [hv, hall] at hroles
  rw [← hlen] at hr ⊢
  refine ⟨?_, ?_, ?_⟩
  · intro hdue hg
    have ha := hn.answer?_of_reply hr hg
    refine (sound_run address timeout es).outcome?_of_own ?_ ha hdue hg
    -- later words leave its role alone
    obtain ⟨more, hmore⟩ : rs ++ .plain :: (ws.map itemOf).map Item.role <+:
        ((Connection.start address timeout : Connection Listener).run es).roles := by
      have hprefix := prefix_enrolAll (rs ++ .plain :: (ws.map itemOf).map Item.role,
        some (Item.queueFrom (rs.length + 1) (ws.map itemOf))) tail
      rw [← hroles] at hprefix
      exact hprefix
    rw [← Connection.getElem?_roles, ← hmore]
    simp
  · rintro rfl
    exact waits_of_roles hn hl hroles
  · rintro discards us rfl hu
    exact recovers_of_roles hn (hroles.trans (enrolAll_ending hu (ws.map itemOf) discards rs))

/-- An opening that is refused, and a command after that whose reply comes. -/
def refusedOpening : List (Event Unit) :=
  [.submit (.text (.ofString "MULTI")) [.text (.ofString "x")] (),
    .deliver (Bytes.ascii "-ERR arguments\r\n"), .follow,
    .submit (.text (.ofString "ZCARD")) [.text (.ofString "k")] (),
    .deliver (Bytes.ascii ":1\r\n"), .follow]

/-- The end is sent and refused too, and another command has its reply. -/
def recovering : List (Event Unit) :=
  refusedOpening ++ [.submit (.text (.ofString "EXEC")) [] (),
    .deliver (Bytes.ascii "-ERR EXEC without MULTI\r\n"), .follow,
    .submit (.text (.ofString "PING")) [] (), .deliver (Bytes.ascii "+PONG\r\n"), .follow]

/-- The replies that have come. -/
theorem replies_recovering : replies recovering =
    [.error (Text.ofString "ERR arguments"), .int 1,
      .error (Text.ofString "ERR EXEC without MULTI"), .bytes (Bytes.ascii "PONG")] := by
  decide +kernel

/-- The command fails with the error of the end, and the one behind has its own reply. -/
theorem opening_refused_recovering :
    let c := (Connection.start (.none, .none) .none).run recovering
    c.mode = .direct ∧ c.outcome? 1 = some (.failed (.reply (.ofString "ERR EXEC without MULTI"))) ∧
      c.outcome? 3 = some (.reply (.bytes (Bytes.ascii "PONG"))) := by
  have hr := replies_recovering
  have hdue : ((Connection.start (.none, .none) .none).run recovering).due = [] := by
    decide +kernel
  have hg (t : Ticket) (o : Outcome) : ¬ GivenUp (.start (.none, .none) .none) recovering t o :=
    not_givenUp_of_spares rfl (by simp [recovering, refusedOpening, Event.spares]) o
  obtain ⟨-, -, h⟩ := opening_refused (.none, .none) .none recovering (by decide +kernel)
    (by decide +kernel) [] [some .other] [some .exec, some .other] (by decide +kernel) rfl
    (by decide) (.ofString "ERR arguments") (by rw [hr]; rfl)
  have hrec := h false [some .other] rfl (by decide)
  refine ⟨hrec.mode, ?_, ?_⟩
  · exact hrec.settled 0 (.int 1) (.error (.ofString "ERR EXEC without MULTI")) _ rfl
      (by rw [hr]; rfl) (by simp) (by rw [hr]; rfl) ⟨_, rfl, rfl⟩ (by simp [hdue]) (hg _)
      fun a ha => absurd ha (hg _ a)
  · exact hrec.own 3 (.bytes (Bytes.ascii "PONG")) (by decide) (by rw [hr]; rfl) (by simp [hdue])
      (hg 3)

/-- The opening was refused in direct mode, and no end was sent; yet the connection is in the mode of
a transaction, and a command that has its reply waits. -/
theorem not_direct_after_refusal :
    ¬ ∀ (es : List (Event Unit)) (ws : List (Option Verb)) (message : Text),
      let c := (Connection.start (.none, .none) .none).run es
      Orderly (.start (.none, .none) .none) es → c.attached = true →
        verbs (.start (.none, .none) .none) es = some .multi :: ws →
        (∀ w ∈ ws, w ≠ some .exec ∧ w ≠ some .discard) →
        (replies es)[0]? = some (.error message) → c.due = [] →
          c.mode = .direct ∧
            ∀ (t : Ticket) (r : Reply), (replies es)[t]? = some r → c.outcome? t = some r.outcome := by
  intro h
  have hr : replies refusedOpening = [.error (Text.ofString "ERR arguments"), .int 1] := by
    decide +kernel
  obtain ⟨hmode, -⟩ := h refusedOpening [some .other] (.ofString "ERR arguments")
    (by decide +kernel) (by decide +kernel) (by decide +kernel) (by decide) (by rw [hr]; rfl)
    (by decide +kernel)
  exact absurd hmode (by decide +kernel)

end SortedSets

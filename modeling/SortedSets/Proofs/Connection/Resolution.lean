import SortedSets.Proofs.Connection.Enrolment
import SortedSets.Proofs.Connection.Matching

/-!
# The resolution of transactions

A connection may send any number of transactions, with direct commands between them, and later
ones before the replies to earlier ones have come. If the server takes the commands of a
transaction in and refuses openings inside of it, then no command of the transaction ends before
the reply to its end has come, and each of them ends with its own slot of that reply.

## Main definitions

* `Item.Answered`, `RawTransaction.Ended`, `RawTransaction.Served`: how a server answers a
  transaction
* `RawTransaction.Resolved`: how the commands of a transaction end

## Main results

* `resolved_run`: each transaction of a script is resolved, and each direct command has its reply
-/

namespace SortedSets

open Wire (Reply)

variable {Listener : Type}

/-! ## The server -/

/-- The answer of a server to an item of a transaction: a command is queued, and another opening
is refused. -/
def Item.Answered : Item → Reply → Prop
  | command, r => r = .bytes (Bytes.ascii "QUEUED")
  | nested, r => ∃ message, r = .error message

namespace RawTransaction

/-- The answer of a server to the end of a transaction: a discarded transaction is acknowledged,
and another one is answered by as many elements as it has commands, or was aborted, or fails. -/
def Ended (T : RawTransaction) (r : Reply) : Prop :=
  if T.discards then r = .bytes (Bytes.ascii "OK")
  else
    (∃ rs, r = .array rs ∧ rs.length = T.items.count .command) ∨ r = .nil ∨
      ∃ message, r = .error message

/-- The answers of a server to a transaction, as far as they have come. -/
structure Served (T : RawTransaction) (m : Ticket) (es : List (Event Listener)) : Prop where
  opening : ∀ r, (replies es)[m]? = some r → r = .bytes (Bytes.ascii "OK")
  item : ∀ (j : Nat) (i : Item) (r : Reply), T.items[j]? = some i →
    (replies es)[m + 1 + j]? = some r → i.Answered r
  ending : ∀ r, (replies es)[T.last m]? = some r → T.Ended r

/-- How the commands of a transaction end, if nobody gives up its end. -/
structure Resolved (T : RawTransaction) (m : Ticket) (c₀ : Connection Listener)
    (es : List (Event Listener)) : Prop where
  /-- Before the reply to the end has come, no command has ended that nobody gave up. -/
  pending : (replies es).length ≤ T.last m → ∀ t ∈ T.queue m, (∀ o, ¬ GivenUp c₀ es t o) →
    (c₀.run es).outcome? t = none
  /-- After the reply to a discard, all commands are cancelled. -/
  discarded : T.discards = true → ∀ r, (replies es)[T.last m]? = some r →
    .answered (T.last m) r.outcome ∉ (c₀.run es).due →
    ∀ t ∈ T.queue m, (∀ o, GivenUp c₀ es t o → o = .cancelled) →
      (c₀.run es).outcome? t = some .cancelled
  /-- After an array, each command has ended with the element of its place. -/
  executed : T.discards = false → ∀ rs, (replies es)[T.last m]? = some (.array rs) →
    .answered (T.last m) (.reply (.array rs)) ∉ (c₀.run es).due →
    ∀ (i : Nat) t, (T.queue m)[i]? = some t → (∀ o, ¬ GivenUp c₀ es t o) →
      ∃ r, rs[i]? = some r ∧ (c₀.run es).outcome? t = some r.outcome
  /-- After nil, each command has failed. -/
  aborted : T.discards = false → (replies es)[T.last m]? = some .nil →
    .answered (T.last m) (.reply .nil) ∉ (c₀.run es).due →
    ∀ t ∈ T.queue m, (∀ o, ¬ GivenUp c₀ es t o) →
      (c₀.run es).outcome? t = some (.failed abortedTransaction)
  /-- After an error, each command has failed with that error. -/
  failed : T.discards = false → ∀ message, (replies es)[T.last m]? = some (.error message) →
    .answered (T.last m) (.failed (.reply message)) ∉ (c₀.run es).due →
    ∀ t ∈ T.queue m, (∀ o, ¬ GivenUp c₀ es t o) →
      (c₀.run es).outcome? t = some (.failed (.reply message))
  /-- Another opening inside of the transaction has failed with its own error. -/
  nested : ∀ (j : Nat) r, T.items[j]? = some .nested → (replies es)[m + 1 + j]? = some r →
    .answered (m + 1 + j) r.outcome ∉ (c₀.run es).due →
    (∀ o, ¬ GivenUp c₀ es (m + 1 + j) o) →
      ∃ message, r = .error message ∧
        (c₀.run es).outcome? (m + 1 + j) = some (.failed (.reply message))
  /-- The opening and the end have ended with their own replies. -/
  own : ∀ t r, t = m ∨ t = T.last m → (replies es)[t]? = some r →
    .answered t r.outcome ∉ (c₀.run es).due → (∀ o, ¬ GivenUp c₀ es t o) →
      (c₀.run es).outcome? t = some r.outcome

end RawTransaction

/-! ## Transactions -/

namespace RawTransaction

variable {T : RawTransaction} {m : Ticket}

/-- The end of a transaction is sent behind its commands. -/
theorem lt_last_of_mem_queue {t : Ticket} (ht : t ∈ T.queue m) : t < T.last m := by
  obtain ⟨j, hj, rfl⟩ := Item.mem_queueFrom.1 ht
  have hlt : j < T.items.length := (List.getElem?_eq_some_iff.1 hj).1
  exact Nat.add_lt_add_left hlt (m + 1)

/-- An array in answer to the end of a transaction has an element for each command. -/
theorem length_of_ended {rs : List Reply} (hd : T.discards = false) (h : T.Ended (.array rs)) :
    rs.length = (T.queue m).length := by
  rw [Ended, hd] at h
  rw [queue, Item.length_queueFrom]
  rcases h with ⟨rs', hrs, hlen⟩ | hnil | ⟨message, he⟩
  · cases hrs
    exact hlen
  · cases hnil
  · cases he

/-- An end behind a command of a transaction that answers it is the end of that transaction. -/
theorem Placed.eq_last {c : Connection Listener} (hp : T.Placed m c) (hq : Queues c)
    {s t : Ticket} {discards : Bool} {queue : List Ticket}
    (hs : c.role? s = some (.ending discards queue)) (ht : t ∈ queue) (htq : t ∈ T.queue m) :
    s = T.last m := by
  have hts : t < s := hq.before s discards queue hs t ht
  rcases Nat.lt_trichotomy s (T.last m) with hlt | heq | hlt
  · -- the places in front of the end are those of items
    exfalso
    obtain ⟨j, -, rfl⟩ := Item.mem_queueFrom.1 htq
    obtain ⟨k, rfl⟩ : ∃ k, s = m + 1 + k := Nat.exists_eq_add_of_le (by grind)
    have hk : k < T.items.length := Nat.lt_of_add_lt_add_left hlt
    have hi := hp.item k T.items[k] (List.getElem?_eq_getElem hk) (Connection.lt_of_role? hs)
    rw [hs] at hi
    cases hik : T.items[k] <;> rw [hik] at hi <;> cases hi
  · exact heq
  · have hlast := hp.ending (Nat.lt_trans hlt (Connection.lt_of_role? hs))
    exact hq.eq_of_mem hs hlast ht htq

end RawTransaction

section Served

variable {address : Value × Value} {timeout : Timeout} {es : List (Event Listener)}
  {T : RawTransaction} {m : Ticket}
  (hn : InStep (.start address timeout : Connection Listener) es)
  (hp : T.Placed m ((Connection.start address timeout : Connection Listener).run es))
  (hs : T.Served m es)

include hn hp hs

/-- A command of a transaction whose reply has come was acknowledged. -/
theorem acknowledged_of_served {t : Ticket} (ht : t ∈ T.queue m)
    (hlt : t < (replies es).length) :
    ((Connection.start address timeout : Connection Listener).run es).Acknowledged t := by
  obtain ⟨j, hj, rfl⟩ := Item.mem_queueFrom.1 ht
  have hr := List.getElem?_eq_getElem hlt
  have hq := hs.item j .command _ hj hr
  rcases hn.held _ _ hr with ha | ha
  · rw [hq] at ha
    exact ⟨_, ha⟩
  · -- the place of a command of a transaction is never given up
    have hrole := hp.item j .command hj (Connection.lt_of_answer? ha)
    exact absurd hrole ((sound_run address timeout es).course.vacated _ ha).1

/-- A command of a transaction has not ended before the reply to the end, unless somebody gave it
up. -/
theorem outcome?_of_pending
    (hl : ((Connection.start address timeout : Connection Listener).run es).attached = true)
    (hlast : ∀ o, ¬ GivenUp (.start address timeout : Connection Listener) es (T.last m) o)
    (hle : (replies es).length ≤ T.last m) {t : Ticket} (ht : t ∈ T.queue m)
    (hg : ∀ o, ¬ GivenUp (.start address timeout : Connection Listener) es t o) :
    ((Connection.start address timeout : Connection Listener).run es).outcome? t = none := by
  have h : Sound _ ((Connection.start address timeout : Connection Listener).run es) :=
    sound_run address timeout es
  by_contra hne
  obtain ⟨o, ho⟩ := Option.ne_none_iff_exists'.1 hne
  -- it would have been given up, or an answer would have settled it, or the transport be lost
  rcases h.course.justified t o ho with hgo | ⟨s, a, ha, hm, -⟩ | ⟨hd, -⟩
  · exact hg o hgo
  · obtain ⟨r, hr⟩ := Connection.exists_role? (Connection.lt_of_answer? ha)
    rw [Connection.settlements_eq hr] at hm
    rcases Role.mem_settlements hm with heq | ⟨discards, queue, rfl, hslot⟩
    · -- its own reply is an acknowledgement, which settles nothing
      obtain ⟨rfl, rfl⟩ := Prod.mk.inj heq
      rcases Nat.lt_or_ge t (replies es).length with hlt | hge
      · obtain ⟨j, hj, rfl⟩ := Item.mem_queueFrom.1 ht
        have hrole := hp.item j .command hj (Connection.lt_of_answer? ha)
        obtain rfl : r = .queued := Option.some.inj (hr.symm.trans hrole)
        obtain ⟨r', hr'⟩ := acknowledged_of_served hn hp hs ht hlt
        obtain rfl := Option.some.inj (ha.symm.trans hr')
        exact absurd hm List.not_mem_nil
      · -- and before its reply only its caller could have filled its place
        obtain ⟨-, hb⟩ := hn.vacant hl hge ha
        obtain ⟨b, hb⟩ := hb.givenUp
        exact hg b hb
    · -- the end of a transaction that settles it is its own, which has no reply yet
      obtain rfl := hp.eq_last h.queues hr (fst_mem_of_mem_slotOutcomes hslot) ht
      obtain ⟨b, hb⟩ := (hn.vacant hl hle ha).2.givenUp
      exact hlast b hb
  · cases hl.symm.trans hd

/-- A command of a transaction has ended with its slot of the reply to the end. -/
theorem outcome?_of_served
    (hlast : ∀ o, ¬ GivenUp (.start address timeout : Connection Listener) es (T.last m) o)
    {r : Reply} (hr : (replies es)[T.last m]? = some r)
    (hd : .answered (T.last m) r.outcome ∉
      ((Connection.start address timeout : Connection Listener).run es).due)
    {t : Ticket} {o : Outcome} (hslot : (t, o) ∈ slotOutcomes T.discards (T.queue m) r.outcome)
    (hg : ∀ b, GivenUp (.start address timeout : Connection Listener) es t b → b = o) :
    ((Connection.start address timeout : Connection Listener).run es).outcome? t = some o := by
  have h : Sound _ ((Connection.start address timeout : Connection Listener).run es) :=
    sound_run address timeout es
  have ha := hn.answer?_of_reply hr hlast
  have ht := fst_mem_of_mem_slotOutcomes hslot
  have hlt : T.last m < (replies es).length := (List.getElem?_eq_some_iff.1 hr).1
  have hk := acknowledged_of_served hn hp hs ht
    (Nat.lt_trans (RawTransaction.lt_last_of_mem_queue ht) hlt)
  exact h.outcome?_of_slot (hp.ending (Connection.lt_of_answer? ha)) ha hslot hd hk hg

/-- Each transaction that is served is resolved. -/
theorem resolved_of_served
    (hl : ((Connection.start address timeout : Connection Listener).run es).attached = true)
    (hlast : ∀ o, ¬ GivenUp (.start address timeout : Connection Listener) es (T.last m) o) :
    T.Resolved m (.start address timeout : Connection Listener) es := by
  have h : Sound _ ((Connection.start address timeout : Connection Listener).run es) :=
    sound_run address timeout es
  have hslot {t : Ticket} (o : Outcome) (ht : t ∈ T.queue m) :
      (t, o) ∈ (T.queue m).map fun t => (t, o) := List.mem_map_of_mem ht
  -- the answer to the end has a slot for each command of the queue
  refine ⟨?pending, ?discarded, ?executed, ?aborted, ?failed, ?nested, ?own⟩
  case pending =>
    intro hle t ht hg
    exact outcome?_of_pending hn hp hs hl hlast hle ht hg
  case discarded =>
    intro hdis r hr hd t ht hg
    refine outcome?_of_served hn hp hs hlast hr hd ?_ hg
    rw [hdis]
    exact hslot .cancelled ht
  case executed =>
    intro hdis rs hr hd i t hi hg
    have hlt : i < rs.length := by
      rw [RawTransaction.length_of_ended hdis (hs.ending _ hr)]
      exact (List.getElem?_eq_some_iff.1 hi).1
    refine ⟨rs[i], List.getElem?_eq_getElem hlt, ?_⟩
    refine outcome?_of_served hn hp hs hlast hr hd ?_ fun b hb => absurd hb (hg b)
    rw [hdis]
    have hne : Reply.array rs ≠ .nil := nofun
    refine (mem_slotOutcomes_reply hne).2 ⟨i, hi, ?_⟩
    rw [Wire.Reply.slots, List.getElem?_map, List.getElem?_eq_getElem hlt]
    rfl
  case aborted =>
    intro hdis hr hd t ht hg
    refine outcome?_of_served hn hp hs hlast hr hd ?_ fun b hb => absurd hb (hg b)
    rw [hdis]
    exact hslot _ ht
  case failed =>
    intro hdis message hr hd t ht hg
    refine outcome?_of_served hn hp hs hlast hr hd ?_ fun b hb => absurd hb (hg b)
    rw [hdis]
    exact hslot _ ht
  case nested =>
    intro j r hj hr hd hg
    have ha := hn.answer?_of_reply hr hg
    have hrole := hp.item j .nested hj (Connection.lt_of_answer? ha)
    obtain ⟨message, rfl⟩ := hs.item j .nested r hj hr
    refine ⟨message, rfl, h.outcome?_of_own ?_ ha hd hg⟩
    rw [hrole]
    nofun
  case own =>
    intro t r ht hr hd hg
    have ha := hn.answer?_of_reply hr hg
    refine h.outcome?_of_own ?_ ha hd hg
    rcases ht with rfl | rfl
    · rw [hp.opening (Connection.lt_of_answer? ha)]
      nofun
    · rw [hp.ending (Connection.lt_of_answer? ha)]
      nofun

end Served

/-- In an orderly run that follows a script, each transaction that the server serves, and whose end
nobody gives up, is resolved; and each direct command that nobody gives up ends with its own
reply. -/
theorem resolved_run (address : Value × Value) (timeout : Timeout) (script : List Part)
    (es : List (Event Listener)) (ho : Orderly (.start address timeout) es)
    (hf : Follows script (.start address timeout) es) :
    (∀ before T after, script = before ++ .transaction T :: after →
      T.Served (before.flatMap Part.verbs).length es →
      (∀ o, ¬ GivenUp (.start address timeout) es (T.last (before.flatMap Part.verbs).length) o) →
        T.Resolved (before.flatMap Part.verbs).length (.start address timeout) es) ∧
    ∀ before after, script = before ++ .direct :: after →
      ∀ t r, t = (before.flatMap Part.verbs).length → (replies es)[t]? = some r →
        .answered t r.outcome ∉ ((Connection.start address timeout).run es).due →
        (∀ o, ¬ GivenUp (.start address timeout) es t o) →
          ((Connection.start address timeout).run es).outcome? t = some r.outcome := by
  have hn := inStep_run address timeout ho
  refine ⟨?_, ?_⟩
  · rintro before T after rfl hserved hlast
    exact resolved_of_served hn (placed_run hf) hserved hf.attached hlast
  · rintro before after rfl t r rfl hr hd hg
    have ha := hn.answer?_of_reply hr hg
    refine (sound_run address timeout es).outcome?_of_own ?_ ha hd hg
    have hrole := role?_part hf (j := 0) (r := .plain) rfl (Connection.lt_of_answer? ha)
    rw [Nat.add_zero] at hrole
    rw [hrole]
    nofun

/-- A direct command, a transaction that is executed, one that is discarded, and another direct
command. -/
def twoTransactions : List Part :=
  [.direct, .transaction ⟨[.command, .nested, .command], false⟩, .transaction ⟨[.command], true⟩,
    .direct]

/-- All of them are sent before any reply comes, and one command is given up meanwhile. -/
def ahead : List (Event Unit) :=
  [.submit (.text (.ofString "PING")) [] (),
    .submit (.text (.ofString "MULTI")) [] (),
    .submit (.text (.ofString "ZCARD")) [.text (.ofString "a")] (),
    .submit (.text (.ofString "MULTI")) [] (),
    .submit (.text (.ofString "ZCARD")) [.text (.ofString "b")] (),
    .submit (.text (.ofString "EXEC")) [] (),
    .submit (.text (.ofString "MULTI")) [] (),
    .submit (.text (.ofString "ZCARD")) [.text (.ofString "c")] (),
    .submit (.text (.ofString "DISCARD")) [] (),
    .submit (.text (.ofString "PING")) [] (),
    .giveUp 2,
    .deliver (Bytes.ascii "+PONG\r\n+OK\r\n+QUEUED\r\n-ERR nested\r\n+QUEU"),
    .deliver (Bytes.ascii "ED\r\n*2\r\n:6\r\n:7\r\n+OK\r\n+QUEUED\r\n+OK\r\n+PONG\r\n")] ++
    List.replicate 10 .follow

/-- The replies that have come. -/
theorem replies_ahead : replies ahead =
    [.bytes (Bytes.ascii "PONG"), .bytes (Bytes.ascii "OK"), .bytes (Bytes.ascii "QUEUED"),
      .error (Text.ofString "ERR nested"), .bytes (Bytes.ascii "QUEUED"), .array [.int 6, .int 7],
      .bytes (Bytes.ascii "OK"), .bytes (Bytes.ascii "QUEUED"), .bytes (Bytes.ascii "OK"),
      .bytes (Bytes.ascii "PONG")] := by decide +kernel

/-- The server answers both transactions as it should. -/
theorem served_ahead :
    (⟨[.command, .nested, .command], false⟩ : RawTransaction).Served 1 ahead ∧
      (⟨[.command], true⟩ : RawTransaction).Served 6 ahead := by
  have hr := replies_ahead
  refine ⟨⟨?_, ?_, ?_⟩, ⟨?_, ?_, ?_⟩⟩
  · rw [hr]
    rintro r ⟨⟩
    rfl
  · rw [hr]
    rintro (_ | _ | _ | j) i r hi h <;> cases hi <;> cases h
    · rfl
    · exact ⟨_, rfl⟩
    · rfl
  · rw [hr]
    rintro r ⟨⟩
    exact .inl ⟨_, rfl, rfl⟩
  · rw [hr]
    rintro r ⟨⟩
    rfl
  · rw [hr]
    rintro (_ | j) i r hi h <;> cases hi
    cases h
    rfl
  · rw [hr]
    rintro r ⟨⟩
    rfl

/-- The last command of the executed transaction has its element, though an opening was refused and
another command given up, and the command of the discarded transaction is cancelled. -/
theorem resolved_run_ahead :
    let c := (Connection.start (.none, .none) .none).run ahead
    c.outcome? 4 = some (.reply (.int 7)) ∧ c.outcome? 7 = some .cancelled := by
  have hr := replies_ahead
  obtain ⟨h, -⟩ := resolved_run (.none, .none) .none twoTransactions ahead (by decide +kernel)
    ⟨by decide +kernel, by decide +kernel⟩
  have hd : ((Connection.start (.none, .none) .none).run ahead).due = [] := by decide +kernel
  have hg {t : Ticket} (ht : t ≠ 2) (o : Outcome) :
      ¬ GivenUp (.start (.none, .none) .none) ahead t o :=
    not_givenUp_of_spares rfl (by simp [ahead, Event.spares, ht.symm]) o
  refine ⟨?_, ?_⟩
  · have hx := h [.direct] _ _ rfl served_ahead.1 (hg (by decide))
    obtain ⟨r, hi, ho⟩ := hx.executed rfl [.int 6, .int 7] (by rw [hr]; rfl) (by simp [hd]) 1 4 rfl
      (hg (by decide))
    cases hi
    exact ho
  · have hy := h [.direct, .transaction ⟨[.command, .nested, .command], false⟩] _ _ rfl
      served_ahead.2 (hg (by decide))
    exact hy.discarded rfl (.bytes (Bytes.ascii "OK")) (by rw [hr]; rfl) (by simp [hd]) 7
      (by decide) fun o ho => absurd ho (hg (by decide) o)

end SortedSets

import SortedSets.Proofs.Session.Queueing
import SortedSets.Proofs.Session.Row

/-!
# The sending of a batch

The commands of a batch are sent one after the other. Those that were sent wait for their
exchanges, those that could not be sent have ended, and the others are as they were before. When
all were sent the batch begins to count its exchanges.

## Main definitions

* `Session.Sending.Sound`: how far the sending of a batch has come

## Main results

* `Session.Sending.Sound.frame`, `Session.Sending.Sound.slot`: one more command
* `Session.Holds.run`: a batch is sent
-/

namespace SortedSets

namespace Session

variable {terms : Terms} {owners : List Owner}

namespace Sending

/-- How far the sending of the commands `slots` of the batch `b`, whose handle is `h`, has come:
those before `i` were sent or have ended. -/
structure SoundFor (terms : Terms) (owners : List Owner) (b : BatchId)
    (slots : List Slot) (h : HandleId) (i : Nat) (listener? : Ticket → Option Listener)
    (told? : Ticket → Option Outcome) (x : Sending) : Prop where
  view : View listener? told? x.early x.session
  consistent : Consistent terms owners listener? told? none x.session
  batch : ∃ y : Batch, x.session.batches[b]? = some y ∧ y.spent = true ∧ y.run = none ∧
    y.slots.map Slot.claim = slots.map Slot.claim ∧ ∀ j, i ≤ j → y.slots[j]? = slots[j]?
  owner : owners[h]? = some (.batch b)
  pending : x.session.ending? h = none
  nodup : x.tickets.Nodup
  mem_tickets : ∀ t, t ∈ x.tickets ↔ (listener? t).bind Listener.batch? = some b
  untold : ∀ t ∈ x.tickets, told? t = none
  rest : ∀ (j : Nat) (slot : Slot), i ≤ j → slots[j]? = some slot →
    (∀ t, listener? t ≠ some (.slot b j)) ∧
      x.session.Knows terms.given slot.handle (Outcome.ending slot.command.reading) none
  sent : ∀ (j : Nat) (slot : Slot), j < i → slots[j]? = some slot →
    x.session.ending? slot.handle = none → ∃ t, listener? t = some (.slot b j)
  /-- None of its commands was known to be never sent. -/
  fresh : ∀ j, ¬ terms.stranded b j

/-- How far the sending of a batch has come. -/
def Sound (terms : Terms) (owners : List Owner) (b : BatchId) (slots : List Slot)
    (h : HandleId) (i : Nat) (x : Sending) : Prop :=
  ∃ listener? told?, x.SoundFor terms owners b slots h i listener? told?

variable {b : BatchId} {slots : List Slot} {h : HandleId} {i i' : Nat}
  {listener? : Ticket → Option Listener} {told? : Ticket → Option Outcome} {x : Sending}

/-- A command is sent for somebody who listens for the batch: for its place from `i` up to `i'`, and
for none from there on. -/
theorem SoundFor.enlist (hx : x.SoundFor terms owners b slots h i listener? told?) {name : Value}
    {args : List Value} {l : Listener} {t : Ticket} (ht : (x.session.send name args l).2.2 = .ok t)
    (hbatch : l.batch? = some b) (hlisten : Listens terms.given owners x.session t none l)
    (hfresh : ∀ c j, l = .slot c j → ¬ terms.stranded c j ∧ ∀ u, listener? u ≠ some l)
    (hle : i ≤ i') (hhere : ∀ j, i ≤ j → j < i' → l = .slot b j)
    (hnot : ∀ j, i' ≤ j → l ≠ .slot b j) :
    Sound terms owners b slots h i' ⟨(x.session.send name args l).1, x.tickets ++ [t],
      x.early ++ (x.session.send name args l).2.1, none⟩ := by
  obtain ⟨hn, htold, L, hlt, hother, hv⟩ := hx.view.send_ok ht
  obtain ⟨y, hy, hysp, hyrun, hclaims, hrest⟩ := hx.batch
  refine ⟨L, told?, ⟨hv.swap, ?consistent, ⟨y, ?batch, hysp, hyrun, hclaims, fun j hj =>
    hrest j (Nat.le_trans hle hj)⟩, hx.owner, ?pending, ?nodup, ?mem_tickets, ?untold, ?rest,
    ?sent, hx.fresh⟩⟩
  case batch =>
    rwa [batches_send]
  case consistent =>
    refine (hx.consistent.enlist hn hlt hother htold hlisten hfresh ?_).congr (by simp) (by simp)
      (by simp)
    intro c hc z hz
    obtain rfl := Option.some.inj (hbatch.symm.trans hc)
    obtain rfl := Option.some.inj (hy.symm.trans hz)
    exact hyrun
  case pending =>
    rw [ending?_send, hx.pending]
  case nodup =>
    refine List.nodup_append.2 ⟨hx.nodup, by simp, ?_⟩
    rintro u hu v hv rfl
    obtain rfl := List.mem_singleton.1 hv
    have hm := (hx.mem_tickets u).1 hu
    rw [hn] at hm
    cases hm
  case mem_tickets =>
    intro u
    rw [List.mem_append, List.mem_singleton]
    by_cases hu : u = t
    · subst hu
      simp [hlt, hbatch]
    · rw [hother u hu, ← hx.mem_tickets u, or_iff_left hu]
  case untold =>
    intro u hu
    rcases List.mem_append.1 hu with hu | hu
    · exact hx.untold u hu
    · rwa [List.mem_singleton.1 hu]
  case rest =>
    intro j slot hj hslot
    obtain ⟨hnone, hk⟩ := hx.rest j slot (Nat.le_trans hle hj) hslot
    refine ⟨fun u hu => ?_, by rwa [Knows, ending?_send]⟩
    by_cases hut : u = t
    · subst hut
      exact hnot j hj (Option.some.inj (hlt.symm.trans hu))
    · exact hnone u (hother u hut ▸ hu)
  case sent =>
    intro j slot hj hslot hp
    rw [ending?_send] at hp
    rcases Nat.lt_or_ge j i with hji | hji
    · obtain ⟨u, hu⟩ := hx.sent j slot hji hslot hp
      refine ⟨u, (hother u ?_).trans hu⟩
      rintro rfl
      cases hn.symm.trans hu
    · exact ⟨t, hhere j hji hj ▸ hlt⟩

/-- A command around the batch is sent. -/
theorem SoundFor.sendFrame (hx : x.SoundFor terms owners b slots h i listener? told?) {name : Value}
    {args : List Value} {t : Ticket} (ht : (x.session.send name args (.frame b)).2.2 = .ok t) :
    Sound terms owners b slots h i ⟨(x.session.send name args (.frame b)).1, x.tickets ++ [t],
      x.early ++ (x.session.send name args (.frame b)).2.1, none⟩ := by
  obtain ⟨y, hy, hysp, -⟩ := hx.batch
  refine hx.enlist ht rfl (.frame hy hysp) (fun c j he => ?_) (Nat.le_refl i)
    (fun j hij hji => absurd hij (Nat.not_le_of_lt hji)) fun j _ he => ?_
  · cases he
  · cases he

/-- A command of the batch is sent. -/
theorem SoundFor.sendSlot (hx : x.SoundFor terms owners b slots h i listener? told?) {name : Value}
    {args : List Value} {t : Ticket} (ht : (x.session.send name args (.slot b i)).2.2 = .ok t)
    {slot : Slot} (hi : slots[i]? = some slot) :
    Sound terms owners b slots h (i + 1) ⟨(x.session.send name args (.slot b i)).1,
      x.tickets ++ [t], x.early ++ (x.session.send name args (.slot b i)).2.1, none⟩ := by
  obtain ⟨y, hy, hysp, -, -, hrest⟩ := hx.batch
  obtain ⟨hnone, hk⟩ := hx.rest i slot (Nat.le_refl i) hi
  refine hx.enlist ht rfl (.slot hy hysp ((hrest i (Nat.le_refl i)).trans hi) hk)
    (fun c j he => ?_) (Nat.le_succ i) (fun j hij hji => ?_) fun j hij he => ?_
  · -- nobody listened for this place before
    obtain ⟨rfl, rfl⟩ := Listener.slot.inj he
    exact ⟨hx.fresh i, hnone⟩
  · rw [Nat.le_antisymm hij (Nat.le_of_lt_succ hji)]
  · obtain ⟨-, rfl⟩ := Listener.slot.inj he
    exact Nat.not_succ_le_self i hij

/-- A command that is not sent leaves the batch as it is. -/
theorem SoundFor.send_error (hx : x.SoundFor terms owners b slots h i listener? told?) {name : Value}
    {args : List Value} {l : Listener} {e : Error}
    (he : (x.session.send name args l).2.2 = .error e) (error : Option Error) :
    SoundFor terms owners b slots h i listener? told? ⟨(x.session.send name args l).1, x.tickets,
      x.early ++ (x.session.send name args l).2.1, error⟩ := by
  obtain ⟨hnone, hv⟩ := hx.view.send_error he
  obtain ⟨y, hy, hbatch⟩ := hx.batch
  exact { hx with
    view := by rwa [hnone, List.append_nil]
    consistent := hx.consistent.congr (by simp) (by simp) (by simp)
    batch := ⟨y, by rwa [batches_send], hbatch⟩
    pending := by rw [ending?_send, hx.pending]
    rest := fun j slot hj hslot => by
      rw [Knows, ending?_send]
      exact hx.rest j slot hj hslot
    sent := fun j slot hj hslot hp => hx.sent j slot hj hslot (by rwa [ending?_send] at hp) }

/-- A place whose handle has ended is passed over. -/
theorem SoundFor.passOver (hx : x.SoundFor terms owners b slots h i listener? told?)
    (hended : ∀ slot, slots[i]? = some slot → x.session.ending? slot.handle ≠ none) :
    x.SoundFor terms owners b slots h (i + 1) listener? told? := by
  obtain ⟨y, hy, hysp, hyrun, hclaims, hrest⟩ := hx.batch
  refine { hx with
    batch := ⟨y, hy, hysp, hyrun, hclaims, fun j hj => hrest j (Nat.le_of_succ_le hj)⟩
    rest := fun j slot hj => hx.rest j slot (Nat.le_of_succ_le hj)
    sent := fun j slot hj hslot hp => ?_ }
  rcases Nat.lt_succ_iff_lt_or_eq.1 hj with hji | rfl
  · exact hx.sent j slot hji hslot hp
  · exact absurd hp (hended slot hslot)

/-- A slot that is still to be sent has an error. -/
theorem SoundFor.fillFailed (hx : x.SoundFor terms owners b slots h i listener? told?) {slot : Slot}
    (hi : slots[i]? = some slot) (hf : slot.filled = false) (e : Error) :
    SoundFor terms owners b slots h (i + 1) listener? told?
      { x with session := x.session.fillSlot b i (.failed e) } := by
  obtain ⟨y, hy, hysp, hyrun, hclaims, hrest⟩ := hx.batch
  have hc := hx.consistent
  have hyi : y.slots[i]? = some slot := (hrest i (Nat.le_refl i)).trans hi
  have ho := hc.slot b y i slot hy hyi
  have hfill : x.session.fillSlot b i (.failed e) =
      (x.session.endHandle slot.handle (.failed e)).setBatch b (y.fill i slot) := by
    rw [fillSlot_eq hy hyi, hf, setBatch_endHandle]
    rfl
  have hend := ending?_endHandle_self x.session (.failed e) (hc.lt_length ho)
  -- nobody relies on a handle whose command is still to be sent
  have hfree : ¬ Consistent.Relied terms listener? x.session (.slot b i) := by
    rintro (⟨t, ht⟩ | hst | ⟨z, hz, hrun⟩)
    · exact (hx.rest i slot (Nat.le_refl i) hi).1 t ht
    · exact hx.fresh i hst
    · obtain rfl := Option.some.inj (hy.symm.trans hz)
      exact hrun hysp hyrun
  rw [hfill]
  refine { hx with
    view := hx.view.congr (by simp)
    consistent := ?consistent
    batch := ⟨y.fill i slot, getElem?_setBatch_self _ _ (y := y) (by simpa using hy), hysp, hyrun,
      (claims_fill hyi).trans hclaims, ?same⟩
    pending := ?pending
    rest := ?rest
    sent := ?sent }
  case same =>
    intro j hj
    rw [Batch.fill, List.getElem?_set_ne (by omega), hrest j (by omega)]
  case consistent =>
    have hidle := hc.not_fetches (h := slot.handle) (by simp [ho])
    refine (hc.endHandle_of_not_relied ho hfree hidle _).fill (by simpa using hy) hyi ?_
    rw [hend]
    cases x.session.ending? slot.handle <;> simp
  case pending =>
    rw [ending?_setBatch, ending?_endHandle_of_ne, hx.pending]
    intro heq
    rw [← heq, hx.owner] at ho
    cases ho
  case rest =>
    intro j slot' hj hslot'
    obtain ⟨hl, hk⟩ := hx.rest j slot' (by omega) hslot'
    refine ⟨hl, ?_⟩
    have hne : slot'.handle ≠ slot.handle := by
      intro heq
      have ho' := hc.slot b y j slot' hy ((hrest j (by omega)).trans hslot')
      rw [heq, ho] at ho'
      cases ho'
      exact Nat.not_succ_le_self _ hj
    rwa [Knows, ending?_setBatch, ending?_endHandle_of_ne _ _ hne]
  case sent =>
    intro j slot' hj hslot' hp
    rw [ending?_setBatch] at hp
    rcases Nat.lt_succ_iff_lt_or_eq.1 hj with hji | rfl
    · refine hx.sent j slot' hji hslot' (pending_of_stays (fun a ha => ?_) hp)
      exact ending?_endHandle_of_some x.session slot.handle (.failed e) ha
    · -- the handle of this command has ended
      obtain rfl := Option.some.inj (hi.symm.trans hslot')
      rw [hend] at hp
      cases hse : x.session.ending? slot.handle <;> simp [hse] at hp

namespace Sound

/-- A command around the batch. -/
theorem frame (hx : x.Sound terms owners b slots h i) (w : String) :
    (x.frame b w).Sound terms owners b slots h i := by
  obtain ⟨L, T, hx⟩ := hx
  cases he : x.error with
  | some e =>
    simp only [Sending.frame, he]
    exact ⟨L, T, hx⟩
  | none =>
    simp only [Sending.frame, he]
    split
    · next t ht => exact hx.sendFrame ht
    · next e hr => exact ⟨L, T, hx.send_error hr (some e)⟩

/-- A command of the batch. -/
theorem slot (hx : x.Sound terms owners b slots h i) (he : x.error = none) {slot : Slot}
    (hi : slots[i]? = some slot) : (x.slot b i slot).Sound terms owners b slots h (i + 1) := by
  obtain ⟨L, T, hx⟩ := hx
  simp only [Sending.slot, he]
  split
  · next t ht => exact hx.sendSlot ht hi
  · next e hr =>
    split
    · next hf =>
      -- the slot is filled, so that its handle has ended
      obtain ⟨y, hy, -, -, -, hsame⟩ := hx.batch
      have hyi : y.slots[i]? = some slot := (hsame i (Nat.le_refl i)).trans hi
      have hended := hx.consistent.filled b y hy slot (List.mem_of_getElem? hyi) hf
      refine ⟨L, T, (hx.passOver fun z hz => ?_).send_error hr (some .invalidState)⟩
      obtain rfl := Option.some.inj (hi.symm.trans hz)
      exact hended
    · next hf =>
      exact ⟨L, T, (hx.send_error hr none).fillFailed hi (by simpa using hf) e⟩

end Sound

/-- The commands of a batch open and end no transaction. -/
theorem SoundFor.verb (hx : x.SoundFor terms owners b slots h i listener? told?) (slot : Slot)
    (hs : slot ∈ slots) : Verb.ofWord (.bytes slot.command.name) = .ok .other := by
  obtain ⟨y, hy, -, -, hclaims, -⟩ := hx.batch
  obtain ⟨j, hj⟩ := List.mem_iff_getElem?.1 hs
  obtain ⟨z, hz, -, hzc⟩ := exists_of_claims hclaims.symm hj
  rw [← hzc]
  exact (hx.consistent.command b y hy z (List.mem_of_getElem? hz)).verb

/-- The commands of the batch from `i` on, one after the other, up to where they are broken off. -/
theorem sound_slots {rest : List Slot} (hrest : slots.drop i = rest)
    (hx : x.Sound terms owners b slots h i) (he : x.error = none) {c : Connection Listener}
    (hc : x.session.connection = some c) :
    ∃ j, slots.drop j = behindBlock c rest ∧
      (Sending.slots b i rest x).Sound terms owners b slots h j := by
  induction rest generalizing i x c with
  | nil => exact ⟨i, hrest, hx⟩
  | cons slot rest ih =>
    have hslot : slots[i]? = some slot := by
      rw [← Nat.add_zero i, ← List.getElem?_drop, hrest]
      rfl
    have hnext : slots.drop (i + 1) = rest := by
      rw [← List.tail_drop, hrest]
      rfl
    have hsound := hx.slot he hslot
    obtain ⟨L, T, hfor⟩ := hx
    have hd := hfor.view.due hc
    rw [Sending.slots, behindBlock]
    cases hb : slot.blocks c with
    | true =>
      rw [slot_of_blocks he hc hd hb] at hsound ⊢
      rw [slots_of_error rfl, if_pos rfl]
      exact ⟨i + 1, hnext, hsound⟩
    | false =>
      rw [if_neg Bool.false_ne_true]
      cases hf : slot.fits c with
      | true =>
        have heq := slot_of_fits (b := b) (i := i) he hc hf
          (hfor.verb slot (List.mem_of_getElem? hslot))
        obtain ⟨j, hj, hsj⟩ := ih hnext hsound (by rw [heq]) (by rw [heq])
        rw [behindBlock_congr (Connection.isClosed_executeAll ..)] at hj
        exact ⟨j, hj, hsj⟩
      | false =>
        have hfill : slot.filled = false := by simpa [Slot.blocks, hf] using hb
        obtain ⟨e, heq⟩ := slot_of_misfit (b := b) (i := i) he hc hd hf hfill
        exact ih hnext hsound (by rw [heq]; exact he) (by rw [heq]; simpa using hc)

/-- All commands of a batch sent, between those that make it a transaction: the places from `j` on
are not reached. -/
theorem sound_all {y : Batch} {s : Session} {c : Connection Listener}
    (hx : Sound terms owners b y.slots h 0 ⟨s, [], [], none⟩) (hc : s.connection = some c) :
    ∃ j, y.slots.drop j = y.unreached c ∧
      (Sending.all b y s).Sound terms owners b y.slots h j := by
  unfold Sending.all Batch.unreached
  dsimp only
  cases htr : y.transactional with
  | false => exact sound_slots rfl hx rfl hc
  | true =>
    rw [if_pos rfl]
    have hm := hx.frame "MULTI"
    cases hcl : c.isClosed with
    | true =>
      -- the transaction is not begun
      obtain ⟨L, T, hfor⟩ := hx
      rw [frame_of_closed rfl hc (hfor.view.due hc) hcl] at hm ⊢
      rw [slots_of_error rfl, frame_of_error rfl, Bool.and_self, if_pos rfl]
      exact ⟨0, List.drop_zero, hm⟩
    | false =>
      have heq := frame_of_sendable (b := b) (x := ⟨s, [], [], none⟩) rfl hc (sendable_frame hcl b).1
      obtain ⟨j, hj, hsj⟩ := sound_slots rfl hm (by rw [heq]) (by rw [heq])
      rw [behindBlock_congr (Connection.isClosed_executeAll ..)] at hj
      exact ⟨j, hj, hsj.frame "EXEC"⟩

end Sending

end Session

end SortedSets

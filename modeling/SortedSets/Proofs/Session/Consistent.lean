import SortedSets.Proofs.Connection.Notices
import SortedSets.Proofs.Session.Handles

/-!
# What handles and batches know of the exchanges

Each handle belongs to one owner: to an exchange, to a slot of a batch, to a batch as a whole, to a
step of a cursor, or to something else. A handle has ended as soon as its owner was told the outcome,
and not before, unless its holder gave it up; a batch counts the exchanges that it was not told of;
and a step that waits for a page is pending, and is given up together with the request for the page.
This is the invariant from which everything about batches and steps follows.

An outcome that an operation of the connection brought about is told a little later, one after the
other, so that what was told is not always what has an outcome: the invariant speaks of what was
told.

## Main definitions

* `Owner`: to whom a handle belongs
* `Listener.owner`, `Listener.batch?`: the owner of a handle, and the batch, that a listener speaks
  for
* `Batch.KeepsSlots`: a batch that changed, with its slots in their places
* `Session.Agrees`, `Session.Consistent`: a batch agrees with what was told, and so do all handles
  and batches

## Main results

* `Session.Consistent.slots_ended`: a batch that waits for no exchange has no pending handle
* `Session.Consistent.of_batches_eq`: what leaves the batches as they are
* `Session.Consistent.of_endings`: what leaves the handles alone that anybody relies on
* `Session.Consistent.told`, `Session.Consistent.ofBatches`: an exchange is told its outcome, batches
  change
-/

namespace SortedSets

/-- To whom a handle belongs. -/
inductive Owner where
  | exchange (t : Ticket)
  | slot (b : BatchId) (i : Nat)
  | batch (b : BatchId)
  | step (c : CursorId) (step : Step)
  | other

/-- The cursor and the step to which a handle belongs. -/
def Owner.step? : Owner → Option (CursorId × Step)
  | .step c way => some (c, way)
  | _ => none

/-- The owner of the handle that an outcome of the exchange `t` ends. -/
def Listener.owner (t : Ticket) : Listener → Owner
  | .slot b i => .slot b i
  | .frame _ => .other
  | .fetching _ c step => .step c step
  | _ => .exchange t

/-- The batch that waits for an exchange. -/
def Listener.batch? : Listener → Option BatchId
  | .frame b | .slot b _ => some b
  | _ => none

theorem Listener.eq_of_owner_slot {t : Ticket} {b : BatchId} {i : Nat} {l : Listener}
    (h : l.owner t = .slot b i) : l = .slot b i := by
  cases l <;> simp_all [Listener.owner]

theorem Listener.owner_ne_batch (t : Ticket) (b : BatchId) (l : Listener) :
    l.owner t ≠ .batch b := by
  cases l <;> simp [Listener.owner]

/-- The slots of a batch keep their places, and a batch that was sent stays sent. -/
structure Batch.KeepsSlots (x x' : Batch) : Prop where
  spent : x.spent = true → x'.spent = true
  slot : ∀ (i : Nat) (slot : Slot), x.slots[i]? = some slot →
    ∃ slot', x'.slots[i]? = some slot' ∧ slot'.handle = slot.handle ∧
      slot'.command = slot.command

theorem Batch.KeepsSlots.refl (x : Batch) : x.KeepsSlots x :=
  ⟨fun h => h, fun _ slot hi => ⟨slot, hi, rfl, rfl⟩⟩

/-- A command that a method of the client makes. -/
def Command.Made (mode : Mode) (c : Command) : Prop :=
  ∃ (m : Method) (args : List Value) (named : List (String × Value)),
    m.call mode args named = .ok (.send c)

namespace Session

/-- What is known beforehand of a run of a session. -/
structure Terms where
  /-- Handles that their holders may give up. -/
  given : HandleId → Prop
  /-- Places in batches whose commands are never sent. -/
  stranded : BatchId → Nat → Prop

/-- Nothing is known of commands that are never sent. -/
def Terms.ofGiven (given : HandleId → Prop) : Terms where
  given := given
  stranded _ _ := False

/-- The places of a batch from `j` on are not reached by its sending. -/
def Terms.strand (terms : Terms) (b : BatchId) (j n : Nat) : Terms where
  given := terms.given
  stranded c i := terms.stranded c i ∨ c = b ∧ j ≤ i ∧ i < n

/-- A handle whose owner was told `o?` has ended as `f` reads it, unless its holder gave it up. -/
def Knows (given : HandleId → Prop) (s : Session) (h : HandleId) (f : Outcome → Ending)
    (o? : Option Outcome) : Prop :=
  s.ending? h = o?.map f ∨ given h ∧ s.ending? h = some .cancelled

/-- Who listens to an exchange that was told `o?` is there, and knows it. -/
inductive Listens (given : HandleId → Prop) (owners : List Owner) (s : Session) (t : Ticket)
    (o? : Option Outcome) : Listener → Prop
  | reading {l : Listener} {h : HandleId} {f : Outcome → Ending} (hl : l.reading? = some (h, f))
      (ho : owners[h]? = some (.exchange t))
      (hk : s.Knows given h f o?) : Listens given owners s t o? l
  | frame {b : BatchId} {x : Batch} (hb : s.batches[b]? = some x) (hx : x.spent = true) :
      Listens given owners s t o? (.frame b)
  | slot {b : BatchId} {x : Batch} {i : Nat} {slot : Slot} (hb : s.batches[b]? = some x)
      (hx : x.spent = true) (hi : x.slots[i]? = some slot)
      (hk : s.Knows given slot.handle (Outcome.ending slot.command.reading) o?) :
      Listens given owners s t o? (.slot b i)
  | fetching {h : HandleId} {c : CursorId} {step : Step} (ho : owners[h]? = some (.step c step))
      (hk : o? = none → s.ending? h = none ∧ s.source? h = some (.exchange t)) :
      Listens given owners s t o? (.fetching h c step)

/-- The step whose handle is `h` waits for a page. -/
def Fetches (listener? : Ticket → Option Listener) (told? : Ticket → Option Outcome)
    (h : HandleId) : Prop :=
  ∃ t c step, listener? t = some (.fetching h c step) ∧ told? t = none

/-- The exchanges of a batch that were not told. -/
def untold (told? : Ticket → Option Outcome) (ts : List Ticket) : Nat :=
  ts.countP fun t => (told? t).isNone

/-- A batch that was sent waits for its exchanges, of which `debt` were told and not yet counted,
and has ended when none is left. -/
structure Counts (given : HandleId → Prop) (owners : List Owner) (listener? : Ticket → Option Listener)
    (told? : Ticket → Option Outcome) (debt : Nat) (s : Session) (b : BatchId) (x : Batch)
    (r : Run) : Prop where
  owner : owners[r.handle]? = some (.batch b)
  nodup : r.tickets.Nodup
  mem_tickets : ∀ t, t ∈ r.tickets ↔ (listener? t).bind Listener.batch? = some b
  outstanding : r.outstanding = untold told? r.tickets + debt
  /-- A pending handle waits for an exchange. -/
  sent : ∀ (i : Nat) (slot : Slot), x.slots[i]? = some slot → s.ending? slot.handle = none →
    ∃ t, listener? t = some (.slot b i)
  ending : ∀ e, s.ending? r.handle = some e → r.outstanding = 0 ∧ e = s.batchEnding x r
  ended : r.outstanding = 0 → r.tickets ≠ [] → s.ending? r.handle ≠ none
  cancelled : r.cancelled = true → given r.handle

/-- The batch `x`, at the place `b`, agrees with what its handles and its exchanges were told. -/
structure Agrees (given : HandleId → Prop) (owners : List Owner)
    (listener? : Ticket → Option Listener) (told? : Ticket → Option Outcome) (debt : Nat)
    (s : Session) (b : BatchId) (x : Batch) : Prop where
  slot : ∀ (i : Nat) (slot : Slot), x.slots[i]? = some slot →
    owners[slot.handle]? = some (.slot b i)
  command : ∀ slot ∈ x.slots, slot.command.Made x.mode
  unspent : x.spent = false → x.run = none ∧ ∀ slot ∈ x.slots,
    s.Knows given slot.handle (Outcome.ending slot.command.reading) none
  filled : ∀ slot ∈ x.slots, slot.filled = true → s.ending? slot.handle ≠ none
  counts : ∀ r, x.run = some r → Counts given owners listener? told? debt s b x r

/-- Handles and batches agree with what they were told: `listener? t` listens to the exchange `t`,
which was told `told? t`. The batch `owing`, if any, has yet to count one exchange. -/
structure Consistent (terms : Terms) (owners : List Owner)
    (listener? : Ticket → Option Listener) (told? : Ticket → Option Outcome)
    (owing : Option BatchId) (s : Session) : Prop where
  length_eq : owners.length = s.handles.length
  /-- What is given up with a handle is its owner's. -/
  alone : ∀ h b, s.source? h = some .alone → owners[h]? ≠ some (.batch b)
  ofExchange : ∀ h t b i, s.source? h = some (.exchange t) → owners[h]? ≠ some (.slot b i)
  ofSlot : ∀ h b i, s.source? h = some (.slot b i) → ∃ (x : Batch) (slot : Slot),
    s.batches[b]? = some x ∧ x.slots[i]? = some slot ∧ slot.handle = h
  ofRun : ∀ h b, s.source? h = some (.run b) → owners[h]? = some (.batch b)
  /-- A batch that was sent has one handle. -/
  spent : ∀ (h : HandleId) (b : BatchId), owners[h]? = some (.batch b) →
    ∃ x, s.batches[b]? = some x ∧ x.spent = true
  oneRun : ∀ (h k : HandleId) (b : BatchId), owners[h]? = some (.batch b) →
    owners[k]? = some (.batch b) → h = k
  listening : ∀ t l, listener? t = some l → s.Listens terms.given owners t (told? t) l
  unique : ∀ t u b i, listener? t = some (.slot b i) → listener? u = some (.slot b i) → t = u
  slot : ∀ (b : BatchId) (x : Batch) (i : Nat) (slot : Slot), s.batches[b]? = some x → x.slots[i]? = some slot →
    owners[slot.handle]? = some (.slot b i)
  command : ∀ (b : BatchId) (x : Batch), s.batches[b]? = some x → ∀ slot ∈ x.slots,
    slot.command.Made x.mode
  unspent : ∀ (b : BatchId) (x : Batch), s.batches[b]? = some x → x.spent = false →
    x.run = none ∧ ∀ slot ∈ x.slots,
      s.Knows terms.given slot.handle (Outcome.ending slot.command.reading) none
  filled : ∀ (b : BatchId) (x : Batch), s.batches[b]? = some x → ∀ slot ∈ x.slots,
    slot.filled = true → s.ending? slot.handle ≠ none
  counts : ∀ (b : BatchId) (x : Batch) (r : Run), s.batches[b]? = some x → x.run = some r →
    Counts terms.given owners listener? told? (if owing = some b then 1 else 0) s b x r
  closer : ∀ p ∈ s.closers, owners[p.1]? = some .other
  /-- A handle whose command is never sent is pending. -/
  stranded : ∀ (b : BatchId) (i : Nat), terms.stranded b i → ∃ (x : Batch) (slot : Slot),
    s.batches[b]? = some x ∧ x.slots[i]? = some slot ∧ x.spent = true ∧
      (∀ t, listener? t ≠ some (.slot b i)) ∧
      s.Knows terms.given slot.handle (Outcome.ending slot.command.reading) none

variable {terms : Terms} {owners : List Owner} {listener? : Ticket → Option Listener}
  {told? told'? : Ticket → Option Outcome} {owing : Option BatchId} {s s' : Session}

/-! ## Counting -/

/-- One more exchange was told. -/
theorem untold_of_told {ts : List Ticket} {t : Ticket}
    (hn : ts.Nodup) (ht : t ∈ ts) (hp : told? t = none) (hq : told'? t ≠ none)
    (hu : ∀ u, u ≠ t → told'? u = told? u) : untold told? ts = untold told'? ts + 1 := by
  induction ts with
  | nil => cases ht
  | cons u ts ih =>
    obtain ⟨hu', hn⟩ := List.nodup_cons.1 hn
    simp only [untold, List.countP_cons] at ih ⊢
    have hq' : (told'? t).isNone = false := by
      rwa [Option.isNone_eq_false_iff, Option.isSome_iff_ne_none]
    rcases List.mem_cons.1 ht with rfl | ht
    · -- it is the first one, and none of the others
      have hrest : ts.countP (fun u => (told? u).isNone) =
          ts.countP fun u => (told'? u).isNone := by
        refine List.countP_congr fun u hm => ?_
        rw [hu u fun he => hu' (he ▸ hm)]
      rw [hrest, hp, hq']
      simp
    · rw [ih hn ht, hu u fun he => hu' (he ▸ ht)]
      omega

/-- Exchanges that were told as before. -/
theorem untold_congr {ts : List Ticket}
    (h : ∀ t ∈ ts, told'? t = told? t) : untold told'? ts = untold told? ts :=
  List.countP_congr fun t ht => by rw [h t ht]

/-- A batch that waits for none of its exchanges was told of all of them. -/
theorem told_of_untold {ts : List Ticket} (h : untold told? ts = 0) {t : Ticket} (ht : t ∈ ts) :
    told? t ≠ none := by
  have hp := List.countP_eq_zero.1 h t ht
  simpa using hp

/-! ## Being told -/

/-- A handle that knew nothing ends as its owner is told. -/
theorem Knows.told {given : HandleId → Prop} {h : HandleId} {f : Outcome → Ending}
    (hk : s.Knows given h f none) (hlt : h < s.handles.length) (o : Outcome) :
    (s.endHandle h (f o)).Knows given h f (some o) := by
  rcases hk with hk | ⟨hg, hk⟩
  · left
    rw [ending?_endHandle_self s _ hlt, hk]
    rfl
  · exact .inr ⟨hg, ending?_endHandle_of_some s h _ hk⟩

/-- Who still waits for a page when an exchange was told did so before. -/
theorem Fetches.of_told {h : HandleId} {t : Ticket} (hf : Fetches listener? told'? h)
    (hn : told? t = none) (hu : ∀ u, u ≠ t → told'? u = told? u) : Fetches listener? told? h := by
  obtain ⟨u, c, step, hl, hnone⟩ := hf
  refine ⟨u, c, step, hl, ?_⟩
  by_cases hut : u = t
  · exact hut ▸ hn
  · rw [← hu u hut, hnone]

/-! ## The ends of batches -/

theorem mapM_congr {α β : Type} {f g : α → Option β} {xs : List α} (h : ∀ x ∈ xs, f x = g x) :
    xs.mapM f = xs.mapM g := by
  induction xs with
  | nil => rfl
  | cons x xs ih =>
    rw [List.mapM_cons, List.mapM_cons, h x List.mem_cons_self,
      ih fun y hy => h y (List.mem_cons_of_mem x hy)]

/-- A batch ends by how its handles have ended. -/
theorem batchEnding_congr {x x' : Batch} {r : Run}
    (ht : x'.transactional = x.transactional)
    (hs : x'.slots.map Slot.handle = x.slots.map Slot.handle)
    (he : ∀ slot ∈ x.slots, s'.ending? slot.handle = s.ending? slot.handle) :
    s'.batchEnding x' r = s.batchEnding x r := by
  have hm : x'.slots.mapM (fun slot => s'.replyOf? slot.handle) =
      x.slots.mapM fun slot => s.replyOf? slot.handle := by
    have hall (y : Batch) (s : Session) : y.slots.mapM (fun slot => s.replyOf? slot.handle) =
        (y.slots.map Slot.handle).mapM s.replyOf? := by
      rw [List.mapM_map]
      rfl
    rw [hall, hall, hs]
    refine mapM_congr fun h hh => ?_
    obtain ⟨slot, hslot, rfl⟩ := List.mem_map.1 hh
    exact congrArg (Option.bind · Ending.reply?) (he slot hslot)
  simp only [batchEnding, hm, ht]

/-! ## What a batch waits for -/

/-- A batch whose exchanges were told as before or counted anew, while its own handle stays as it
is and so do all others once it has ended. -/
theorem Counts.congr {b : BatchId} {x : Batch} {r : Run} {debt debt' : Nat}
    (hc : Counts terms.given owners listener? told? debt s b x r)
    (ho : r.outstanding = untold told'? r.tickets + debt')
    (hp : ∀ slot ∈ x.slots, s'.ending? slot.handle = none → s.ending? slot.handle = none)
    (hr : s'.ending? r.handle = s.ending? r.handle)
    (he : r.outstanding = 0 → ∀ slot ∈ x.slots,
      s'.ending? slot.handle = s.ending? slot.handle) :
    Counts terms.given owners listener? told'? debt' s' b x r where
  owner := hc.owner
  nodup := hc.nodup
  mem_tickets := hc.mem_tickets
  outstanding := ho
  sent i slot hi hn := hc.sent i slot hi (hp slot (List.mem_of_getElem? hi) hn)
  ending e h := by
    obtain ⟨h₀, rfl⟩ := hc.ending e (hr ▸ h)
    exact ⟨h₀, (batchEnding_congr rfl rfl (he h₀)).symm⟩
  ended h₀ hn := hr ▸ hc.ended h₀ hn
  cancelled := hc.cancelled

/-! ## What a batch agrees with -/

/-- A batch whose handles are as they were. -/
theorem Agrees.congr {owners' : List Owner} {debt : Nat} {b : BatchId} {x : Batch}
    (hx : Agrees terms.given owners listener? told? debt s b x)
    (ho : ∀ (h : HandleId) (w : Owner), owners[h]? = some w → owners'[h]? = some w)
    (hslot : ∀ (h : HandleId) (i : Nat), owners[h]? = some (.slot b i) →
      s'.ending? h = s.ending? h)
    (hbatch : ∀ h : HandleId, owners[h]? = some (.batch b) → s'.ending? h = s.ending? h) :
    Agrees terms.given owners' listener? told? debt s' b x := by
  have hsame : ∀ slot ∈ x.slots, s'.ending? slot.handle = s.ending? slot.handle := by
    intro slot hm
    obtain ⟨i, hi⟩ := List.mem_iff_getElem?.1 hm
    exact hslot _ i (hx.slot i slot hi)
  refine ⟨fun i slot hi => ho _ _ (hx.slot i slot hi), hx.command, fun hsp => ?unspent,
    fun slot hm hf => ?filled, fun r hr => ?counts⟩
  case unspent =>
    obtain ⟨hr, hw⟩ := hx.unspent hsp
    refine ⟨hr, fun slot hm => ?_⟩
    rw [Knows, hsame slot hm]
    exact hw slot hm
  case filled =>
    rw [hsame slot hm]
    exact hx.filled slot hm hf
  case counts =>
    have hcount := hx.counts r hr
    have hcount' := hcount.congr hcount.outstanding (fun slot hm hn => hsame slot hm ▸ hn)
      (hbatch _ hcount.owner) fun _ => hsame
    exact { hcount' with owner := ho _ _ hcount.owner }

namespace Consistent

theorem agrees (hc : Consistent terms owners listener? told? owing s) {b : BatchId} {x : Batch}
    (hb : s.batches[b]? = some x) :
    Agrees terms.given owners listener? told? (if owing = some b then 1 else 0) s b x :=
  ⟨fun i slot => hc.slot b x i slot hb, hc.command b x hb, hc.unspent b x hb, hc.filled b x hb,
    fun r => hc.counts b x r hb⟩

theorem lt_length (hc : Consistent terms owners listener? told? owing s) {h : HandleId} {o : Owner}
    (ho : owners[h]? = some o) : h < s.handles.length :=
  hc.length_eq ▸ (List.getElem?_eq_some_iff.1 ho).1

/-- Only steps wait for pages. -/
theorem not_fetches (hc : Consistent terms owners listener? told? owing s) {h : HandleId}
    (ho : ∀ c step, owners[h]? ≠ some (.step c step)) : ¬ Fetches listener? told? h := by
  rintro ⟨t, c, step, ht, -⟩
  cases hc.listening t _ ht with
  | reading hr => cases hr
  | fetching ho' => exact ho c step ho'

/-- A step that waits for a page is pending, and is given up together with the request. -/
theorem pending_of_fetches (hc : Consistent terms owners listener? told? owing s) {h : HandleId}
    (hf : Fetches listener? told? h) : s.ending? h = none ∧ ∃ t, s.source? h = some (.exchange t) := by
  obtain ⟨t, c, step, ht, hn⟩ := hf
  cases hc.listening t _ ht with
  | reading hr => cases hr
  | fetching _ hk => exact ⟨(hk hn).1, t, (hk hn).2⟩

/-- A batch that waits for no exchange has no pending handle. -/
theorem slots_ended (hc : Consistent terms owners listener? told? owing s) {b : BatchId} {x : Batch}
    {r : Run} (hb : s.batches[b]? = some x) (hr : x.run = some r) (h₀ : r.outstanding = 0)
    {slot : Slot} (hs : slot ∈ x.slots) : s.ending? slot.handle ≠ none := by
  intro hn
  have hcount := hc.counts b x r hb hr
  -- a pending handle waits for an exchange of the batch, which was told
  obtain ⟨i, hi⟩ := List.mem_iff_getElem?.1 hs
  obtain ⟨t, ht⟩ := hcount.sent i slot hi hn
  have hmem : t ∈ r.tickets := (hcount.mem_tickets t).2 (by rw [ht]; rfl)
  have htold : told? t ≠ none := by
    refine told_of_untold ?_ hmem
    have := hcount.outstanding
    omega
  cases hc.listening t _ ht with
  | reading hl => cases hl
  | slot hb' _ hi' hk =>
    obtain rfl := Option.some.inj (hb.symm.trans hb')
    obtain rfl := Option.some.inj (hi.symm.trans hi')
    rcases hk with hk | ⟨-, hk⟩
    · rw [hk] at hn
      exact htold (Option.map_eq_none_iff.1 hn)
    · rw [hk] at hn
      cases hn

/-- Other terms of the same holders. -/
theorem restate (hc : Consistent terms owners listener? told? owing s) {terms' : Terms}
    (hg : terms'.given = terms.given)
    (hst : ∀ (b : BatchId) (i : Nat), terms'.stranded b i → ∃ (x : Batch) (slot : Slot),
      s.batches[b]? = some x ∧ x.slots[i]? = some slot ∧ x.spent = true ∧
        (∀ t, listener? t ≠ some (.slot b i)) ∧
        s.Knows terms.given slot.handle (Outcome.ending slot.command.reading) none) :
    Consistent terms' owners listener? told? owing s := by
  obtain ⟨given, stranded⟩ := terms'
  obtain rfl : given = terms.given := hg
  exact { hc with stranded := hst }

/-- The end of a handle says something if an exchange is to be told to its owner, or was, or never
will be. -/
def Relied (terms : Terms) (listener? : Ticket → Option Listener) (s : Session) : Owner → Prop
  | .exchange _ => True
  | .slot b i => (∃ t, listener? t = some (.slot b i)) ∨ terms.stranded b i ∨
      ∃ x, s.batches[b]? = some x ∧ (x.spent = true → x.run ≠ none)
  | .batch b => ∃ x, s.batches[b]? = some x ∧ x.run ≠ none
  | .step .. | .other => False

/-- A handle that is given up together with its own slot, or, if it has none, with an exchange. -/
def Sourced (owners : List Owner) (s : Session) (h : HandleId) (source : Source) : Prop :=
  (∃ t, source = .exchange t ∧ ∀ b i, owners[h]? ≠ some (.slot b i)) ∨
    ∃ (b : BatchId) (i : Nat) (x : Batch) (slot : Slot),
      source = .slot b i ∧ s.batches[b]? = some x ∧ x.slots[i]? = some slot ∧ slot.handle = h

/-- Nobody listens for a slot of a batch that was not sent. -/
theorem not_listened_of_unspent (hc : Consistent terms owners listener? told? owing s) {b : BatchId}
    {x : Batch} (hx : s.batches[b]? = some x) (hsp : x.spent = false) (t : Ticket) (i : Nat) :
    listener? t ≠ some (.slot b i) := by
  intro hl
  cases hc.listening t _ hl with
  | reading hr => cases hr
  | slot hx' hsp' =>
    obtain rfl := Option.some.inj (hx.symm.trans hx')
    cases hsp.symm.trans hsp'

/-- Batches stay as they are, and what has ended stays so: it remains to see that each listener
knows what it was told, that places that nobody listens for are as pending as before, and that
batches count what was told. -/
theorem of_batches_eq (hc : Consistent terms owners listener? told? owing s)
    {owing' : Option BatchId} (hlen : s'.handles.length = s.handles.length)
    (hb : s'.batches = s.batches) (hcl : ∀ p ∈ s'.closers, owners[p.1]? = some .other)
    (hs : ∀ h, s'.source? h = s.source? h ∨ ∃ source, s'.source? h = some source ∧
      Sourced owners s h source)
    (hkeep : ∀ h e, s.ending? h = some e → s'.ending? h = some e)
    (hlisten : ∀ t l, listener? t = some l → s'.Listens terms.given owners t (told'? t) l)
    (hsilent : ∀ (b : BatchId) (x : Batch) (i : Nat) (slot : Slot), s.batches[b]? = some x →
      x.slots[i]? = some slot → (∀ t, listener? t ≠ some (.slot b i)) →
      (x.spent = true → terms.stranded b i) →
      s.Knows terms.given slot.handle (Outcome.ending slot.command.reading) none →
      s'.Knows terms.given slot.handle (Outcome.ending slot.command.reading) none)
    (hcounts : ∀ (b : BatchId) (x : Batch) (r : Run), s.batches[b]? = some x → x.run = some r →
      s'.ending? r.handle = s.ending? r.handle ∧
        r.outstanding = untold told'? r.tickets + if owing' = some b then 1 else 0) :
    Consistent terms owners listener? told'? owing' s' := by
  have hsource {h : HandleId} {source : Source} (hh : s'.source? h = some source) :
      s.source? h = some source ∨ Sourced owners s h source := by
    rcases hs h with heq | ⟨source', hs', hw⟩
    · exact .inl (heq ▸ hh)
    · obtain rfl := Option.some.inj (hh.symm.trans hs')
      exact .inr hw
  refine ⟨hc.length_eq.trans hlen.symm, ?alone, ?ofExchange, ?ofSlot, ?ofRun, ?spent, hc.oneRun,
    hlisten, hc.unique, ?slot, ?command, ?unspent, ?filled, ?counts, hcl, ?stranded⟩
  case alone =>
    intro h b hh
    refine hc.alone h b ((hsource hh).resolve_right ?_)
    rintro (⟨t, he, -⟩ | ⟨b, i, x, slot, he, -⟩) <;> cases he
  case ofExchange =>
    intro h t b i hh
    rcases hsource hh with hh | ⟨-, -, ho⟩ | ⟨b', i', x, slot, he, -⟩
    · exact hc.ofExchange h t b i hh
    · exact ho b i
    · cases he
  case ofSlot =>
    intro h b i hh
    rw [hb]
    rcases hsource hh with hh | ⟨t, he, -⟩ | ⟨b', i', x, slot, he, hx, hi, hh⟩
    · exact hc.ofSlot h b i hh
    · cases he
    · obtain ⟨rfl, rfl⟩ := Source.slot.inj he
      exact ⟨x, slot, hx, hi, hh⟩
  case ofRun =>
    intro h b hh
    refine hc.ofRun h b ((hsource hh).resolve_right ?_)
    rintro (⟨t, he, -⟩ | ⟨b, i, x, slot, he, -⟩) <;> cases he
  case spent =>
    rw [hb]
    exact hc.spent
  case slot =>
    intro b x i slot hx
    exact hc.slot b x i slot (hb ▸ hx)
  case command =>
    rw [hb]
    exact hc.command
  case unspent =>
    intro b x hx hsp
    rw [hb] at hx
    obtain ⟨hr, hw⟩ := hc.unspent b x hx hsp
    refine ⟨hr, fun slot hm => ?_⟩
    obtain ⟨i, hi⟩ := List.mem_iff_getElem?.1 hm
    refine hsilent b x i slot hx hi (hc.not_listened_of_unspent hx hsp · i) (fun h => ?_)
      (hw slot hm)
    cases hsp.symm.trans h
  case filled =>
    intro b x hx slot hm hf hn
    exact hc.filled b x (hb ▸ hx) slot hm hf (pending_of_stays (hkeep slot.handle) hn)
  case counts =>
    intro b x r hx hr
    rw [hb] at hx
    obtain ⟨hend, hout⟩ := hcounts b x r hx hr
    refine (hc.counts b x r hx hr).congr hout (fun slot _ => pending_of_stays (hkeep slot.handle))
      hend fun h₀ slot hm => ?_
    -- all handles of the batch have ended
    obtain ⟨e, hse⟩ := Option.ne_none_iff_exists'.1 (hc.slots_ended hx hr h₀ hm)
    rw [hse, hkeep _ e hse]
  case stranded =>
    intro b i hst
    obtain ⟨x, slot, hx, hi, hsp, hl, hk⟩ := hc.stranded b i hst
    exact ⟨x, slot, hb ▸ hx, hi, hsp, hl, hsilent b x i slot hx hi hl (fun _ => hst) hk⟩

/-- What leaves the handles alone that anybody relies on, except that holders give theirs up, and
those of steps that wait for pages. -/
theorem of_endings (hc : Consistent terms owners listener? told? owing s)
    (hlen : s'.handles.length = s.handles.length) (hb : s'.batches = s.batches)
    (hcl : ∀ p ∈ s'.closers, owners[p.1]? = some .other)
    (hs : ∀ h, s'.source? h = s.source? h ∨ ∃ source, s'.source? h = some source ∧
      Sourced owners s h source)
    (hkeep : ∀ h e, s.ending? h = some e → s'.ending? h = some e)
    (he : ∀ h o, owners[h]? = some o → Relied terms listener? s o → s'.ending? h = s.ending? h ∨
      terms.given h ∧ (∀ b, o ≠ .batch b) ∧ s'.ending? h = some .cancelled)
    (hf : ∀ h, Fetches listener? told? h →
      s'.ending? h = s.ending? h ∧ s'.source? h = s.source? h) :
    Consistent terms owners listener? told? owing s' := by
  have hknow {h : HandleId} {o : Owner} {f : Outcome → Ending} {o? : Option Outcome}
      (ho : owners[h]? = some o) (hr : Relied terms listener? s o) (hk : s.Knows terms.given h f o?) :
      s'.Knows terms.given h f o? := by
    rcases he h o ho hr with hs | ⟨hg, -, hs⟩
    · rwa [Knows, hs]
    · exact .inr ⟨hg, hs⟩
  refine hc.of_batches_eq hlen hb hcl hs hkeep ?listening ?silent ?counts
  case listening =>
    intro t l ht
    cases hc.listening t l ht with
    | reading hl ho hk => exact .reading hl ho (hknow ho trivial hk)
    | frame hx hsp => exact .frame (hb ▸ hx) hsp
    | slot hx hsp hi hk =>
      exact .slot (hb ▸ hx) hsp hi (hknow (hc.slot _ _ _ _ hx hi) (.inl ⟨t, ht⟩) hk)
    | @fetching h c step ho hk =>
      refine .fetching ho fun hn => ?_
      obtain ⟨hend, hsrc⟩ := hf h ⟨t, c, step, ht, hn⟩
      rw [hend, hsrc]
      exact hk hn
  case silent =>
    -- a command that is not sent, or never sent, is relied on to be pending
    intro b x i slot hx hi _ hst hk
    refine hknow (hc.slot b x i slot hx hi) ?_ hk
    cases hsp : x.spent with
    | true => exact .inr (.inl (hst hsp))
    | false => exact .inr (.inr ⟨x, hx, fun h => by cases hsp.symm.trans h⟩)
  case counts =>
    intro b x r hx hr
    have hcount := hc.counts b x r hx hr
    refine ⟨?_, hcount.outstanding⟩
    exact (he _ _ hcount.owner ⟨x, hx, by simp [hr]⟩).resolve_right fun hg => hg.2.1 b rfl

/-- What changes neither handles nor batches. -/
theorem congr (hc : Consistent terms owners listener? told? owing s) (hh : s'.handles = s.handles)
    (hb : s'.batches = s.batches) (hcl : s'.closers = s.closers) :
    Consistent terms owners listener? told? owing s' :=
  hc.of_endings (by rw [hh]) hb (hcl ▸ hc.closer) (fun h => .inl (by rw [source?, hh, source?]))
    (fun h e he => by rwa [ending?, hh]) (fun h _ _ _ => .inl (by rw [ending?, hh, ending?]))
    fun h _ => ⟨by rw [ending?, hh, ending?], by rw [source?, hh, source?]⟩

/-- What ends when the transport is lost are handles that nobody relies on. -/
theorem withClosers (hc : Consistent terms owners listener? told? owing s)
    {closers : List (HandleId × Ending)} (hcl : ∀ p ∈ closers, owners[p.1]? = some .other) :
    Consistent terms owners listener? told? owing { s with closers := closers } :=
  hc.of_endings rfl rfl hcl (fun _ => .inl rfl) (fun _ _ he => he) (fun _ _ _ _ => .inl rfl)
    fun _ _ => ⟨rfl, rfl⟩

/-- A handle that nobody relies on ends. -/
theorem endHandle_of_not_relied (hc : Consistent terms owners listener? told? owing s)
    {h : HandleId} {o : Owner} (ho : owners[h]? = some o) (hr : ¬ Relied terms listener? s o)
    (hf : ¬ Fetches listener? told? h) (e : Ending) :
    Consistent terms owners listener? told? owing (s.endHandle h e) := by
  refine hc.of_endings (by simp) (by simp) (by simpa using hc.closer) (by simp)
    (fun k a hk => ending?_endHandle_of_some s h e hk) (fun k w hk hw => .inl ?_)
    fun k hk => ⟨?_, source?_endHandle ..⟩
  · refine ending?_endHandle_of_ne s e ?_
    rintro rfl
    exact hr (Option.some.inj (ho.symm.trans hk) ▸ hw)
  · refine ending?_endHandle_of_ne s e ?_
    rintro rfl
    exact hf hk

/-- A handle is given up by its holder. -/
theorem endHandle_given (hc : Consistent terms owners listener? told? owing s) {h : HandleId}
    (hg : terms.given h) (hn : s.ending? h = none) (ho : ∀ b, owners[h]? ≠ some (.batch b))
    (hf : ¬ Fetches listener? told? h) :
    Consistent terms owners listener? told? owing (s.endHandle h .cancelled) := by
  refine hc.of_endings (by simp) (by simp) (by simpa using hc.closer) (by simp)
    (fun k a hk => ending?_endHandle_of_some s h _ hk) (fun k o hk _ => ?_)
    fun k hk => ⟨ending?_endHandle_of_ne s _ fun hkh => hf (hkh ▸ hk), source?_endHandle ..⟩
  by_cases hkh : k = h
  · subst hkh
    refine .inr ⟨hg, fun b hb => ho b (hb ▸ hk), ?_⟩
    rw [ending?_endHandle_self s _ (hc.lt_length hk), hn]
    rfl
  · exact .inl (ending?_endHandle_of_ne s _ hkh)

/-- A handle is given up together with an exchange, or with its own slot, from now on. -/
theorem setSource (hc : Consistent terms owners listener? told? owing s) {h : HandleId}
    {source : Source} (hs : Sourced owners s h source) (hf : ¬ Fetches listener? told? h) :
    Consistent terms owners listener? told? owing (s.setSource h source) := by
  refine hc.of_endings (by simp) (by simp) (by simpa using hc.closer) (fun k => ?_) (by simp)
    (fun _ _ _ _ => .inl (by simp)) fun k hk => ⟨by simp, ?_⟩
  · rw [source?_setSource]
    split
    · next hk => exact .inr ⟨source, rfl, hk.1 ▸ hs⟩
    · exact .inl rfl
  · rw [source?_setSource, if_neg]
    rintro ⟨rfl, -⟩
    exact hf hk

/-! ## What is told -/

/-- An exchange is told its outcome: the handle of its owner ends accordingly, and its batch, if it
has one, owes a count. -/
theorem told (hc : Consistent terms owners listener? told? none s) {t : Ticket} {l : Listener}
    (hl : listener? t = some l) {o : Outcome} (hn : told? t = none) (ht : told'? t = some o)
    (hu : ∀ u, u ≠ t → told'? u = told? u) (hlen : s'.handles.length = s.handles.length)
    (hb : s'.batches = s.batches) (hcl : s'.closers = s.closers)
    (hs : ∀ h, s'.source? h = s.source? h)
    (he : ∀ h w, owners[h]? = some w → w ≠ .other → w ≠ l.owner t → s'.ending? h = s.ending? h)
    (hf : ∀ h, Fetches listener? told'? h → s'.ending? h = s.ending? h)
    (hkeep : ∀ h e, s.ending? h = some e → s'.ending? h = some e)
    (hnew : Listens terms.given owners s' t (some o) l) :
    Consistent terms owners listener? told'? l.batch? s' := by
  -- whoever is no owner of this exchange knows what it knew
  have hknow {h : HandleId} {w : Owner} {f : Outcome → Ending} {o? : Option Outcome}
      (ho : owners[h]? = some w) (hne : w ≠ .other) (hw : w ≠ l.owner t)
      (hk : s.Knows terms.given h f o?) : s'.Knows terms.given h f o? := by
    rwa [Knows, he h w ho hne hw]
  refine hc.of_batches_eq hlen hb (hcl ▸ hc.closer) (fun h => .inl (hs h)) hkeep ?listening ?silent
    ?counts
  case listening =>
    intro u l' hl'
    by_cases hut : u = t
    · subst hut
      obtain rfl := Option.some.inj (hl.symm.trans hl')
      exact ht ▸ hnew
    · rw [hu u hut]
      cases hc.listening u l' hl' with
      | reading hr ho hk =>
        refine .reading hr ho (hknow ho (by simp) ?_ hk)
        cases l <;> simp [Listener.owner, hut]
      | frame hx hsp => exact .frame (hb ▸ hx) hsp
      | @slot b x i slot hx hsp hi hk =>
        refine .slot (hb ▸ hx) hsp hi (hknow (hc.slot _ _ _ _ hx hi) (by simp) ?_ hk)
        -- no other exchange listens for the same slot
        intro heq
        obtain rfl := Listener.eq_of_owner_slot heq.symm
        exact hut (hc.unique u t b i hl' hl)
      | @fetching h c step ho hk =>
        refine .fetching ho fun hn => ?_
        rw [hf h ⟨u, c, step, hl', (hu u hut).trans hn⟩, hs]
        exact hk hn
  case silent =>
    intro b x i slot hx hi hnot _ hk
    refine hknow (hc.slot b x i slot hx hi) (by simp) ?_ hk
    intro heq
    obtain rfl := Listener.eq_of_owner_slot heq.symm
    exact hnot t hl
  case counts =>
    intro b x r hx hr
    have hcount := hc.counts b x r hx hr
    refine ⟨he _ _ hcount.owner (by simp) (l.owner_ne_batch t b).symm, ?_⟩
    have hmem := hcount.mem_tickets t
    rw [hl, Option.bind_some] at hmem
    by_cases hlb : l.batch? = some b
    · rw [hcount.outstanding, if_pos hlb,
        untold_of_told hcount.nodup (hmem.2 hlb) hn (by simp [ht]) hu]
      rfl
    · rw [hcount.outstanding, if_neg hlb]
      refine congrArg (· + 0) (untold_congr fun u hu' => hu u ?_).symm
      rintro rfl
      exact hlb (hmem.1 hu')

/-- An exchange is told its outcome, and no handle ends. -/
theorem told_self (hc : Consistent terms owners listener? told? none s) {t : Ticket} {l : Listener}
    (hl : listener? t = some l) {o : Outcome} (hn : told? t = none) (ht : told'? t = some o)
    (hu : ∀ u, u ≠ t → told'? u = told? u)
    (hnew : Listens terms.given owners s t (some o) l) :
    Consistent terms owners listener? told'? l.batch? s :=
  hc.told hl hn ht hu rfl rfl rfl (fun _ => rfl) (fun _ _ _ _ _ => rfl) (fun _ _ => rfl)
    (fun _ _ hk => hk) hnew

/-- An exchange is told its outcome, and the handle of its owner, who is no step, ends. -/
theorem told_endHandle (hc : Consistent terms owners listener? told? none s) {t : Ticket}
    {l : Listener} (hl : listener? t = some l) {o : Outcome} (hn : told? t = none)
    (ht : told'? t = some o) (hu : ∀ u, u ≠ t → told'? u = told? u) {h : HandleId}
    (ho : owners[h]? = some (l.owner t)) (hstep : ∀ c step, l.owner t ≠ .step c step) (e : Ending)
    (hnew : Listens terms.given owners (s.endHandle h e) t (some o) l) :
    Consistent terms owners listener? told'? l.batch? (s.endHandle h e) := by
  refine hc.told hl hn ht hu (by simp) (by simp) (by simp) (by simp) (fun k w hk _ hw => ?_)
    (fun k hk => ?_) (fun k a hk => ending?_endHandle_of_some s h e hk) hnew
  · refine ending?_endHandle_of_ne s e ?_
    rintro rfl
    exact hw (Option.some.inj (hk.symm.trans ho))
  · refine ending?_endHandle_of_ne s e ?_
    rintro rfl
    refine hc.not_fetches (fun c step hcs => ?_) (hk.of_told hn hu)
    exact hstep c step (Option.some.inj (ho.symm.trans hcs))

/-- A step that is told of the page that it waited for waits for no other one. -/
theorem not_fetches_of_told (hc : Consistent terms owners listener? told? owing s) {t : Ticket}
    {h : HandleId} {c : CursorId} {step : Step} (hl : listener? t = some (.fetching h c step))
    (hn : told? t = none) (ht : told'? t ≠ none) (hu : ∀ u, u ≠ t → told'? u = told? u) :
    ¬ Fetches listener? told'? h := by
  rintro ⟨u, c', step', hl', hnone⟩
  have hut : u ≠ t := by
    rintro rfl
    exact ht hnone
  -- its handle is given up together with one exchange
  have hsource {v : Ticket} {d : CursorId} {w : Step} (hv : listener? v = some (.fetching h d w))
      (hnone : told? v = none) : s.source? h = some (.exchange v) := by
    cases hc.listening v _ hv with
    | reading hr => cases hr
    | fetching _ hk => exact (hk hnone).2
  have hsame := (hsource hl' ((hu u hut).symm.trans hnone)).symm.trans (hsource hl hn)
  exact hut (Source.exchange.inj (Option.some.inj hsame))

/-! ## What becomes of batches -/

/-- Batches change, with their own handles perhaps: slots keep their places, and each batch agrees
with what was told again. -/
theorem ofBatches (hc : Consistent terms owners listener? told? owing s) {owing' : Option BatchId}
    (hlen : s'.handles.length = s.handles.length) (hcl : s'.closers = s.closers)
    (hs : ∀ h, s'.source? h = s.source? h)
    (he : ∀ h w, owners[h]? = some w → w ≠ .other → (∀ b, w ≠ .batch b) →
      s'.ending? h = s.ending? h)
    (hold : ∀ (b : BatchId) (x : Batch), s.batches[b]? = some x →
      ∃ x', s'.batches[b]? = some x' ∧ x.KeepsSlots x')
    (hbatch : ∀ (b : BatchId) (x' : Batch), s'.batches[b]? = some x' →
      Agrees terms.given owners listener? told? (if owing' = some b then 1 else 0) s' b x') :
    Consistent terms owners listener? told? owing' s' := by
  have hknow {h : HandleId} {w : Owner} {f : Outcome → Ending} {o? : Option Outcome}
      (ho : owners[h]? = some w) (hw : w ≠ .other) (hb : ∀ b, w ≠ .batch b)
      (hk : s.Knows terms.given h f o?) : s'.Knows terms.given h f o? := by
    rwa [Knows, he h w ho hw hb]
  -- a slot of a batch that was sent is where it was, and knows what it knew
  have hsent {b : BatchId} {x : Batch} {i : Nat} {slot : Slot} {o? : Option Outcome}
      (hx : s.batches[b]? = some x) (hsp : x.spent = true) (hi : x.slots[i]? = some slot)
      (hk : s.Knows terms.given slot.handle (Outcome.ending slot.command.reading) o?) :
      ∃ (x' : Batch) (slot' : Slot), s'.batches[b]? = some x' ∧ x'.slots[i]? = some slot' ∧
        x'.spent = true ∧
        s'.Knows terms.given slot'.handle (Outcome.ending slot'.command.reading) o? := by
    obtain ⟨x', hx', hkeeps⟩ := hold b x hx
    obtain ⟨slot', hi', hh, hcommand⟩ := hkeeps.slot i slot hi
    refine ⟨x', slot', hx', hi', hkeeps.spent hsp, ?_⟩
    rw [hh, hcommand]
    exact hknow (hc.slot b x i slot hx hi) (by simp) (by simp) hk
  refine ⟨hc.length_eq.trans hlen.symm, fun h b hh => hc.alone h b (hs h ▸ hh),
    fun h t b i hh => hc.ofExchange h t b i (hs h ▸ hh), ?ofSlot,
    fun h b hh => hc.ofRun h b (hs h ▸ hh), ?spent, hc.oneRun, ?listening, hc.unique,
    fun b x' i slot hx' => (hbatch b x' hx').slot i slot,
    fun b x' hx' => (hbatch b x' hx').command, fun b x' hx' => (hbatch b x' hx').unspent,
    fun b x' hx' => (hbatch b x' hx').filled, fun b x' r hx' => (hbatch b x' hx').counts r,
    hcl ▸ hc.closer, ?stranded⟩
  case ofSlot =>
    intro h b i hh
    obtain ⟨x, slot, hx, hi, rfl⟩ := hc.ofSlot h b i (hs h ▸ hh)
    obtain ⟨x', hx', hkeeps⟩ := hold b x hx
    obtain ⟨slot', hi', hh, -⟩ := hkeeps.slot i slot hi
    exact ⟨x', slot', hx', hi', hh⟩
  case spent =>
    intro h b hh
    obtain ⟨x, hx, hsp⟩ := hc.spent h b hh
    obtain ⟨x', hx', hkeeps⟩ := hold b x hx
    exact ⟨x', hx', hkeeps.spent hsp⟩
  case listening =>
    intro t l hl
    cases hc.listening t l hl with
    | reading hr ho hk => exact .reading hr ho (hknow ho (by simp) (by simp) hk)
    | @frame b x hx hsp =>
      obtain ⟨x', hx', hkeeps⟩ := hold b x hx
      exact .frame hx' (hkeeps.spent hsp)
    | slot hx hsp hi hk =>
      obtain ⟨x', slot', hx', hi', hsp', hk'⟩ := hsent hx hsp hi hk
      exact .slot hx' hsp' hi' hk'
    | fetching ho hk =>
      refine .fetching ho fun hn => ?_
      rw [he _ _ ho (by simp) (by simp), hs]
      exact hk hn
  case stranded =>
    intro b i hb
    obtain ⟨x, slot, hx, hi, hsp, hl, hk⟩ := hc.stranded b i hb
    obtain ⟨x', slot', hx', hi', hsp', hk'⟩ := hsent hx hsp hi hk
    exact ⟨x', slot', hx', hi', hsp', hl, hk'⟩

/-- A batch changes, with its own handle perhaps: its slots keep their commands and handles, and
what it counts is right again. -/
theorem changeBatch (hc : Consistent terms owners listener? told? owing s) {b : BatchId}
    {x : Batch} {owing' : Option BatchId} (hx : s.batches[b]? = some x) (x' : Batch)
    (hx' : s'.batches[b]? = some x') (hne : ∀ c, c ≠ b → s'.batches[c]? = s.batches[c]?)
    (how : ∀ c, c ≠ b → (owing' = some c ↔ owing = some c))
    (hlen : s'.handles.length = s.handles.length) (hcl : s'.closers = s.closers)
    (hs : ∀ h, s'.source? h = s.source? h)
    (he : ∀ h w, owners[h]? = some w → w ≠ .other → w ≠ .batch b → s'.ending? h = s.ending? h)
    (htr : x'.transactional = x.transactional) (hsp : x.spent = true → x'.spent = true)
    (hslots : x'.slots.map Slot.claim = x.slots.map Slot.claim)
    (hfilled : ∀ slot ∈ x'.slots, slot.filled = true → s'.ending? slot.handle ≠ none)
    (hun : x'.spent = false → x'.run = none)
    (hrun : ∀ r, x'.run = some r →
      Counts terms.given owners listener? told? (if owing' = some b then 1 else 0) s' b x' r) :
    Consistent terms owners listener? told? owing' s' := by
  refine hc.ofBatches hlen hcl hs (fun h w ho hw hb => he h w ho hw (hb b)) ?hold ?agrees
  case hold =>
    intro c y hy
    by_cases hcb : c = b
    · subst hcb
      obtain rfl := Option.some.inj (hx.symm.trans hy)
      exact ⟨x', hx', hsp, fun i slot hi => exists_of_claims hslots.symm hi⟩
    · exact ⟨y, (hne c hcb).trans hy, .refl y⟩
  case agrees =>
    intro c y hy
    by_cases hcb : c = b
    · subst hcb
      obtain rfl := Option.some.inj (hx'.symm.trans hy)
      -- each slot was there before
      have hwas {slot : Slot} (hm : slot ∈ x'.slots) :
          ∃ z ∈ x.slots, z.handle = slot.handle ∧ z.command = slot.command := by
        obtain ⟨i, hi⟩ := List.mem_iff_getElem?.1 hm
        obtain ⟨z, hz, hzs⟩ := exists_of_claims hslots hi
        exact ⟨z, List.mem_of_getElem? hz, hzs⟩
      refine ⟨fun i slot hi => ?slot, fun slot hm => ?command, fun hys => ⟨hun hys, ?unspent⟩,
        hfilled, hrun⟩
      case slot =>
        obtain ⟨z, hz, hzh, -⟩ := exists_of_claims hslots hi
        rw [← hzh]
        exact hc.slot c x i z hx hz
      case command =>
        obtain ⟨z, hz, -, hzc⟩ := hwas hm
        have hmode : x'.mode = x.mode := by rw [Batch.mode, Batch.mode, htr]
        rw [← hzc, hmode]
        exact hc.command c x hx z hz
      case unspent =>
        intro slot hm
        have hxs : x.spent = false := by
          cases h : x.spent with
          | false => rfl
          | true => exact absurd (hsp h) (by simp [hys])
        obtain ⟨z, hz, hzh, hzc⟩ := hwas hm
        obtain ⟨i, hi⟩ := List.mem_iff_getElem?.1 hz
        rw [← hzh, ← hzc, Knows, he _ _ (hc.slot c x i z hx hi) (by simp) (by simp)]
        exact (hc.unspent c x hx hxs).2 z hz
    · rw [hne c hcb] at hy
      simp only [how c hcb]
      exact (hc.agrees hy).congr (fun _ _ h => h) (fun h i ho => he h _ ho (by simp) (by simp))
        fun h ho => he h _ ho (by simp) (by simpa using hcb)

/-- A batch changes, and nothing else does. -/
theorem setBatch (hc : Consistent terms owners listener? told? owing s) {b : BatchId}
    {x : Batch} {owing' : Option BatchId} (hx : s.batches[b]? = some x) (x' : Batch)
    (how : ∀ c, c ≠ b → (owing' = some c ↔ owing = some c))
    (htr : x'.transactional = x.transactional) (hsp : x.spent = true → x'.spent = true)
    (hslots : x'.slots.map Slot.claim = x.slots.map Slot.claim)
    (hfilled : ∀ slot ∈ x'.slots, slot.filled = true → s.ending? slot.handle ≠ none)
    (hun : x'.spent = false → x'.run = none)
    (hrun : ∀ r, x'.run = some r →
      Counts terms.given owners listener? told? (if owing' = some b then 1 else 0) s b x' r) :
    Consistent terms owners listener? told? owing' (s.setBatch b x') :=
  hc.changeBatch hx x' (getElem?_setBatch_self s x' hx) (fun _ hc => getElem?_setBatch_of_ne s x' hc)
    how rfl rfl (fun _ => rfl) (fun _ _ _ _ _ => rfl) htr hsp hslots hfilled hun fun r hr =>
      (hrun r hr).congr (hrun r hr).outstanding (fun _ _ hn => hn) rfl fun _ _ _ => rfl

end Consistent

end Session

end SortedSets

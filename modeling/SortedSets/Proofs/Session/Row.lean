import SortedSets.Proofs.Command.Word
import SortedSets.Proofs.Connection.Block
import SortedSets.Proofs.Session.Consistent

/-!
# The commands that a batch sends

Which commands of a batch are sent follows from the connection and the batch: those that can be sent
up to the first one that cannot and whose slot is filled. There the sending is broken off, and what
is behind is never reached. A transaction is not even begun when the connection is closed.

## Main definitions

* `Slot.fits`, `Slot.blocks`: a command that can be sent, one that breaks the sending off
* `Batch.row`, `Batch.unreached`: the commands that are sent, the slots that are not reached
* `Batch.failure?`: the error that breaks the sending off

## Main results

* `Session.Sending.slots_eq`, `Session.Sending.all_eq`: what sending the commands of a batch comes to
-/

namespace SortedSets

/-- A command of a method opens and ends no transaction. -/
theorem Command.Made.verb {mode : Mode} {c : Command} (h : c.Made mode) :
    Verb.ofWord (.bytes c.name) = .ok .other := by
  obtain ⟨m, args, named, hm⟩ := h
  rw [Method.name_of_call hm]
  exact m.verb_word

namespace Slot

/-- The command of a slot, to be sent for it. -/
def dispatch (b : BatchId) (i : Nat) (slot : Slot) : Dispatch Listener where
  name := .bytes slot.command.name
  args := slot.command.args
  listener := .slot b i

/-- The bytes of the command of a slot, unless it cannot be sent. -/
def request? (c : Connection Listener) (slot : Slot) : Option Bytes :=
  (c.requestOf (.bytes slot.command.name) slot.command.args).toOption

/-- The command of a slot can be sent. -/
def fits (c : Connection Listener) (slot : Slot) : Bool :=
  (slot.request? c).isSome

/-- A slot is filled whose command cannot be sent. -/
def blocks (c : Connection Listener) (slot : Slot) : Bool :=
  slot.filled && !slot.fits c

variable {c d : Connection Listener} {slot : Slot}

theorem request?_congr (h : d.isClosed = c.isClosed) : request? d = request? c := by
  funext slot
  rw [request?, request?, Connection.requestOf_congr h]

theorem fits_congr (h : d.isClosed = c.isClosed) (slot : Slot) : slot.fits d = slot.fits c := by
  rw [fits, fits, request?_congr h]

theorem blocks_congr (h : d.isClosed = c.isClosed) : blocks d = blocks c := by
  funext slot
  rw [blocks, blocks, fits_congr h]

theorem exists_request (h : slot.fits c = true) :
    ∃ data, c.requestOf (.bytes slot.command.name) slot.command.args = .ok data := by
  cases hd : c.requestOf (.bytes slot.command.name) slot.command.args with
  | ok data => exact ⟨data, rfl⟩
  | error e => simp [fits, request?, hd, Except.toOption] at h

theorem exists_error (h : slot.fits c = false) :
    ∃ e, c.requestOf (.bytes slot.command.name) slot.command.args = .error e := by
  cases hd : c.requestOf (.bytes slot.command.name) slot.command.args with
  | error e => exact ⟨e, rfl⟩
  | ok data => simp [fits, request?, hd, Except.toOption] at h

end Slot

/-- The commands of the slots from `i` on that are sent. -/
def rowFrom (b : BatchId) (c : Connection Listener) : Nat → List Slot → List (Dispatch Listener)
  | _, [] => []
  | i, slot :: rest =>
    if slot.fits c then slot.dispatch b i :: rowFrom b c (i + 1) rest
    else if slot.filled then []
    else rowFrom b c (i + 1) rest

/-- The slots behind the first one that blocks. -/
def behindBlock (c : Connection Listener) : List Slot → List Slot
  | [] => []
  | slot :: rest => if slot.blocks c then rest else behindBlock c rest

theorem rowFrom_congr {b : BatchId} {c d : Connection Listener} (h : d.isClosed = c.isClosed)
    (i : Nat) (slots : List Slot) : rowFrom b d i slots = rowFrom b c i slots := by
  induction slots generalizing i with
  | nil => rfl
  | cons slot rest ih => simp only [rowFrom, Slot.fits_congr h, ih]

/-- If all commands can be sent, each of them is. -/
theorem rowFrom_of_fits {b : BatchId} {c : Connection Listener} {slots : List Slot}
    (hf : ∀ slot ∈ slots, slot.fits c = true) (i : Nat) :
    rowFrom b c i slots = slots.mapIdx fun j slot => slot.dispatch b (i + j) := by
  induction slots generalizing i with
  | nil => rfl
  | cons slot rest ih =>
    rw [rowFrom, if_pos (hf slot List.mem_cons_self), List.mapIdx_cons,
      ih (fun y hy => hf y (List.mem_cons_of_mem slot hy)) (i + 1)]
    simp only [Nat.add_zero, Nat.add_comm 1, Nat.add_assoc]

theorem behindBlock_congr {c d : Connection Listener} (h : d.isClosed = c.isClosed)
    (slots : List Slot) : behindBlock d slots = behindBlock c slots := by
  induction slots with
  | nil => rfl
  | cons slot rest ih => rw [behindBlock, behindBlock, Slot.blocks_congr h, ih]

theorem behindBlock_eq_nil {c : Connection Listener} {slots : List Slot}
    (h : slots.any (Slot.blocks c) = false) : behindBlock c slots = [] := by
  induction slots with
  | nil => rfl
  | cons slot rest ih =>
    rw [List.any_cons, Bool.or_eq_false_iff] at h
    rw [behindBlock, h.1, ih h.2]
    rfl

/-- A command around a batch. -/
def BatchId.frame (b : BatchId) (w : String) : Dispatch Listener where
  name := .text (.ofString w)
  args := []
  listener := .frame b

namespace Batch

/-- The commands that a batch sends. A transaction that was begun is ended unless the sending is
broken off. -/
def row (b : BatchId) (c : Connection Listener) (x : Batch) : List (Dispatch Listener) :=
  if x.transactional then
    if c.isClosed then []
    else
      b.frame "MULTI" :: (rowFrom b c 0 x.slots ++
        if x.slots.any (Slot.blocks c) then [] else [b.frame "EXEC"])
  else rowFrom b c 0 x.slots

/-- The error that breaks the sending of a batch off. -/
def failure? (c : Connection Listener) (x : Batch) : Option Error :=
  if x.transactional && c.isClosed then some (.closed .before)
  else if x.slots.any (Slot.blocks c) then some .invalidState
  else none

/-- The slots of a batch that the sending does not reach. -/
def unreached (c : Connection Listener) (x : Batch) : List Slot :=
  if x.transactional && c.isClosed then x.slots else behindBlock c x.slots

section Congr

variable {c d : Connection Listener} (h : d.isClosed = c.isClosed) (x : Batch)

include h

theorem row_congr (b : BatchId) : x.row b d = x.row b c := by
  simp only [row, h, rowFrom_congr h, Slot.blocks_congr h]

theorem failure?_congr : x.failure? d = x.failure? c := by
  simp only [failure?, h, Slot.blocks_congr h]

theorem unreached_congr : x.unreached d = x.unreached c := by
  simp only [unreached, h, behindBlock_congr h]

end Congr

/-- A sending that is not broken off reaches all slots. -/
theorem unreached_of_failure? {c : Connection Listener} {x : Batch} (h : x.failure? c = none) :
    x.unreached c = [] := by
  unfold failure? at h
  unfold unreached
  split at h
  · cases h
  · next hcl =>
    rw [if_neg hcl]
    split at h
    · cases h
    · next hb => exact behindBlock_eq_nil (by simpa using hb)

end Batch

namespace Session

variable {c : Connection Listener} {s : Session}

/-- A command that can be sent over the connection of a session. -/
theorem send_of_sendable (hc : s.connection = some c) {x : Dispatch Listener}
    (hx : c.Sendable x) : s.send x.name x.args x.listener =
      ({ s with connection := some (c.execute x.name x.args x.listener).connection },
        (c.execute x.name x.args x.listener).notices, .ok c.exchanges.length) := by
  simp only [send, hc, Connection.ticket_execute hx]

/-- A command that cannot be sent changes nothing. -/
theorem send_of_error (hc : s.connection = some c) (hd : c.due = []) {name : Value}
    {args : List Value} {l : Listener} {e : Error} (he : c.requestOf name args = .error e) :
    s.send name args l = (s, [], .error e) := by
  have hs : c.submit name args l = ⟨c, [], .error e⟩ := by simp only [Connection.submit, he]
  have hf : c.followAll = (c, []) := by simp [Connection.followAll, hd, Connection.followMany]
  simp only [send, hc, Connection.execute, hs, hf]
  rw [← hc]
  rfl

namespace Sending

variable {b : BatchId} {i : Nat} {x : Sending} {slot : Slot}

/-! ## One command -/

theorem sendable_of_fits (hf : slot.fits c = true)
    (hv : Verb.ofWord (.bytes slot.command.name) = .ok .other) (b : BatchId) (i : Nat) :
    c.Sendable (slot.dispatch b i) :=
  ⟨Slot.exists_request hf, .other, hv⟩

/-- A command that can be sent is sent. -/
theorem slot_of_fits (he : x.error = none) (hc : x.session.connection = some c)
    (hf : slot.fits c = true) (hv : Verb.ofWord (.bytes slot.command.name) = .ok .other) :
    x.slot b i slot = ⟨{ x.session with connection := some (c.executeAll [slot.dispatch b i]) },
      x.tickets ++ [c.exchanges.length],
      x.early ++ (c.execute (.bytes slot.command.name) slot.command.args (.slot b i)).notices,
      none⟩ := by
  have hs := send_of_sendable hc (sendable_of_fits hf hv b i)
  simp only [Slot.dispatch] at hs
  simp only [Sending.slot, he, hs]
  rfl

/-- A command that cannot be sent has its error, unless its slot is filled. -/
theorem slot_of_misfit (he : x.error = none) (hc : x.session.connection = some c)
    (hd : c.due = []) (hf : slot.fits c = false) (hs : slot.filled = false) :
    ∃ e, x.slot b i slot = { x with session := x.session.fillSlot b i (.failed e) } := by
  obtain ⟨e, hr⟩ := Slot.exists_error hf
  refine ⟨e, ?_⟩
  simp only [Sending.slot, he, send_of_error hc hd hr, hs, List.append_nil]
  rfl

/-- A slot that blocks breaks the sending off. -/
theorem slot_of_blocks (he : x.error = none) (hc : x.session.connection = some c)
    (hd : c.due = []) (hb : slot.blocks c = true) :
    x.slot b i slot = { x with error := some .invalidState } := by
  rw [Slot.blocks, Bool.and_eq_true, Bool.not_eq_true'] at hb
  obtain ⟨e, hr⟩ := Slot.exists_error hb.2
  simp only [Sending.slot, he, send_of_error hc hd hr, hb.1, List.append_nil, if_true]

/-- Once it is broken off, nothing is sent any more. -/
theorem slots_of_error {e : Error} (he : x.error = some e) (i : Nat) (rest : List Slot) :
    slots b i rest x = x := by
  induction rest generalizing i with
  | nil => rfl
  | cons slot rest ih =>
    have h : x.slot b i slot = x := by simp only [Sending.slot, he]
    rw [slots, h]
    exact ih (i + 1)

theorem frame_of_error {e : Error} (he : x.error = some e) (w : String) : x.frame b w = x := by
  simp only [frame, he]

/-! ## All commands -/

/-- What sending the commands of a batch from `i` on comes to. -/
theorem slots_eq (he : x.error = none) (hc : x.session.connection = some c) (hd : c.due = [])
    {rest : List Slot} (hv : ∀ slot ∈ rest, Verb.ofWord (.bytes slot.command.name) = .ok .other) :
    (slots b i rest x).session.connection = some (c.executeAll (rowFrom b c i rest)) ∧
      (slots b i rest x).tickets =
        x.tickets ++ List.range' c.exchanges.length (rowFrom b c i rest).length ∧
      (slots b i rest x).error =
        if rest.any (Slot.blocks c) then some .invalidState else none := by
  induction rest generalizing i x c with
  | nil => exact ⟨hc, (List.append_nil _).symm, he⟩
  | cons slot rest ih =>
    have hv' (y) (hy : y ∈ rest) := hv y (List.mem_cons_of_mem slot hy)
    rw [slots]
    cases hf : slot.fits c with
    | true =>
      -- the command is sent
      have hs := sendable_of_fits hf (hv slot List.mem_cons_self) b i
      have hx := slot_of_fits (b := b) (i := i) he hc hf (hv slot List.mem_cons_self)
      have hclosed : (c.executeAll [slot.dispatch b i]).isClosed = c.isClosed :=
        Connection.isClosed_execute ..
      have hlen : (c.executeAll [slot.dispatch b i]).exchanges.length = c.exchanges.length + 1 :=
        (Connection.length_execute hd hs).1
      have hblocks : slot.blocks c = false := by simp [Slot.blocks, hf]
      obtain ⟨h₁, h₂, h₃⟩ := ih (c := c.executeAll [slot.dispatch b i]) (i := i + 1)
        (x := x.slot b i slot) (by rw [hx]) (by rw [hx]) (Connection.due_execute ..) hv'
      rw [rowFrom_congr hclosed] at h₁ h₂
      rw [hlen] at h₂
      refine ⟨?_, ?_, ?_⟩
      · rw [h₁, rowFrom, if_pos hf]
        rfl
      · rw [h₂, hx, rowFrom, if_pos hf, List.length_cons, List.range'_succ, List.append_assoc]
        rfl
      · rw [h₃, List.any_cons, hblocks, Bool.false_or, Slot.blocks_congr hclosed]
    | false =>
      cases hfill : slot.filled with
      | true =>
        have hblocks : slot.blocks c = true := by simp [Slot.blocks, hf, hfill]
        rw [slot_of_blocks he hc hd hblocks, slots_of_error rfl, rowFrom, hf, hfill, List.any_cons,
          hblocks]
        exact ⟨hc, (List.append_nil _).symm, rfl⟩
      | false =>
        have hblocks : slot.blocks c = false := by simp [Slot.blocks, hfill]
        obtain ⟨e, hx⟩ := slot_of_misfit (b := b) (i := i) he hc hd hf hfill
        rw [hx]
        have h := ih (i := i + 1) (x := { x with session := x.session.fillSlot b i (.failed e) })
          (c := c) he (by simpa using hc) hd hv'
        rw [rowFrom, hf, hfill, List.any_cons, hblocks]
        exact h

theorem sendable_rowFrom {rest : List Slot}
    (hv : ∀ slot ∈ rest, Verb.ofWord (.bytes slot.command.name) = .ok .other) (i : Nat) :
    ∀ y ∈ rowFrom b c i rest, c.Sendable y := by
  induction rest generalizing i with
  | nil => simp [rowFrom]
  | cons slot rest ih =>
    have ih' := ih (fun y hy => hv y (List.mem_cons_of_mem slot hy)) (i + 1)
    rw [rowFrom]
    split
    · next hf =>
      intro y hy
      rcases List.mem_cons.1 hy with rfl | hy
      · exact sendable_of_fits hf (hv slot List.mem_cons_self) b i
      · exact ih' y hy
    · split
      · simp
      · exact ih'

/-- A command around a batch can be sent as long as the connection is open. -/
theorem sendable_frame (ho : c.isClosed = false) (b : BatchId) :
    c.Sendable (b.frame "MULTI") ∧ c.Sendable (b.frame "EXEC") := by
  refine ⟨⟨⟨Bytes.ascii "*1\r\n$5\r\nMULTI\r\n", ?_⟩, .multi, rfl⟩,
    ⟨⟨Bytes.ascii "*1\r\n$4\r\nEXEC\r\n", ?_⟩, .exec, rfl⟩⟩
  · simp only [Connection.requestOf, BatchId.frame, ho]
    rfl
  · simp only [Connection.requestOf, BatchId.frame, ho]
    rfl

theorem sendable_row {x : Batch}
    (hv : ∀ slot ∈ x.slots, Verb.ofWord (.bytes slot.command.name) = .ok .other) :
    ∀ y ∈ x.row b c, c.Sendable y := by
  have hslots := sendable_rowFrom (b := b) (c := c) hv 0
  unfold Batch.row
  split
  · split
    · simp
    · next ho =>
      obtain ⟨hm, hx⟩ := sendable_frame (c := c) (by simpa using ho) b
      intro y hy
      -- the opening, the commands, and the end if the sending was not stopped
      rcases List.mem_cons.1 hy with rfl | hy
      · exact hm
      · rcases List.mem_append.1 hy with hy | hy
        · exact hslots y hy
        · split at hy
          · cases hy
          · rw [List.mem_singleton.1 hy]
            exact hx
  · exact hslots

/-- A command around a batch is sent. -/
theorem frame_of_sendable (he : x.error = none) (hc : x.session.connection = some c) {w : String}
    (hs : c.Sendable (b.frame w)) :
    x.frame b w = ⟨{ x.session with connection := some (c.executeAll [b.frame w]) },
      x.tickets ++ [c.exchanges.length],
      x.early ++ (c.execute (.text (.ofString w)) [] (.frame b)).notices, none⟩ := by
  have h := send_of_sendable hc hs
  simp only [BatchId.frame] at h
  simp only [frame, he, h]
  rfl

/-- A transaction is not begun over a closed connection. -/
theorem frame_of_closed (he : x.error = none) (hc : x.session.connection = some c)
    (hd : c.due = []) (hcl : c.isClosed = true) :
    x.frame b "MULTI" = { x with error := some (.closed .before) } := by
  have hr : c.requestOf (.text (.ofString "MULTI")) [] = .error (.closed .before) := by
    simp only [Connection.requestOf, hcl]
    rfl
  simp only [frame, he, send_of_error hc hd hr, List.append_nil]

/-- What sending all commands of a batch comes to. -/
theorem all_eq (hc : s.connection = some c) (hd : c.due = []) {x : Batch}
    (hv : ∀ slot ∈ x.slots, Verb.ofWord (.bytes slot.command.name) = .ok .other) :
    (all b x s).session.connection = some (c.executeAll (x.row b c)) ∧
      (all b x s).tickets = List.range' c.exchanges.length (x.row b c).length ∧
      (all b x s).error = x.failure? c := by
  unfold all Batch.row Batch.failure?
  cases htr : x.transactional with
  | false => exact slots_eq rfl hc hd hv
  | true =>
    cases hcl : c.isClosed with
    | true =>
      dsimp only
      rw [if_pos rfl, frame_of_closed rfl hc hd hcl, slots_of_error rfl, frame_of_error rfl]
      exact ⟨hc, rfl, rfl⟩
    | false =>
      obtain ⟨hm, hx⟩ := sendable_frame hcl b
      have hopen := frame_of_sendable (b := b) (x := ⟨s, [], [], none⟩) rfl hc hm
      have hclosed : (c.executeAll [b.frame "MULTI"]).isClosed = c.isClosed :=
        Connection.isClosed_execute ..
      have hlen : (c.executeAll [b.frame "MULTI"]).exchanges.length = c.exchanges.length + 1 :=
        (Connection.length_execute hd hm).1
      have hdue := Connection.due_executeAll hd [b.frame "MULTI"]
      have hticket : ((Sending.mk s [] [] none).frame b "MULTI").tickets = [c.exchanges.length] := by
        rw [hopen]
        rfl
      obtain ⟨h₁, h₂, h₃⟩ := slots_eq (b := b) (i := 0)
        (x := (Sending.mk s [] [] none).frame b "MULTI") (by rw [hopen]) (by rw [hopen]) hdue hv
      set y := slots b 0 x.slots ((Sending.mk s [] [] none).frame b "MULTI") with hy
      rw [rowFrom_congr hclosed] at h₁ h₂
      rw [Slot.blocks_congr hclosed] at h₃
      rw [hlen, hticket] at h₂
      simp only [if_true, Bool.false_eq_true, if_false, Bool.and_false]
      set row := rowFrom b c 0 x.slots with hrow
      cases hb : x.slots.any (Slot.blocks c) with
      | true =>
        -- the transaction stays open
        rw [hb, if_pos rfl] at h₃
        rw [frame_of_error h₃, if_pos rfl, if_pos rfl, List.append_nil]
        exact ⟨h₁, h₂, h₃⟩
      | false =>
        rw [hb, if_neg Bool.false_ne_true] at h₃
        set d := (c.executeAll [b.frame "MULTI"]).executeAll row with hdef
        have hsend (z) (hz : z ∈ row) : (c.executeAll [b.frame "MULTI"]).Sendable z :=
          (sendable_rowFrom hv 0 z hz).congr hclosed
        have hdlen : d.exchanges.length = c.exchanges.length + 1 + row.length :=
          (Connection.listener?_executeAll hdue hsend).1.trans (by rw [hlen])
        have hexec : d.Sendable (b.frame "EXEC") :=
          hx.congr ((Connection.isClosed_executeAll _ row).trans hclosed)
        rw [frame_of_sendable h₃ h₁ hexec, if_neg Bool.false_ne_true, if_neg Bool.false_ne_true,
          ← List.singleton_append (x := b.frame "MULTI"), Connection.executeAll_append,
          Connection.executeAll_append]
        refine ⟨rfl, ?_, rfl⟩
        dsimp only
        rw [h₂, hdlen, List.singleton_append, List.singleton_append, List.length_cons,
          List.length_append, List.length_singleton, List.range'_succ, List.range'_concat,
          Nat.one_mul]
        rfl

end Sending

end Session

end SortedSets

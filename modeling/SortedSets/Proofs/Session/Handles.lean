import SortedSets.Proofs.Connection.Exchanges
import SortedSets.Proofs.Session.Act

/-!
# Handles and batches

What the elementary changes of a session do, read off each handle and each batch: a handle ends
once and keeps its source, and a batch changes at its own place only.

## Main results

* `Session.endHandle_eq`, `Session.setSource_eq`, `Session.setCursor_eq`: the changes as equations
* `Session.ending?_endHandle`, `Session.getElem?_setBatch`: how handles have ended and what the
  batches are after a change
* `Session.concludeBatch_cases`, `Session.countDown_cases`, `Session.fillSlot_cases`: what becomes
  of a batch
-/

namespace SortedSets

/-- A handle that ends, which it does once. -/
def Handle.ended (e : Ending) (x : Handle) : Handle :=
  { x with ending := x.ending <|> some e }

/-- A handle with another source. -/
def Handle.withSource (source : Source) (x : Handle) : Handle :=
  { x with source := source }

namespace Session

variable (s : Session) (h k : HandleId) (e : Ending) (source : Source) (b : BatchId) (x : Batch)

/-- What giving up a handle gives up with it. -/
def source? (h : HandleId) : Option Source :=
  s.handles[h]?.map Handle.source

/-! ## The changes as equations -/

/-- A change of an entry that is there. -/
theorem modify_of_getElem? {α : Type} {xs : List α} {i : Nat} {x : α} (hx : xs[i]? = some x)
    (f : α → α) : xs.modify i f = xs.set i (f x) := by
  obtain ⟨hlt, rfl⟩ := List.getElem?_eq_some_iff.1 hx
  refine List.ext_getElem? fun j => ?_
  rw [List.getElem?_modify, List.getElem?_set]
  by_cases hj : i = j
  · subst hj
    simp [hlt]
  · simp [hj]

theorem getElem?_concat {α : Type} (xs : List α) (x : α) (i : Nat) :
    (xs ++ [x])[i]? = if i = xs.length then some x else xs[i]? := by
  split
  · next h => rw [h, List.getElem?_concat_length]
  · next h =>
    rcases Nat.lt_or_gt_of_ne h with hlt | hgt
    · exact List.getElem?_append_left hlt
    · rw [List.getElem?_eq_none (Nat.le_of_lt hgt), List.getElem?_eq_none]
      rwa [List.length_append, List.length_singleton]

theorem endHandle_eq :
    s.endHandle h e = { s with handles := s.handles.modify h (Handle.ended e) } := by
  unfold endHandle
  cases hx : s.handles[h]? with
  | none => rw [List.modify_eq_self (List.getElem?_eq_none_iff.1 hx)]
  | some x =>
    rw [modify_of_getElem? hx]
    obtain ⟨source, ending⟩ := x
    cases ending with
    | none => rfl
    | some a =>
      -- it has ended, so that it stays as it is
      obtain ⟨hlt, hg⟩ := List.getElem?_eq_some_iff.1 hx
      have hs : s.handles.set h ⟨source, some a⟩ = s.handles := by
        rw [← hg, List.set_getElem_self]
      exact congrArg (fun handles => { s with handles := handles }) hs.symm

theorem setSource_eq :
    s.setSource h source = { s with handles := s.handles.modify h (Handle.withSource source) } := by
  unfold setSource
  cases hx : s.handles[h]? with
  | none => rw [List.modify_eq_self (List.getElem?_eq_none_iff.1 hx)]
  | some x =>
    rw [modify_of_getElem? hx]
    rfl

theorem setCursor_eq (c : CursorId) (cursor : Cursor ScanOptions) :
    s.setCursor c cursor = { s with scans := (s.setCursor c cursor).scans } := by
  unfold setCursor
  split <;> rfl

@[simp] theorem connection_setCursor (c : CursorId) (cursor : Cursor ScanOptions) :
    (s.setCursor c cursor).connection = s.connection := by
  rw [setCursor_eq]

/-! ## How handles have ended -/

@[simp] theorem length_handles_endHandle :
    (s.endHandle h e).handles.length = s.handles.length := by
  rw [endHandle_eq, List.length_modify]

@[simp] theorem length_handles_setSource :
    (s.setSource h source).handles.length = s.handles.length := by
  rw [setSource_eq, List.length_modify]

theorem lt_of_ending? {e : Ending} (hk : s.ending? k = some e) : k < s.handles.length := by
  obtain ⟨x, hx, -⟩ := Option.bind_eq_some_iff.1 hk
  exact (List.getElem?_eq_some_iff.1 hx).1

theorem ending?_endHandle :
    (s.endHandle h e).ending? k =
      if k = h ∧ h < s.handles.length then s.ending? k <|> some e else s.ending? k := by
  simp only [endHandle_eq, ending?, List.getElem?_modify]
  by_cases hk : h = k
  · subst hk
    by_cases hlt : h < s.handles.length
    · simp [hlt, Handle.ended]
    · simp [hlt]
  · have hk' : ¬ (k = h ∧ h < s.handles.length) := fun hc => hk hc.1.symm
    simp [hk, hk']

/-- An ending stays. -/
theorem ending?_endHandle_of_some {k : HandleId} {a : Ending} (hk : s.ending? k = some a) :
    (s.endHandle h e).ending? k = some a := by
  rw [ending?_endHandle, hk]
  split <;> rfl

theorem ending?_endHandle_of_ne {h k : HandleId} (hk : k ≠ h) :
    (s.endHandle h e).ending? k = s.ending? k := by
  rw [ending?_endHandle, if_neg fun hc => hk hc.1]

/-- What is pending was pending before, if what had ended stays so. -/
theorem pending_of_stays {s t : Session} {h : HandleId}
    (hst : ∀ e, s.ending? h = some e → t.ending? h = some e) (hn : t.ending? h = none) :
    s.ending? h = none := by
  cases hh : s.ending? h with
  | none => rfl
  | some e => exact (hst e hh).symm.trans hn

theorem ending?_endHandle_self {h : HandleId} (hlt : h < s.handles.length) :
    (s.endHandle h e).ending? h = (s.ending? h <|> some e) := by
  rw [ending?_endHandle, if_pos ⟨rfl, hlt⟩]

@[simp] theorem ending?_setSource : (s.setSource h source).ending? k = s.ending? k := by
  rw [setSource_eq]
  exact Connection.bind_getElem?_modify (f := Handle.withSource source) (fun _ => rfl) s.handles h k

@[simp] theorem ending?_addHandle : (s.addHandle source).ending? k = s.ending? k :=
  Connection.bind_getElem?_concat rfl s.handles k

@[simp] theorem ending?_setCursor (c : CursorId) (cursor : Cursor ScanOptions) :
    (s.setCursor c cursor).ending? k = s.ending? k := by
  rw [setCursor_eq]
  rfl

theorem ending?_addEnded :
    (s.addEnded e).ending? k = if k = s.handles.length then some e else s.ending? k := by
  rw [ending?, addEnded, getElem?_concat]
  split <;> rfl

@[simp] theorem source?_endHandle : (s.endHandle h e).source? k = s.source? k := by
  rw [endHandle_eq, source?, source?, Option.map_eq_bind, Option.map_eq_bind]
  exact Connection.bind_getElem?_modify (f := Handle.ended e) (fun _ => rfl) s.handles h k

theorem source?_setSource :
    (s.setSource h source).source? k =
      if k = h ∧ h < s.handles.length then some source else s.source? k := by
  simp only [setSource_eq, source?, List.getElem?_modify]
  by_cases hk : h = k
  · subst hk
    by_cases hlt : h < s.handles.length
    · simp [hlt, Handle.withSource]
    · simp [hlt]
  · have hk' : ¬ (k = h ∧ h < s.handles.length) := fun hc => hk hc.1.symm
    simp [hk, hk']

theorem source?_concat (x : Handle) :
    ({ s with handles := s.handles ++ [x] } : Session).source? k =
      if k = s.handles.length then some x.source else s.source? k := by
  rw [source?, getElem?_concat]
  split <;> rfl

/-- A handle that has ended stays as it is. -/
theorem endHandle_of_some {h : HandleId} {a : Ending} (hh : s.ending? h = some a) :
    s.endHandle h e = s := by
  obtain ⟨x, hx, ha⟩ := Option.bind_eq_some_iff.1 hh
  obtain ⟨source, ending⟩ := x
  obtain rfl : ending = some a := ha
  simp only [endHandle, hx]

/-! ## What stays beside the handles -/

@[simp] theorem connection_endHandle : (s.endHandle h e).connection = s.connection := by
  rw [endHandle_eq]

@[simp] theorem batches_endHandle : (s.endHandle h e).batches = s.batches := by
  rw [endHandle_eq]

@[simp] theorem scans_endHandle : (s.endHandle h e).scans = s.scans := by
  rw [endHandle_eq]

@[simp] theorem closers_endHandle : (s.endHandle h e).closers = s.closers := by
  rw [endHandle_eq]

@[simp] theorem connection_setSource : (s.setSource h source).connection = s.connection := by
  rw [setSource_eq]

@[simp] theorem batches_setSource : (s.setSource h source).batches = s.batches := by
  rw [setSource_eq]

@[simp] theorem closers_setSource : (s.setSource h source).closers = s.closers := by
  rw [setSource_eq]

section Sent

variable (name : Value) (args : List Value) (l : Listener)

/-- Sending a command changes the connection only. -/
theorem send_frame :
    (s.send name args l).1 = { s with connection := (s.send name args l).1.connection } := by
  unfold send
  split <;> rfl

@[simp] theorem handles_send : (s.send name args l).1.handles = s.handles := by
  rw [send_frame]

@[simp] theorem ending?_send : (s.send name args l).1.ending? k = s.ending? k := by
  rw [ending?, handles_send, ending?]

@[simp] theorem batches_send : (s.send name args l).1.batches = s.batches := by
  rw [send_frame]

@[simp] theorem closers_send : (s.send name args l).1.closers = s.closers := by
  rw [send_frame]

end Sent

/-! ## Batches -/

@[simp] theorem connection_setBatch : (s.setBatch b x).connection = s.connection := rfl

@[simp] theorem ending?_setBatch : (s.setBatch b x).ending? k = s.ending? k := rfl

@[simp] theorem source?_setBatch : (s.setBatch b x).source? k = s.source? k := rfl

theorem getElem?_setBatch {b : BatchId} (hb : b < s.batches.length) (c : BatchId) :
    (s.setBatch b x).batches[c]? = if c = b then some x else s.batches[c]? := by
  rw [setBatch, List.getElem?_set]
  by_cases hc : b = c
  · subst hc
    simp [hb]
  · rw [if_neg hc, if_neg (Ne.symm hc)]

theorem getElem?_setBatch_self {b : BatchId} {y : Batch} (hb : s.batches[b]? = some y) :
    (s.setBatch b x).batches[b]? = some x := by
  rw [getElem?_setBatch s x (List.getElem?_eq_some_iff.1 hb).1, if_pos rfl]

theorem getElem?_setBatch_of_ne {b c : BatchId} (hc : c ≠ b) :
    (s.setBatch b x).batches[c]? = s.batches[c]? :=
  List.getElem?_set_ne hc.symm

variable {s : Session} {b : BatchId}

theorem setBatch_self {x : Batch} (hb : s.batches[b]? = some x) : s.setBatch b x = s := by
  obtain ⟨hlt, rfl⟩ := List.getElem?_eq_some_iff.1 hb
  rw [setBatch, List.set_getElem_self]

/-! ## Cursors -/

theorem setCursor_self {c : CursorId} {scan : Scan} (hc : s.scans[c]? = some scan) :
    s.setCursor c scan.cursor = s := by
  obtain ⟨hlt, rfl⟩ := List.getElem?_eq_some_iff.1 hc
  have hset : s.scans.set c s.scans[c] = s.scans := List.set_getElem_self hlt
  simp only [setCursor, List.getElem?_eq_getElem hlt, hset]

theorem getElem?_setCursor_self {c : CursorId} {scan : Scan} (hc : s.scans[c]? = some scan)
    (cursor : Cursor ScanOptions) :
    (s.setCursor c cursor).scans[c]? = some { scan with cursor := cursor } := by
  simp only [setCursor, hc]
  exact List.getElem?_set_self (List.getElem?_eq_some_iff.1 hc).1

theorem getElem?_setCursor_of_ne {c d : CursorId} (hd : d ≠ c) (cursor : Cursor ScanOptions) :
    (s.setCursor d cursor).scans[c]? = s.scans[c]? := by
  unfold setCursor
  split
  · exact List.getElem?_set_ne hd
  · rfl

/-! ## Batches that were sent -/

/-- A batch that was sent ends when none of its exchanges is outstanding. -/
theorem concludeBatch_eq {x : Batch} {r : Run} (hb : s.batches[b]? = some x)
    (hr : x.run = some r) :
    s.concludeBatch b =
      if r.outstanding = 0 then s.endHandle r.handle (s.batchEnding x r) else s := by
  simp only [concludeBatch, hb, hr]

/-- A batch that ends changes its own handle at most. -/
theorem concludeBatch_cases (b : BatchId) (s : Session) :
    s.concludeBatch b = s ∨ ∃ x r e, s.batches[b]? = some x ∧ x.run = some r ∧
      s.concludeBatch b = s.endHandle r.handle e := by
  cases hb : s.batches[b]? with
  | none => exact .inl (by simp [concludeBatch, hb])
  | some x =>
    cases hr : x.run with
    | none => exact .inl (by simp [concludeBatch, hb, hr])
    | some r =>
      rw [concludeBatch_eq hb hr]
      split
      · exact .inr ⟨x, r, _, rfl, hr, rfl⟩
      · exact .inl rfl

@[simp] theorem connection_concludeBatch : (s.concludeBatch b).connection = s.connection := by
  rcases concludeBatch_cases b s with h | ⟨x, r, e, -, -, h⟩ <;> simp [h]

@[simp] theorem batches_concludeBatch : (s.concludeBatch b).batches = s.batches := by
  rcases concludeBatch_cases b s with h | ⟨x, r, e, -, -, h⟩ <;> simp [h]

@[simp] theorem closers_concludeBatch : (s.concludeBatch b).closers = s.closers := by
  rcases concludeBatch_cases b s with h | ⟨x, r, e, -, -, h⟩ <;> simp [h]

@[simp] theorem length_handles_concludeBatch :
    (s.concludeBatch b).handles.length = s.handles.length := by
  rcases concludeBatch_cases b s with h | ⟨x, r, e, -, -, h⟩ <;> simp [h]

@[simp] theorem source?_concludeBatch (h : HandleId) :
    (s.concludeBatch b).source? h = s.source? h := by
  rcases concludeBatch_cases b s with h | ⟨x, r, e, -, -, h⟩ <;> simp [h]

/-- Only a batch that was sent counts its exchanges. -/
theorem countDown_cases (b : BatchId) (s : Session) :
    s.countDown b = s ∧ (∀ x, s.batches[b]? = some x → x.run = none) ∨
      ∃ x r, s.batches[b]? = some x ∧ x.run = some r ∧
        s.countDown b =
          (s.setBatch b { x with
            run := some { r with outstanding := r.outstanding - 1 } }).concludeBatch b := by
  unfold countDown
  cases hb : s.batches[b]? with
  | none => exact .inl ⟨rfl, by simp⟩
  | some x =>
    cases hr : x.run with
    | none => exact .inl ⟨by simp [hr], by simp [hr]⟩
    | some r => exact .inr ⟨x, r, rfl, hr, by simp [hr]⟩

/-- A batch that counts ends its own handle only. -/
theorem ending?_countDown_of_ne {h : HandleId}
    (hne : ∀ (x : Batch) (r : Run), s.batches[b]? = some x → x.run = some r → h ≠ r.handle) :
    (s.countDown b).ending? h = s.ending? h := by
  rcases countDown_cases b s with ⟨he, -⟩ | ⟨x, r, hx, hr, he⟩
  · rw [he]
  · rw [he, concludeBatch_eq (getElem?_setBatch_self s _ hx) rfl]
    split
    · exact ending?_endHandle_of_ne _ _ (hne x r hx hr)
    · rfl

/-- A step that asks for no other page ends its own handle at most. -/
theorem ending?_proceed_of_ne {h k : HandleId} (hne : h ≠ k) (c : CursorId)
    (p : Progress ScanOptions) : (s.proceed (fun s => s) k c p).ending? h = s.ending? h := by
  cases p with
  | ended cursor r => rw [proceed, ending?_endHandle_of_ne _ _ hne, ending?_setCursor]
  | fetch cursor => exact ending?_setCursor ..

@[simp] theorem connection_countDown : (s.countDown b).connection = s.connection := by
  rcases countDown_cases b s with ⟨h, -⟩ | ⟨x, r, -, -, h⟩ <;> simp [h]

end Session

/-! ## Listeners and slots -/

/-- The handle that takes an outcome as it comes, and how it reads the outcome. -/
def Listener.reading? : Listener → Option (HandleId × (Outcome → Ending))
  | .direct h => some (h, Outcome.ending fun v => .ok (.value v))
  | .converting h c => some (h, Outcome.ending fun v => (c.await v).map Converted.result)
  | .deferred h c => some (h, Outcome.ending fun v => (c.apply v).map Converted.result)
  | .selecting h => some (h, Outcome.ending fun v => .ok (.value (.bool (isOk v))))
  | _ => none

/-- What a reply to a command of a batch means for its handle. -/
def Command.reading (c : Command) (v : Value) : Except Error Result :=
  match c.conversion with
  | some k => (k.apply v).map Converted.result
  | none => .ok (.value v)

/-- A batch in which a slot has its reply, its error, or was given up. -/
def Batch.fill (x : Batch) (i : Nat) (slot : Slot) : Batch :=
  { x with slots := x.slots.set i { slot with filled := true } }

/-- What a slot of a batch stands for: a command and a handle. -/
def Slot.claim (slot : Slot) : Command × HandleId :=
  (slot.command, slot.handle)

theorem exists_of_claims {xs ys : List Slot} (h : xs.map Slot.claim = ys.map Slot.claim) {i : Nat}
    {slot : Slot} (hi : xs[i]? = some slot) :
    ∃ y, ys[i]? = some y ∧ y.handle = slot.handle ∧ y.command = slot.command := by
  have hm := congrArg (·[i]?) h
  simp only [List.getElem?_map, hi, Option.map_some] at hm
  obtain ⟨y, hy, hys⟩ := Option.map_eq_some_iff.1 hm.symm
  exact ⟨y, hy, congrArg Prod.snd hys, congrArg Prod.fst hys⟩

theorem claims_fill {x : Batch} {i : Nat} {slot : Slot} (hi : x.slots[i]? = some slot) :
    (x.fill i slot).slots.map Slot.claim = x.slots.map Slot.claim := by
  refine List.ext_getElem? fun j => ?_
  rw [List.getElem?_map, List.getElem?_map, Batch.fill, List.getElem?_set]
  split
  · next hj =>
    subst hj
    rw [hi, if_pos (List.getElem?_eq_some_iff.1 hi).1]
    rfl
  · rfl

namespace Session

theorem fillSlot_eq {s : Session} {b : BatchId} {x : Batch} {i : Nat} {slot : Slot}
    (hb : s.batches[b]? = some x) (hi : x.slots[i]? = some slot) (o : Outcome) :
    s.fillSlot b i o =
      if slot.filled then s
      else (s.setBatch b (x.fill i slot)).endHandle slot.handle (o.ending slot.command.reading) := by
  simp only [fillSlot, hb, hi]
  rfl

@[simp] theorem connection_fillSlot (b : BatchId) (i : Nat) (o : Outcome) (s : Session) :
    (s.fillSlot b i o).connection = s.connection := by
  unfold fillSlot
  split
  · rfl
  · split
    · rfl
    · split
      · rfl
      · exact connection_endHandle ..

theorem setBatch_endHandle (b : BatchId) (x : Batch) (h : HandleId) (e : Ending) (s : Session) :
    (s.setBatch b x).endHandle h e = (s.endHandle h e).setBatch b x := by
  rw [endHandle_eq, endHandle_eq]
  rfl

/-- A handle takes an outcome as it comes. -/
theorem tellWith_reading {l : Listener} {h : HandleId} {f : Outcome → Ending}
    (hl : l.reading? = some (h, f)) (again : HandleId → CursorId → Step → Session → Session)
    (o : Outcome) (s : Session) : s.tellWith again ⟨l, o⟩ = s.endHandle h (f o) := by
  cases l with
  | direct | converting | deferred | selecting =>
    obtain ⟨rfl, rfl⟩ := Prod.mk.inj (Option.some.inj hl)
    rfl
  | frame | slot | fetching | connecting => cases hl

end Session

end SortedSets

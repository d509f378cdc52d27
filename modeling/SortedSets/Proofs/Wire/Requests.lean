import SortedSets.Wire.Head
import SortedSets.Wire.Request

/-!
# Reading requests

A server reads requests off the wire: an array of byte strings, each with its length in front. The
reader here is written from the format alone, without the writer: it counts and never looks at
what a byte string holds. What it reads is exactly what `Wire.request` writes.

## Main definitions

* `Wire.readHeader`, `Wire.readBulk`, `Wire.readRequest`: what stands at the beginning of a byte
  string, and what follows it
* `Wire.readRequests`: the requests of a byte string that holds nothing else

## Main results

* `Wire.readRequest_iff`: a request is read exactly where one was written, whatever follows
* `Wire.readRequests_iff`: requests are read off their concatenation, and off nothing else
* `Wire.eq_of_flatMap_request`: requests with the same bytes are the same
-/

namespace SortedSets.Wire

/-! ## Counts -/

/-- The number that a line writes in the one way in which it may be written. -/
def count? (line : Bytes) : Option Nat := do
  let n ← line.numeral?.bind readDigits?
  if Bytes.ofNat n = line then some n else none

/-- The number behind a mark, and what follows its line. -/
def readHeader (mark : Mark) : Bytes → Option (Nat × Bytes)
  | [] => none
  | b :: bs =>
    if b = mark.byte then do
      let (line, rest) ← splitLine bs
      let n ← count? line
      return (n, rest)
    else none

/-- No line end stands in the digits of a number. -/
theorem cr_notMem_ofNat (n : Nat) : cr ∉ Bytes.ofNat n := by
  intro h
  obtain ⟨c, hc, e⟩ := List.mem_map.1 h
  have hd := isDigit_of_mem_decimalNat hc
  have hlt := toNat_lt_of_isDigit hd
  have hn : c.toNat = 13 := by
    have e := congrArg UInt8.toNat e
    simp only [Nat.toUInt8, UInt8.toNat_ofNat', cr, UInt8.reduceToNat] at e
    omega
  exact absurd (hn ▸ (Char.isDigit_iff_toNat.1 hd).1) (by decide)

@[simp] theorem count?_ofNat (n : Nat) : count? (Bytes.ofNat n) = some n := by
  have hn : (Bytes.ofNat n).numeral? = some (decimalNat n) :=
    Bytes.numeral?_ofChars fun _ hc => toNat_lt_of_isDigit (isDigit_of_mem_decimalNat hc)
  simp [count?, hn, readDigits?_decimalNat]

theorem eq_ofNat_of_count? {line : Bytes} {n : Nat} (h : count? line = some n) :
    line = Bytes.ofNat n := by
  obtain ⟨m, -, hm⟩ := Option.bind_eq_some_iff.1 h
  split at hm
  · next e =>
    cases hm
    exact e.symm
  · cases hm

/-- A header is read exactly where one was written. -/
theorem readHeader_iff {mark : Mark} {bs rest : Bytes} {n : Nat} :
    readHeader mark bs = some (n, rest) ↔ bs = header mark n ++ rest := by
  constructor
  · intro h
    cases bs with
    | nil => cases h
    | cons b bs =>
      rw [readHeader] at h
      split at h
      · next hb =>
        -- a length is read only from the digits that it would be written with
        obtain ⟨⟨line, after⟩, hl, h⟩ := Option.bind_eq_some_iff.1 h
        obtain ⟨m, hm, h⟩ := Option.bind_eq_some_iff.1 h
        cases h
        simp [header, hb, eq_of_splitLine hl, eq_ofNat_of_count? hm]
      · cases h
  · rintro rfl
    have hl : splitLine (Bytes.ofNat n ++ (lineEnd ++ rest)) = some (Bytes.ofNat n, rest) :=
      splitLine_of_notMem (cr_notMem_ofNat n) rest
    simp [header, readHeader, hl]

/-! ## Byte strings -/

/-- The byte string at the beginning, as long as its header says and with a line end behind it,
and what follows. -/
def readBulk (bs : Bytes) : Option (Bytes × Bytes) := do
  let (n, bs) ← readHeader .bulk bs
  if (bs.drop n).take lineEnd.length = lineEnd then
    some (bs.take n, bs.drop (n + lineEnd.length))
  else none

/-- So many byte strings, and what follows them. -/
def readBulks : Nat → Bytes → Option (List Bytes × Bytes)
  | 0, bs => some ([], bs)
  | n + 1, bs => do
    let (arg, bs) ← readBulk bs
    let (args, bs) ← readBulks n bs
    return (arg :: args, bs)

/-- A byte string is read exactly where one was written: its length says where it ends, so it may
hold line ends and marks. -/
theorem readBulk_iff {bs arg rest : Bytes} :
    readBulk bs = some (arg, rest) ↔ bs = bulk arg ++ rest := by
  constructor
  · intro h
    obtain ⟨⟨n, after⟩, hn, h⟩ := Option.bind_eq_some_iff.1 h
    rw [readHeader_iff.1 hn]
    dsimp only at h
    split at h
    · next he =>
      cases h
      -- the line end behind the byte string shows that all of its bytes are there
      have hn : n ≤ after.length := by
        have hl := congrArg List.length he
        simp only [List.length_take, List.length_drop, lineEnd, List.length_cons,
          List.length_nil] at hl
        omega
      have hsplit : after = after.take n ++ (lineEnd ++ after.drop (n + lineEnd.length)) := by
        have hd := List.take_append_drop lineEnd.length (after.drop n)
        rw [he, List.drop_drop] at hd
        rw [hd, List.take_append_drop]
      rw [bulk, List.length_take, Nat.min_eq_left hn, List.append_assoc, List.append_assoc,
        ← hsplit]
    · cases h
  · rintro rfl
    have hn : readHeader .bulk (bulk arg ++ rest) = some (arg.length, arg ++ (lineEnd ++ rest)) :=
      readHeader_iff.2 (by simp [bulk])
    have hd : (arg ++ (lineEnd ++ rest)).drop arg.length = lineEnd ++ rest := List.drop_left
    simp [readBulk, hn, hd, List.drop_append]

theorem readBulks_iff {n : Nat} {bs rest : Bytes} {args : List Bytes} :
    readBulks n bs = some (args, rest) ↔ args.length = n ∧ bs = args.flatMap bulk ++ rest := by
  -- the count of the header goes down with the arguments that are still to be read
  induction n generalizing bs args with
  | zero => cases args <;> simp [readBulks, eq_comm]
  | succ n ih =>
    constructor
    · intro h
      obtain ⟨⟨arg, after⟩, ha, h⟩ := Option.bind_eq_some_iff.1 h
      obtain ⟨⟨args', after'⟩, hs, h⟩ := Option.bind_eq_some_iff.1 h
      cases h
      obtain ⟨hl, rfl⟩ := ih.1 hs
      exact ⟨by simp [hl], by simpa using readBulk_iff.1 ha⟩
    · rintro ⟨hl, rfl⟩
      cases args with
      | nil => cases hl
      | cons arg args =>
        have ha : readBulk (bulk arg ++ (args.flatMap bulk ++ rest)) =
            some (arg, args.flatMap bulk ++ rest) := readBulk_iff.2 rfl
        have hs := ih.2 ⟨Nat.succ.inj hl, rfl⟩
        simp [readBulks, ha, hs]

/-! ## Requests -/

/-- The request at the beginning, and what follows it. -/
def readRequest (bs : Bytes) : Option (List Bytes × Bytes) := do
  let (n, bs) ← readHeader .array bs
  readBulks n bs

/-- A request is read exactly where one was written, whatever follows. -/
theorem readRequest_iff {bs rest : Bytes} {args : List Bytes} :
    readRequest bs = some (args, rest) ↔ bs = request args ++ rest := by
  constructor
  · intro h
    obtain ⟨⟨n, after⟩, hn, h⟩ := Option.bind_eq_some_iff.1 h
    dsimp only at h
    obtain ⟨rfl, rfl⟩ := readBulks_iff.1 h
    simp [readHeader_iff.1 hn, request]
  · rintro rfl
    have hn : readHeader .array (request args ++ rest) =
        some (args.length, args.flatMap bulk ++ rest) := readHeader_iff.2 (by simp [request])
    simp [readRequest, hn, readBulks_iff]

theorem length_lt_of_readRequest {bs rest : Bytes} {args : List Bytes}
    (h : readRequest bs = some (args, rest)) : rest.length < bs.length := by
  rw [readRequest_iff.1 h]
  simp only [request, header, List.cons_append, List.length_cons, List.length_append]
  omega

/-- The requests of a byte string that holds requests and nothing else. -/
def readRequests (bs : Bytes) : Option (List (List Bytes)) :=
  if bs = [] then some []
  else
    match h : readRequest bs with
    | none => none
    | some (args, rest) =>
      have : rest.length < bs.length := length_lt_of_readRequest h
      (readRequests rest).map (args :: ·)
termination_by bs.length

@[simp] theorem readRequests_nil : readRequests [] = some [] := by
  rw [readRequests, if_pos rfl]

theorem readRequests_request_append (args : List Bytes) (rest : Bytes) :
    readRequests (request args ++ rest) = (readRequests rest).map (args :: ·) := by
  -- a request has a mark at least, so the end is not reached here
  have hne : request args ++ rest ≠ [] := by simp [request, header]
  have hr : readRequest (request args ++ rest) = some (args, rest) := readRequest_iff.2 rfl
  rw [readRequests, if_neg hne]
  split
  · simp_all
  · next args' rest' h =>
    obtain ⟨rfl, rfl⟩ := Prod.mk.inj (Option.some.inj (hr.symm.trans h))
    rfl

/-- Requests are read off their concatenation, and off nothing else. -/
theorem readRequests_iff {bs : Bytes} {commands : List (List Bytes)} :
    readRequests bs = some commands ↔ bs = commands.flatMap request := by
  constructor
  · intro h
    -- what was read says how often the reader went on
    induction commands generalizing bs with
    | nil =>
      rw [readRequests] at h
      split at h
      · assumption
      · split at h
        · cases h
        · simp at h
    | cons args commands ih =>
      rw [readRequests] at h
      split at h
      · cases h
      · split at h
        · cases h
        · next args' rest hr =>
          obtain ⟨commands', hc, e⟩ := Option.map_eq_some_iff.1 h
          cases e
          rw [readRequest_iff.1 hr, ih hc, List.flatMap_cons]
  · rintro rfl
    induction commands with
    | nil => simp
    | cons args commands ih =>
      rw [List.flatMap_cons, readRequests_request_append, ih]
      rfl

/-- Requests with the same bytes are the same. -/
theorem eq_of_flatMap_request {commands others : List (List Bytes)}
    (h : commands.flatMap request = others.flatMap request) : commands = others :=
  Option.some.inj ((readRequests_iff.2 h).symm.trans (readRequests_iff.2 rfl)).symm

end SortedSets.Wire

import SortedSets.Wire.Head

/-!
# The reader of replies

Bytes arrive in pieces of any size. The reader keeps the arrays that are not yet whole and the
bytes that make no line yet; once it has found a fault it keeps nothing and finds the same fault
again whenever bytes arrive.

The reader stands for `hiredis.Reader`, as far as the second version of the protocol (RESP2) goes; the
types of replies that the third version adds are left out, and their marks count as unknown. The laws
of connections and sessions know of the reader that it starts without a fault and the three results
below, and nothing else: they hold whatever replies look like on the wire, which matters only to runs
on fixed bytes.

## Main definitions

* `Wire.OpenArray`, `Wire.place`: arrays under way, and a reply put into its place
* `Wire.Reader`: what was read so far, and the fault if there was one
* `Wire.Reader.feed`: the replies that a piece completes

## Main results

* `Wire.Reader.feed_start_nil`: nothing is read from nothing
* `Wire.Reader.feed_append`: it does not matter where the stream is cut into pieces
* `Wire.Reader.feed_of_fault`: a fault stays, and nothing is read behind it
-/

namespace SortedSets.Wire

/-- An array that is not yet whole: how many replies it lacks, and those it has, the last one
first. -/
structure OpenArray where
  missing : Nat
  elements : List Reply

/-- A reply put into the innermost of the arrays under way, or handed on if there is none. An
array that lacks no other reply is then a reply itself. -/
def place (r : Reply) : List OpenArray → List OpenArray × Option Reply
  | [] => ([], some r)
  | a :: outer =>
    if a.missing ≤ 1 then place (.array (r :: a.elements).reverse) outer
    else (⟨a.missing - 1, r :: a.elements⟩ :: outer, none)

/-- What was read so far of a stream of RESP2 replies: the bytes that make no line yet, the arrays
under way, the innermost first, and the fault of the stream. -/
structure Reader where
  unread : Bytes
  opened : List OpenArray
  fault : Option Fault

namespace Reader

/-- A reader that has read nothing. -/
def start : Reader where
  unread := []
  opened := []
  fault := none

/-- The replies of a byte string that follows what was read, and the reader after it. -/
def read (opened : List OpenArray) (bs : Bytes) : List Reply × Reader :=
  match h : head bs with
  | .incomplete => ([], ⟨bs, opened, none⟩)
  -- the replies before the fault are handed out; the arrays under way never come
  | .fault f => ([], ⟨[], [], some f⟩)
  | .array count rest =>
    have : rest.length < bs.length := length_lt_of_head (by rw [h]; rfl)
    read (⟨count, []⟩ :: opened) rest
  | .reply r rest =>
    have : rest.length < bs.length := length_lt_of_head (by rw [h]; rfl)
    let (opened, whole) := place r opened
    let (rs, reader) := read opened rest
    (whole.toList ++ rs, reader)
termination_by bs.length

theorem read_of_incomplete {opened : List OpenArray} {bs : Bytes} (h : head bs = .incomplete) :
    read opened bs = ([], ⟨bs, opened, none⟩) := by
  rw [read]
  split <;> simp_all

theorem read_of_fault {opened : List OpenArray} {bs : Bytes} {f : Fault}
    (h : head bs = .fault f) : read opened bs = ([], ⟨[], [], some f⟩) := by
  rw [read]
  split <;> simp_all

theorem read_of_array {opened : List OpenArray} {bs rest : Bytes} {count : Nat}
    (h : head bs = .array count rest) : read opened bs = read (⟨count, []⟩ :: opened) rest := by
  rw [read]
  split <;> simp_all

theorem read_of_reply {opened : List OpenArray} {bs rest : Bytes} {r : Reply}
    (h : head bs = .reply r rest) :
    read opened bs =
      ((place r opened).2.toList ++ (read (place r opened).1 rest).1,
        (read (place r opened).1 rest).2) := by
  rw [read]
  split <;> simp_all

/-- The replies that a piece of the stream completes. -/
def feed (piece : Bytes) (r : Reader) : List Reply × Reader :=
  match r.fault with
  | some _ => ([], r)
  | none => read r.opened (r.unread ++ piece)

/-- Nothing is read from nothing. -/
theorem feed_start_nil : start.feed [] = ([], start) :=
  read_of_incomplete rfl

/-- A fault stays, and nothing is read behind it. -/
theorem feed_of_fault {r : Reader} {f : Fault} (h : r.fault = some f) (piece : Bytes) :
    r.feed piece = ([], r) := by
  rw [feed, h]

theorem read_append (opened : List OpenArray) (bs more : Bytes) :
    read opened (bs ++ more) =
      ((read opened bs).1 ++ ((read opened bs).2.feed more).1,
        ((read opened bs).2.feed more).2) := by
  fun_induction read opened bs with
  | case1 opened bs h => simp [feed]
  | case2 opened bs f h =>
    have := head_append (show head bs ≠ .incomplete by simp [h]) more
    simp [read_of_fault (this.trans (by rw [h]; rfl)), feed]
  | case3 opened bs count rest h _ ih =>
    have := head_append (show head bs ≠ .incomplete by simp [h]) more
    simp [read_of_array (this.trans (by rw [h]; rfl)), ih]
  | case4 opened bs r rest h _ opened' whole hp rs reader hr ih =>
    have := head_append (show head bs ≠ .incomplete by simp [h]) more
    simp [read_of_reply (this.trans (by rw [h]; rfl)), hp, ih, hr]

/-- It does not matter where the stream is cut into pieces. -/
theorem feed_append (a b : Bytes) (r : Reader) :
    r.feed (a ++ b) = ((r.feed a).1 ++ ((r.feed a).2.feed b).1, ((r.feed a).2.feed b).2) := by
  cases h : r.fault with
  | some f => simp [feed_of_fault h]
  | none =>
    simp only [feed, h, ← List.append_assoc]
    exact read_append _ _ _

end Reader

end SortedSets.Wire

import SortedSets.Number.Reading
import SortedSets.Wire.Mark
import SortedSets.Wire.Reply

/-!
# Heads of replies

The first byte of a reply is its mark, and the rest of the line says what the reply is: a line of
text, an error, an integer, how long a byte string is or how many replies an array holds. A head
is as much of a reply as can be read without reading another one.

These are the replies of the second version of the protocol (RESP2), as `hiredis.Reader` reads
them. The marks that the third version adds count as unknown.

## Main definitions

* `Wire.splitLine`: the first line of a byte string, and what follows it
* `Wire.Head`, `Wire.head`: the head of a byte string

## Main results

* `Wire.splitLine_of_notMem`: a line ends at its line end
* `Wire.length_lt_of_head`: a head is not empty
* `Wire.head_append`: a head that could be read stays when more bytes arrive
-/

namespace SortedSets.Wire

/-! ## Lines -/

/-- The bytes in front of the first line end, and those behind it. -/
def splitLine : Bytes → Option (Bytes × Bytes)
  | [] => none
  | b :: bs =>
    if b = cr ∧ bs.head? = some lf then some ([], bs.tail)
    else (splitLine bs).map fun p => (b :: p.1, p.2)

theorem eq_of_splitLine {bs line rest : Bytes} (h : splitLine bs = some (line, rest)) :
    bs = line ++ (lineEnd ++ rest) := by
  induction bs generalizing line with
  | nil => simp [splitLine] at h
  | cons b bs ih =>
    rw [splitLine] at h
    split at h
    · next hb =>
      obtain ⟨rfl, hb⟩ := hb
      cases bs with
      | nil => simp at hb
      | cons c bs => simp_all [lineEnd]
    · obtain ⟨⟨line', rest'⟩, h', e⟩ := Option.map_eq_some_iff.1 h
      simp only [Prod.mk.injEq] at e
      obtain ⟨rfl, rfl⟩ := e
      simp [ih h']

theorem splitLine_append {bs line rest : Bytes} (h : splitLine bs = some (line, rest))
    (more : Bytes) : splitLine (bs ++ more) = some (line, rest ++ more) := by
  induction bs generalizing line with
  | nil => simp [splitLine] at h
  | cons b bs ih =>
    cases bs with
    | nil => simp [splitLine] at h
    | cons c bs =>
      rw [splitLine] at h
      rw [List.cons_append, splitLine]
      split at h
      · next hb => simp_all
      · next hb =>
        obtain ⟨⟨line', rest'⟩, h', e⟩ := Option.map_eq_some_iff.1 h
        simp only [Prod.mk.injEq] at e
        obtain ⟨rfl, rfl⟩ := e
        have := ih h'
        simp_all

/-- A line ends at its line end. -/
theorem splitLine_of_notMem {line : Bytes} (h : cr ∉ line) (rest : Bytes) :
    splitLine (line ++ (lineEnd ++ rest)) = some (line, rest) := by
  induction line with
  | nil => rfl
  | cons b line ih =>
    simp only [List.mem_cons, not_or] at h
    simp [splitLine, Ne.symm h.1, ih h.2]

/-! ## Heads -/

/-- What the beginning of a byte string is: a reply that holds no others, the line in front of an
array of so many replies, too short to say, or no reply at all. -/
inductive Head where
  | reply (r : Reply) (rest : Bytes)
  | array (count : Nat) (rest : Bytes)
  | incomplete
  | fault (f : Fault)

/-- What follows a head that could be read. -/
def Head.rest? : Head → Option Bytes
  | reply _ rest | array _ rest => some rest
  | incomplete | fault _ => none

/-- The integer that a line writes in the one way in which it may be written, if it has 64
bits. -/
def integer? (line : Bytes) : Option Int := do
  let n ← line.numeral?.bind readInt?
  if Bytes.ofInt n = line ∧ -0x8000000000000000 ≤ n ∧ n ≤ 0x7FFFFFFFFFFFFFFF then some n
  else none

/-- A reply that is a line of text, in which no line end may stand alone. -/
def lineReply (make : Bytes → Reply) (line rest : Bytes) : Head :=
  if cr ∈ line ∨ lf ∈ line then .fault .badLine else .reply (make line) rest

/-- A byte string of a known length with a line end behind it. -/
def bulkReply (length : Nat) (rest : Bytes) : Head :=
  -- the two bytes behind it are taken for a line end without being looked at
  if rest.length < length + 2 then .incomplete
  else .reply (.bytes (rest.take length)) (rest.drop (length + 2))

/-- A byte string, given the line with its length. -/
def bulkHead (line rest : Bytes) : Head :=
  match integer? line with
  | none => .fault .badBulkLength
  | some n =>
    if n < -1 then .fault .bulkLengthRange
    else if n = -1 then .reply .nil rest
    else bulkReply n.toNat rest

/-- An array, given the line with its length. -/
def arrayHead (line rest : Bytes) : Head :=
  match integer? line with
  | none => .fault .badArrayLength
  | some n =>
    if n < -1 ∨ 0xFFFFFFFF < n then .fault .arrayLengthRange
    else if n = -1 then .reply .nil rest
    else if n = 0 then .reply (.array []) rest
    else .array n.toNat rest

/-- An integer reply. -/
def intHead (line rest : Bytes) : Head :=
  match integer? line with
  | none => .fault .badInteger
  | some n => .reply (.int n) rest

/-- An error reply. -/
def errorReply (line : Bytes) : Reply :=
  .error (.ofChars (Utf8.decodeLossy line))

/-- A reply by its mark and its first line. -/
def headOf (mark : Mark) (line rest : Bytes) : Head :=
  match mark with
  | .line => lineReply .bytes line rest
  | .error => lineReply errorReply line rest
  | .int => intHead line rest
  | .bulk => bulkHead line rest
  | .array => arrayHead line rest

/-- What the beginning of a byte string is. A mark that RESP2 does not know is a fault. -/
def head : Bytes → Head
  | [] => .incomplete
  | b :: bs =>
    match Mark.ofByte? b, splitLine bs with
    -- an unknown mark is a fault at once, without waiting for the end of its line
    | none, _ => .fault (.unknownType b)
    | some _, none => .incomplete
    | some mark, some (line, rest) => headOf mark line rest

theorem length_le_of_headOf {mark : Mark} {line bs rest : Bytes}
    (h : (headOf mark line bs).rest? = some rest) : rest.length ≤ bs.length := by
  cases mark
  all_goals
    simp only [headOf, lineReply, intHead, bulkHead, bulkReply, arrayHead] at h
    repeat' split at h
  all_goals
    simp only [Head.rest?, Option.some.injEq, reduceCtorEq] at h
  all_goals
    subst h
    simp

/-- A head is not empty. -/
theorem length_lt_of_head {bs rest : Bytes} (h : (head bs).rest? = some rest) :
    rest.length < bs.length := by
  cases bs with
  | nil => simp [head, Head.rest?] at h
  | cons b bs =>
    rw [head] at h
    split at h
    · simp [Head.rest?] at h
    · simp [Head.rest?] at h
    · next line after hl =>
      have := length_le_of_headOf h
      simp [eq_of_splitLine hl, lineEnd]
      omega

/-- A head with more behind what follows it. -/
def Head.append (more : Bytes) : Head → Head
  | .reply r rest => .reply r (rest ++ more)
  | .array count rest => .array count (rest ++ more)
  | .incomplete => .incomplete
  | .fault f => .fault f

theorem headOf_append {mark : Mark} {line bs : Bytes} (h : headOf mark line bs ≠ .incomplete)
    (more : Bytes) : headOf mark line (bs ++ more) = (headOf mark line bs).append more := by
  cases mark with
  | line | error => simp only [headOf, lineReply]; split <;> rfl
  | int => simp only [headOf, intHead]; split <;> rfl
  | array =>
    simp only [headOf, arrayHead]
    repeat' split
    all_goals rfl
  | bulk =>
    simp only [headOf, bulkHead, bulkReply] at h ⊢
    split
    · rfl
    · next n _ =>
      simp_all only
      split
      · rfl
      · split
        · rfl
        · have hl : ¬ bs.length < n.toNat + 2 := by
            intro hl
            simp_all
          have hm : ¬ (bs ++ more).length < n.toNat + 2 := by simp; omega
          rw [if_neg hl, if_neg hm]
          simp only [Head.append]
          rw [List.take_append_of_le_length (by omega), List.drop_append_of_le_length (by omega)]

/-- A head that could be read stays when more bytes arrive. -/
theorem head_append {bs : Bytes} (h : head bs ≠ .incomplete) (more : Bytes) :
    head (bs ++ more) = (head bs).append more := by
  cases bs with
  | nil => exact absurd rfl h
  | cons b bs =>
    rw [List.cons_append, head, head]
    rw [head] at h
    cases hb : Mark.ofByte? b with
    | none => simp [Head.append]
    | some mark =>
      cases hl : splitLine bs with
      | none => simp [hb, hl] at h
      | some p =>
        simp only [hb, hl] at h
        simp only [splitLine_append hl]
        exact headOf_append h more

end SortedSets.Wire

import SortedSets.Command.Query
import SortedSets.Proofs.Command.Checks
import SortedSets.Proofs.Number.Notation

/-!
# Words and numbers in commands

A server takes the words of a command apart from the left: it compares option words without regard to
case, and reads integers and scores as numbers. A number begins with a digit or a sign, and is no
option word for that reason.

## Main definitions

* `Bytes.isWord`: a byte string is an option word
* `takeWord`: an option word at the beginning
* `readMany?`: a number of words, each of them read
* `Bytes.int?`, `Bytes.score?`, `Bytes.number?`: numbers

## Main results

* `readMany?_append`: words are read one by one, whatever follows
* `Value.Converts.unique`: a value is converted to one byte string
* `Value.IsScore.number?`, `Value.score?_of_converts`: a number is read back
* `Value.IsScore.isWord_eq_false`: a number is no option word
-/

namespace SortedSets

/-- Scores are asked for by a word behind the arguments. -/
theorem Command.args_members (name : String) (args : List Value) (withScores : Bool)
    (rest : List Value) :
    (members name args withScores rest).args =
      args ++ ((if withScores then [word "WITHSCORES"] else []) ++ rest) := by
  cases withScores <;> rfl

/-! ## Option words -/

/-- The byte string is an option word, in upper or in lower case. -/
def Bytes.isWord (w : String) (bs : Bytes) : Bool :=
  bs.upper == Bytes.ascii w

/-- Whether the first word is an option word, and what follows if so. -/
def takeWord (w : String) : List Bytes → Bool × List Bytes
  | [] => (false, [])
  | bs :: words => if bs.isWord w then (true, words) else (false, bs :: words)

theorem takeWord_of_isWord {w : String} {bs : Bytes} (h : bs.isWord w = true) (words : List Bytes) :
    takeWord w (bs :: words) = (true, words) := if_pos h

theorem takeWord_of_not_isWord {w : String} {bs : Bytes} (h : bs.isWord w = false)
    (words : List Bytes) : takeWord w (bs :: words) = (false, bs :: words) :=
  if_neg (Bool.eq_false_iff.1 h)

/-! ## Words in a row -/

/-- So many words, each of them read, and what follows them. -/
def readMany? {α : Type} (read : Bytes → Option α) : Nat → List Bytes → Option (List α × List Bytes)
  | 0, words => some ([], words)
  | _ + 1, [] => none
  | n + 1, bs :: words => do
    let x ← read bs
    let (xs, words) ← readMany? read n words
    return (x :: xs, words)

/-- Words are read one by one, whatever follows. -/
theorem readMany?_append {α : Type} {read : Bytes → Option α} {xs : List α} {words : List Bytes}
    (h : List.Forall₂ (fun x bs => read bs = some x) xs words) (rest : List Bytes) :
    readMany? read xs.length (words ++ rest) = some (xs, rest) := by
  induction h with
  | nil => rfl
  | cons hx _ ih => simp [readMany?, hx, ih]

/-- What is converted one by one falls into the parts of the list. -/
theorem exists_append_of_forall₂ {vs ws : List Value} {words : List Bytes}
    (h : List.Forall₂ Value.Converts (vs ++ ws) words) :
    ∃ first second, words = first ++ second ∧ List.Forall₂ Value.Converts vs first ∧
      List.Forall₂ Value.Converts ws second := by
  induction vs generalizing words with
  | nil => exact ⟨[], words, rfl, .nil, h⟩
  | cons v vs ih =>
    obtain ⟨bs, rest, hv, hrest, rfl⟩ := List.forall₂_cons_left_iff.1 h
    obtain ⟨first, second, rfl, hfirst, hsecond⟩ := ih hrest
    exact ⟨bs :: first, second, rfl, .cons hv hfirst, hsecond⟩

/-! ## Numbers -/

/-- The integer that a word writes. -/
def Bytes.int? (bs : Bytes) : Option Int :=
  bs.numeral?.bind readInt?

/-- The score that a word writes. -/
def Bytes.score? (bs : Bytes) : Option Binary64 :=
  bs.numeral?.bind readScore?

/-- The number that a word writes, an integer or a score. -/
def Bytes.number? (bs : Bytes) : Option Value :=
  (readNumber bs.numeral?).toOption

@[simp] theorem Bytes.int?_ofInt (n : Int) : (Bytes.ofInt n).int? = some n := by
  simp [Bytes.int?, Bytes.numeral?_ofInt, readInt?_decimalInt]

namespace Value

variable {v : Value} {bs bs' : Bytes}

/-- A value is converted to one byte string. -/
theorem Converts.unique (h : v.Converts bs) (h' : v.Converts bs') : bs = bs' :=
  Except.ok.inj ((Wire.argument_eq_ok_iff.2 h).symm.trans (Wire.argument_eq_ok_iff.2 h'))

@[simp] theorem converts_bytes_iff : (Value.bytes bs).Converts bs' ↔ bs' = bs :=
  ⟨fun h => h.unique (.bytes bs), fun h => h ▸ .bytes bs⟩

@[simp] theorem converts_int_iff {n : Int} : (Value.int n).Converts bs ↔ bs = Bytes.ofInt n :=
  ⟨fun h => h.unique (.int n), fun h => h ▸ .int n⟩

@[simp] theorem converts_word_iff {w : String} : (word w).Converts bs ↔ bs = Bytes.ascii w :=
  converts_bytes_iff

/-- A number is converted to ASCII characters that begin with a digit or a sign, and that are read as
the number. -/
theorem IsScore.exists_chars (h : v.IsScore) (hc : v.Converts bs) :
    ∃ cs, bs = Bytes.ofChars cs ∧ bs.numeral? = some cs ∧ startsNumber cs = true ∧
      readNumber (some cs) = .ok v := by
  obtain ⟨cs, hcs, hascii, hstart, hread⟩ := exists_chars_of_formatScore h
  have hconv : v.Converts (Bytes.ofChars cs) := by
    cases h with
    | int n =>
      rw [← Except.ok.inj hcs]
      exact .int n
    | float hx => exact .float hcs
  obtain rfl := hc.unique hconv
  exact ⟨cs, rfl, Bytes.numeral?_ofChars hascii, hstart, hread⟩

/-- A number is read back. -/
theorem IsScore.number? (h : v.IsScore) (hc : v.Converts bs) : bs.number? = some v := by
  obtain ⟨cs, -, hcs, -, hread⟩ := h.exists_chars hc
  rw [Bytes.number?, hcs, hread]
  rfl

/-- A score is read back as a score. -/
theorem score?_of_converts {x : Binary64} (hx : x ≠ .nan) (hc : (Value.float x).Converts bs) :
    bs.score? = some x := by
  obtain ⟨cs, -, hcs, -, hread⟩ := (IsScore.float hx).exists_chars hc
  rw [Bytes.score?, hcs, Option.bind_some]
  unfold readNumber at hread
  split at hread
  · cases hread
  · split at hread
    · next y hy =>
      cases hread
      exact hy
    · cases hread

/-- A number begins with a byte below all letters. -/
theorem IsScore.exists_cons (h : v.IsScore) (hc : v.Converts bs) :
    ∃ b rest, bs = b :: rest ∧ b < 65 := by
  obtain ⟨cs, rfl, -, hstart, -⟩ := h.exists_chars hc
  cases cs with
  | nil => cases hstart
  | cons c cs =>
    refine ⟨c.toNat.toUInt8, Bytes.ofChars cs, rfl, ?_⟩
    simp only [startsNumber, Bool.or_eq_true, decide_eq_true_eq] at hstart
    rcases hstart with (hdigit | rfl) | rfl
    · have hn := (Char.isDigit_iff_toNat.1 hdigit).2
      simp only [UInt8.lt_iff_toNat_lt, Nat.toUInt8, UInt8.toNat_ofNat', UInt8.reduceToNat]
      have : '9'.toNat = 57 := rfl
      omega
    · decide
    · decide

/-- A number is no option word, which begins with a letter. -/
theorem IsScore.isWord_eq_false (h : v.IsScore) (hc : v.Converts bs) {w : String}
    (hw : (Bytes.ascii w).head?.all (65 ≤ ·) = true) : bs.isWord w = false := by
  obtain ⟨b, rest, rfl, hb⟩ := h.exists_cons hc
  rw [Bytes.isWord, beq_eq_false_iff_ne]
  intro he
  -- upper case leaves the first byte as it is, below the letters
  have hlow : ¬ (97 ≤ b ∧ b ≤ 122) := by
    rw [UInt8.le_iff_toNat_le, UInt8.le_iff_toNat_le]
    rw [UInt8.lt_iff_toNat_lt] at hb
    simp at hb ⊢
    omega
  rw [← he, Bytes.upper, List.map_cons, if_neg hlow] at hw
  have hhigh : 65 ≤ b := of_decide_eq_true hw
  exact absurd hb (UInt8.not_lt.2 hhigh)

end Value

end SortedSets

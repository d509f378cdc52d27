import SortedSets.Proofs.Text.Encoding
import SortedSets.Url.Parts

/-!
# Escaped names and values

In a query a character stands for itself, or is given by the bytes of its encoding, each behind a
percent sign and in hexadecimal digits of either case; a blank may be given as a plus sign. Which
characters are escaped is free, but for those that separate the parts of a query. However a text is
escaped, it is read back.

## Main definitions

* `Url.isPlainChar`: the characters that may stand for themselves
* `Url.PercentByte`, `Url.PercentBytes`: bytes behind percent signs
* `Url.Escapes`: the escaped forms of a text

## Main results

* `Url.unescape_of_escapes`: an escaped text is read back
* `Url.exists_escapes`: every text of characters has an escaped form
* `Url.Escapes.isQueryChar`: no escaped text has a separator in it
-/

namespace SortedSets.Url

/-- The characters that may stand in a name or a value of a query. -/
def isQueryChar (c : Char) : Bool :=
  '!' ≤ c && c ≤ '~' && c ≠ '&' && c ≠ '=' && c ≠ '#' && c ≠ ';'

/-- The characters of a query that stand for themselves. -/
def isPlainChar (c : Char) : Bool :=
  isQueryChar c && c ≠ '%' && c ≠ '+'

/-- The hexadecimal digits of a number below sixteen. -/
def hexForms (n : Nat) : List Char :=
  [n.digitChar, n.digitChar.toUpper]

/-- A byte behind a percent sign. -/
def PercentByte (b : UInt8) (w : List Char) : Prop :=
  ∃ x ∈ hexForms (b.toNat / 16), ∃ y ∈ hexForms (b.toNat % 16), w = ['%', x, y]

/-- Bytes behind percent signs. -/
inductive PercentBytes : Bytes → List Char → Prop where
  | nil : PercentBytes [] []
  | cons {b : UInt8} {bs : Bytes} {v w : List Char} (hb : PercentByte b v) (h : PercentBytes bs w) :
    PercentBytes (b :: bs) (v ++ w)

/-- The escaped forms of the characters of a text. -/
inductive Escapes : List Char → List Char → Prop where
  | nil : Escapes [] []
  | plain {c : Char} {cs w : List Char} (hc : isPlainChar c = true) (h : Escapes cs w) :
    Escapes (c :: cs) (c :: w)
  | plus {cs w : List Char} (h : Escapes cs w) : Escapes (' ' :: cs) ('+' :: w)
  | percent {c : Char} {cs v w : List Char} (hc : PercentBytes (String.utf8EncodeChar c) v)
    (h : Escapes cs w) : Escapes (c :: cs) (v ++ w)

variable {b : UInt8} {bs : Bytes} {c : Char} {cs v w : List Char}

/-! ## Characters of escaped texts -/

theorem hexDigit?_of_mem_hexForms {n : Nat} (hn : n < 16) (hc : c ∈ hexForms n) :
    isPlainChar c = true ∧ (CodePoint.scalar c).hexDigit? = some n := by
  have hall : ∀ n < 16, (hexForms n).all (fun c =>
      isPlainChar c = true ∧ (CodePoint.scalar c).hexDigit? = some n) = true := by decide
  exact of_decide_eq_true (List.all_eq_true.1 (hall n hn) c hc)

theorem isQueryChar_of_isPlainChar (h : isPlainChar c = true) : isQueryChar c = true := by
  simp only [isPlainChar, Bool.and_eq_true] at h
  exact h.1.1

theorem PercentBytes.isQueryChar (h : PercentBytes bs v) : ∀ c ∈ v, isQueryChar c = true := by
  induction h with
  | nil => exact List.forall_mem_nil _
  | @cons b bs v w hb h ih =>
    obtain ⟨x, hx, y, hy, rfl⟩ := hb
    have hlt := b.toNat_lt
    have hx := (hexDigit?_of_mem_hexForms (by omega) hx).1
    have hy := (hexDigit?_of_mem_hexForms (by omega) hy).1
    intro c hc
    rcases List.mem_append.1 hc with hc | hc
    · simp only [List.mem_cons, List.not_mem_nil, or_false] at hc
      rcases hc with rfl | rfl | rfl
      · decide
      · exact isQueryChar_of_isPlainChar hx
      · exact isQueryChar_of_isPlainChar hy
    · exact ih c hc

/-- No escaped text has a separator in it. -/
theorem Escapes.isQueryChar (h : Escapes cs w) : ∀ c ∈ w, isQueryChar c = true := by
  induction h with
  | nil => exact List.forall_mem_nil _
  | plain hc h ih => exact List.forall_mem_cons.2 ⟨isQueryChar_of_isPlainChar hc, ih⟩
  | plus h ih => exact List.forall_mem_cons.2 ⟨by decide, ih⟩
  | percent hc h ih =>
    exact fun c hm => (List.mem_append.1 hm).elim (hc.isQueryChar c) (ih c)

theorem isAscii_of_isQueryChar (h : Url.isQueryChar c = true) : (CodePoint.scalar c).isAscii = true := by
  simp only [Url.isQueryChar, Bool.and_eq_true, decide_eq_true_eq] at h
  have hle := UInt32.le_iff_toNat_le.1 (Char.le_def.1 h.1.1.1.1.2)
  exact decide_eq_true (Nat.lt_of_le_of_lt hle (by decide))

theorem Escapes.ne_nil (h : Escapes cs w) (hne : cs ≠ []) : w ≠ [] := by
  cases h with
  | nil => exact absurd rfl hne
  | plain hc h => exact List.cons_ne_nil _ _
  | plus h => exact List.cons_ne_nil _ _
  | @percent c cs v w hc h =>
    -- an escaped character has at least one byte
    have hlength : 0 < (String.utf8EncodeChar c).length := by
      rcases encodeChar_cases c with ⟨-, hone⟩ | ⟨-, b, bs, hmany, -⟩
      · rw [hone]
        exact Nat.zero_lt_one
      · rw [hmany]
        exact Nat.succ_pos _
    generalize String.utf8EncodeChar c = bs at hc hlength
    cases hc with
    | nil => cases hlength
    | cons hb hbs =>
      obtain ⟨x, -, y, -, rfl⟩ := hb
      exact List.cons_ne_nil _ _

/-! ## Reading -/

/-- A character of a query, a plus sign read as a blank. -/
def readPlus (p : CodePoint) : CodePoint :=
  if p.is '+' then .scalar ' ' else p

theorem readPlus_of_ne (h : c ≠ '+') : readPlus (.scalar c) = .scalar c :=
  if_neg (by simpa [CodePoint.is] using h)

theorem percentBytes_cons {p : CodePoint} (h : p.is '%' = false) (t : Text) :
    percentBytes (p :: t) = p.toNat.toUInt8 :: percentBytes t := by
  rw [percentBytes]
  simp [h]

theorem percentBytes_percent {p q : CodePoint} {x y : Nat} (hx : p.hexDigit? = some x)
    (hy : q.hexDigit? = some y) (t : Text) :
    percentBytes (.scalar '%' :: p :: q :: t) = (16 * x + y).toUInt8 :: percentBytes t := by
  rw [percentBytes]
  · simp [hx, hy]
  · decide

/-- A byte behind a percent sign is read, whatever follows. -/
theorem percentBytes_of_percentByte (h : PercentByte b v) (t : Text) :
    percentBytes ((Text.ofChars v).map readPlus ++ t) = b :: percentBytes t := by
  obtain ⟨x, hx, y, hy, rfl⟩ := h
  have hlt := b.toNat_lt
  obtain ⟨hplainX, hreadX⟩ := hexDigit?_of_mem_hexForms (by omega) hx
  obtain ⟨hplainY, hreadY⟩ := hexDigit?_of_mem_hexForms (by omega) hy
  have hplus {c : Char} (h : isPlainChar c = true) : c ≠ '+' := by
    simp only [isPlainChar, Bool.and_eq_true, decide_eq_true_eq] at h
    exact h.2
  have hsum : 16 * (b.toNat / 16) + b.toNat % 16 = b.toNat := Nat.div_add_mod ..
  simp only [Text.ofChars, List.map_cons, List.map_nil, readPlus_of_ne (hplus hplainX),
    readPlus_of_ne (hplus hplainY), readPlus_of_ne (c := '%') (by decide), List.cons_append,
    List.nil_append]
  rw [percentBytes_percent hreadX hreadY, hsum, Nat.toUInt8, UInt8.ofNat_toNat]

theorem percentBytes_of_percentBytes (h : PercentBytes bs v) (t : Text) :
    percentBytes ((Text.ofChars v).map readPlus ++ t) = bs ++ percentBytes t := by
  induction h with
  | nil => rfl
  | cons hb h ih =>
    rw [Text.ofChars_append, List.map_append, List.append_assoc, percentBytes_of_percentByte hb, ih]
    rfl

/-- The bytes of an escaped text are those of its encoding. -/
theorem percentBytes_of_escapes (h : Escapes cs w) :
    percentBytes ((Text.ofChars w).map readPlus) = cs.flatMap String.utf8EncodeChar := by
  induction h with
  | nil => rfl
  | @plain c cs w hc h ih =>
    have hascii := isAscii_of_isQueryChar (isQueryChar_of_isPlainChar hc)
    simp only [isPlainChar, Bool.and_eq_true, decide_eq_true_eq] at hc
    -- a plain character is neither a plus nor a percent sign, and stands for itself
    have hpercent : (CodePoint.scalar c).is '%' = false := by simpa [CodePoint.is] using hc.1.2
    obtain ⟨-, hone⟩ := (encodeChar_cases c).resolve_right fun hhigh =>
      absurd (of_decide_eq_true hascii) (Nat.not_lt.2 hhigh.1)
    rw [List.flatMap_cons, hone, ← ih]
    change percentBytes (readPlus (.scalar c) :: (Text.ofChars w).map readPlus) = _
    rw [readPlus_of_ne hc.2, percentBytes_cons hpercent]
    rfl
  | plus h ih =>
    rw [List.flatMap_cons, ← ih]
    exact percentBytes_cons (p := .scalar ' ') rfl _
  | percent hc h ih =>
    rw [Text.ofChars_append, List.map_append, percentBytes_of_percentBytes hc, ih, List.flatMap_cons]

/-- A text of ASCII characters is one run. -/
theorem decodeRuns_of_ascii {t : Text} (h : ∀ p ∈ t, p.isAscii = true) (run : Text) :
    decodeRuns run t = decodeRuns.flush (t.reverse ++ run) := by
  induction t generalizing run with
  | nil => rfl
  | cons p t ih =>
    rw [decodeRuns, if_pos (h p List.mem_cons_self), ih fun q hq => h q (List.mem_cons_of_mem p hq),
      List.reverse_cons, List.append_assoc]
    rfl

theorem decodeLossy_flatMap (cs : List Char) :
    Utf8.decodeLossy (cs.flatMap String.utf8EncodeChar) = cs := by
  induction cs with
  | nil => rfl
  | cons c cs ih =>
    rw [List.flatMap_cons, Utf8.decodeLossy, Utf8.decode_encodeChar_append]
    exact congrArg (c :: ·) ih

/-- An escaped text is read back, whichever of its characters were escaped. -/
theorem unescape_of_escapes (h : Escapes cs w) : unescape (Text.ofChars w) = Text.ofChars cs := by
  have hascii : ∀ p ∈ (Text.ofChars w).map readPlus, p.isAscii = true := by
    intro p hp
    obtain ⟨q, hq, rfl⟩ := List.mem_map.1 hp
    obtain ⟨c, hc, rfl⟩ := List.mem_map.1 hq
    by_cases hplus : c = '+'
    · subst hplus
      decide
    · rw [readPlus_of_ne hplus]
      exact isAscii_of_isQueryChar (h.isQueryChar c hc)
  change decodeRuns [] ((Text.ofChars w).map readPlus) = _
  rw [decodeRuns_of_ascii hascii, List.append_nil, decodeRuns.flush, List.reverse_reverse,
    percentBytes_of_escapes h, decodeLossy_flatMap]

/-! ## Escaping nothing, and everything -/

/-- A text of plain characters is a form of itself. -/
theorem escapes_self (h : ∀ c ∈ cs, isPlainChar c = true) : Escapes cs cs := by
  induction cs with
  | nil => exact .nil
  | cons c cs ih =>
    exact .plain (h c List.mem_cons_self) (ih fun d hd => h d (List.mem_cons_of_mem c hd))

theorem exists_percentBytes (bs : Bytes) : ∃ v, PercentBytes bs v := by
  induction bs with
  | nil => exact ⟨[], .nil⟩
  | cons b bs ih =>
    obtain ⟨w, hw⟩ := ih
    exact ⟨_, .cons ⟨_, List.mem_cons_self, _, List.mem_cons_self, rfl⟩ hw⟩

/-- Every text of characters has an escaped form. -/
theorem exists_escapes (cs : List Char) : ∃ w, Escapes cs w := by
  induction cs with
  | nil => exact ⟨[], .nil⟩
  | cons c cs ih =>
    obtain ⟨w, hw⟩ := ih
    obtain ⟨v, hv⟩ := exists_percentBytes (String.utf8EncodeChar c)
    exact ⟨_, .percent hv hw⟩

end SortedSets.Url

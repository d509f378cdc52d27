import Mathlib.Data.List.TakeWhile
import SortedSets.Boundary
import SortedSets.Proofs.Number.Rounding

/-!
# The notation of scores

The text of a score is read back as that score. It has a point or an exponent, so that it is never
taken for an integer, and it begins with a digit behind its sign.

## Main definitions

* `isNotationChar`: the characters of the texts of finite scores
* `Value.IsScore`: the numbers that may be scores

## Main results

* `exists_readDecimal?_layout`: digits that are laid out are read with their value
* `readScore?_text`: the text of a finite score reads back
* `exists_chars_of_formatScore`: the bytes of a number read back, as a number of the same kind
-/

namespace SortedSets

/-! ## Zeros -/

theorem digitsValue_append_zeros (ds : List Char) (k : Nat) :
    digitsValue (ds ++ List.replicate k '0') = digitsValue ds * 10 ^ k := by
  rw [digitsValue, Nat.ofDigitChars_append, Nat.ofDigitChars_replicate_zero, Nat.mul_comm]
  rfl

theorem digitsValue_zeros_append (k : Nat) (ds : List Char) :
    digitsValue (List.replicate k '0' ++ ds) = digitsValue ds := by
  rw [digitsValue, Nat.ofDigitChars_append, Nat.ofDigitChars_replicate_zero, Nat.mul_zero]
  rfl

/-- What was dropped from the end of a numeral are zeros. -/
theorem exists_eq_dropTrailingZeros_append (cs : List Char) :
    ∃ k, cs = dropTrailingZeros cs ++ List.replicate k '0' := by
  refine ⟨(cs.reverse.takeWhile (· = '0')).length, ?_⟩
  have hzeros : cs.reverse.takeWhile (· = '0') =
      List.replicate (cs.reverse.takeWhile (· = '0')).length '0' :=
    List.eq_replicate_iff.2 ⟨rfl, fun c hc => by simpa using List.mem_takeWhile_imp hc⟩
  have hsplit := congrArg List.reverse
    (List.takeWhile_append_dropWhile (p := (· = '0')) (l := cs.reverse))
  rw [List.reverse_append, List.reverse_reverse, hzeros, List.reverse_replicate] at hsplit
  exact hsplit.symm

/-! ## Reading what is laid out -/

section Layout

variable {whole fraction tail rest ds : List Char} {e : Int}

/-- Digits end where something else begins. -/
theorem span_digits (hw : ∀ c ∈ whole, c.isDigit = true) (htail : startsWithDigit tail = false) :
    (whole ++ tail).takeWhile Char.isDigit = whole ∧
      (whole ++ tail).dropWhile Char.isDigit = tail := by
  rw [List.takeWhile_append_of_pos hw, List.dropWhile_append_of_pos hw]
  cases tail with
  | nil => simp
  | cons c tail =>
    have hc : c.isDigit = false := htail
    simp [hc]

/-- A decimal is read digits first, then its fraction, then its exponent. -/
theorem readDecimal?_append (whole : List Char) (hw : ∀ c ∈ whole, c.isDigit = true)
    (hne : whole ≠ []) (htail : startsWithDigit tail = false)
    (hsplit : splitFraction tail = (fraction, rest)) (he : readExponent? rest = some e) :
    readDecimal? (whole ++ tail) =
      some ⟨digitsValue (whole ++ fraction), e - fraction.length⟩ := by
  obtain ⟨htake, hdrop⟩ := span_digits hw htail
  simp [readDecimal?, htake, hdrop, hsplit, hne, he]

theorem splitFraction_point (fraction rest : List Char) (hf : ∀ c ∈ fraction, c.isDigit = true)
    (hrest : startsWithDigit rest = false) :
    splitFraction ('.' :: (fraction ++ rest)) = (fraction, rest) :=
  Prod.ext (span_digits hf hrest).1 (span_digits hf hrest).2

/-- An exponent is written with a sign and at least two digits. -/
theorem readExponent?_exponentText (e : Int) : readExponent? (exponentText e) = some e := by
  have hpadded (n : Nat) : readDigits? ('0' :: decimalNat n) = some n := by
    have hall : ('0' :: decimalNat n).all Char.isDigit = true := by
      simpa using fun c => isDigit_of_mem_decimalNat
    have hvalue : digitsValue ('0' :: decimalNat n) = n :=
      (digitsValue_zeros_append 1 _).trans (digitsValue_decimalNat n)
    rw [readDigits?, if_pos ⟨by simp, hall⟩, hvalue]
  -- a single digit has a zero in front of it, which does not change its value
  have hdigits (n : Nat) : readDigits? (if (decimalNat n).length < 2 then '0' :: decimalNat n
      else decimalNat n) = some n := by
    split
    · exact hpadded n
    · exact readDigits?_decimalNat n
  rw [exponentText, readExponent?, if_pos (.inl rfl)]
  by_cases h : e < 0
  · simp only [if_pos h, splitSign, hdigits, Option.bind_eq_bind, Option.bind_some]
    exact congrArg some (show -(e.natAbs : Int) = e by omega)
  · simp only [if_neg h, splitSign, hdigits, Option.bind_eq_bind, Option.bind_some]
    exact congrArg some (show (e.natAbs : Int) = e by omega)

theorem Decimal.value_mk (n : Nat) (e : Int) : (⟨n, e⟩ : Decimal).value = n * 10 ^ e := rfl

/-- Digits that are laid out are read with their value. -/
theorem exists_readDecimal?_layout (hds : ∀ c ∈ ds, c.isDigit = true) (hne : ds ≠ [])
    (point : Int) : ∃ d, readDecimal? (layout ds point) = some d ∧
      d.value = digitsValue ds * 10 ^ (point - ds.length) := by
  have hzeros (k : Nat) : ∀ c ∈ List.replicate k '0', c.isDigit = true := by
    simp +contextual [List.mem_replicate]
  unfold layout
  split
  · -- one digit before the point, and an exponent
    split
    · exact absurd rfl hne
    · next d =>
      refine ⟨_, readDecimal?_append _ hds hne rfl rfl (readExponent?_exponentText _), ?_⟩
      simp [Decimal.value_mk]
    · next d rest hrest =>
      have hd : ∀ c ∈ [d], c.isDigit = true := by simpa using hds d List.mem_cons_self
      have hf : ∀ c ∈ rest, c.isDigit = true := fun c hc => hds c (List.mem_cons_of_mem d hc)
      refine ⟨_, readDecimal?_append [d] hd (List.cons_ne_nil _ _) rfl
        (splitFraction_point rest _ hf rfl) (readExponent?_exponentText _), ?_⟩
      rw [Decimal.value_mk, List.singleton_append, List.length_cons]
      congr 2
      omega
  · split
    · -- zeros behind the point first
      have hf : ∀ c ∈ List.replicate point.natAbs '0' ++ ds, c.isDigit = true := fun c hc =>
        (List.mem_append.1 hc).elim (hzeros _ c) (hds c)
      have hsplit := splitFraction_point _ [] hf rfl
      rw [List.append_nil] at hsplit
      refine ⟨_, readDecimal?_append ['0'] (hzeros 1) (List.cons_ne_nil _ _) rfl hsplit
        rfl, ?_⟩
      have hvalue : digitsValue (['0'] ++ (List.replicate point.natAbs '0' ++ ds)) =
          digitsValue ds := by
        rw [← List.append_assoc]
        exact digitsValue_zeros_append (point.natAbs + 1) ds
      rw [Decimal.value_mk, hvalue, List.length_append, List.length_replicate]
      congr 2
      omega
    · split
      · next hlen =>
        -- zeros before the point, and one behind it
        have hw : ∀ c ∈ ds ++ List.replicate (point.natAbs - ds.length) '0', c.isDigit = true :=
          fun c hc => (List.mem_append.1 hc).elim (hds c) (hzeros _ c)
        refine ⟨_, readDecimal?_append _ hw (by simp [hne]) rfl
          (splitFraction_point ['0'] [] (hzeros 1) rfl) rfl, ?_⟩
        have hvalue : digitsValue (ds ++ List.replicate (point.natAbs - ds.length) '0' ++ ['0']) =
            digitsValue ds * 10 ^ (point.natAbs - ds.length + 1) := by
          rw [List.append_assoc, ← digitsValue_append_zeros, List.replicate_succ']
        have hexp : point - ds.length =
            (point.natAbs - ds.length + 1 : Nat) + (0 - (['0'].length : Int)) := by
          rw [List.length_singleton]
          omega
        rw [Decimal.value_mk, hvalue, hexp, zpow_add₀ (by decide), zpow_natCast, ← mul_assoc,
          Nat.cast_mul, Nat.cast_pow]
        rfl
      · next hlen =>
        -- the point among the digits
        have hw : ∀ c ∈ ds.take point.natAbs, c.isDigit = true := fun c hc =>
          hds c (List.mem_of_mem_take hc)
        have hf : ∀ c ∈ ds.drop point.natAbs, c.isDigit = true := fun c hc =>
          hds c (List.mem_of_mem_drop hc)
        have hsplit := splitFraction_point _ [] hf rfl
        rw [List.append_nil] at hsplit
        refine ⟨_, readDecimal?_append _ hw (by simp [hne]; omega) rfl hsplit rfl, ?_⟩
        rw [Decimal.value_mk, List.take_append_drop, List.length_drop]
        congr 2
        omega

end Layout

/-! ## Texts of magnitudes -/

/-- The characters of the texts of finite scores. -/
def isNotationChar (c : Char) : Bool :=
  c.isDigit || c = '.' || c = 'e' || c = '+' || c = '-'

/-- What the texts of magnitudes have in common: a digit comes first, and they write no integer. -/
structure IsNotation (cs : List Char) : Prop where
  chars : ∀ c ∈ cs, isNotationChar c = true
  digit_first : startsWithDigit cs = true
  not_digits : cs.all Char.isDigit = false

theorem isNotationChar_of_isDigit {c : Char} (h : c.isDigit = true) : isNotationChar c = true := by
  simp [isNotationChar, h]

theorem isNotationChar_of_mem_exponentText {e : Int} {c : Char} (h : c ∈ exponentText e) :
    isNotationChar c = true := by
  have hdigit : c ∈ decimalNat e.natAbs → isNotationChar c = true := fun h =>
    isNotationChar_of_isDigit (isDigit_of_mem_decimalNat h)
  simp only [exponentText, List.mem_cons] at h
  rcases h with rfl | rfl | h
  · decide
  · split <;> decide
  · split at h
    · rcases List.mem_cons.1 h with rfl | h
      · decide
      · exact hdigit h
    · exact hdigit h

/-- Digits with a point or an exponent behind them, whatever follows. -/
theorem isNotation_append (whole : List Char) {tail : List Char} {c : Char}
    (hw : ∀ c ∈ whole, c.isDigit = true) (hne : whole ≠ []) (hc : c.isDigit = false)
    (ht : ∀ d ∈ c :: tail, isNotationChar d = true) : IsNotation (whole ++ c :: tail) := by
  refine ⟨fun d hd => ?_, ?_, by simp [hc]⟩
  · exact (List.mem_append.1 hd).elim (fun h => isNotationChar_of_isDigit (hw d h)) (ht d)
  · obtain ⟨d, rest, rfl⟩ := List.exists_cons_of_ne_nil hne
    exact hw d List.mem_cons_self

/-- Digits that are laid out. -/
theorem isNotation_layout {ds : List Char} (hds : ∀ c ∈ ds, c.isDigit = true) (hne : ds ≠ [])
    (point : Int) : IsNotation (layout ds point) := by
  have hpoint {cs : List Char} (hcs : ∀ c ∈ cs, isNotationChar c = true) :
      ∀ c ∈ '.' :: cs, isNotationChar c = true := List.forall_mem_cons.2 ⟨by decide, hcs⟩
  have hdigits (c : Char) (hc : c ∈ ds) : isNotationChar c = true :=
    isNotationChar_of_isDigit (hds c hc)
  have hzeros (k : Nat) : ∀ c ∈ List.replicate k '0', c.isDigit = true := by
    simp +contextual [List.mem_replicate]
  have hexp : ∀ c ∈ exponentText (point - 1), isNotationChar c = true := fun c =>
    isNotationChar_of_mem_exponentText
  -- the digits stand in front of an exponent, behind zeros, in front of zeros, or around the point
  unfold layout
  split
  · split
    · exact absurd rfl hne
    · exact isNotation_append _ hds hne rfl hexp
    · next d rest _ =>
      have hd : ∀ c ∈ [d], c.isDigit = true := by simpa using hds d List.mem_cons_self
      refine isNotation_append [d] hd (List.cons_ne_nil _ _) rfl (hpoint fun c hc => ?_)
      exact (List.mem_append.1 hc).elim (fun h => hdigits c (List.mem_cons_of_mem d h)) (hexp c)
  · split
    · refine isNotation_append ['0'] (hzeros 1) (List.cons_ne_nil _ _) rfl
        (hpoint fun c hc => ?_)
      exact (List.mem_append.1 hc).elim (fun h => isNotationChar_of_isDigit (hzeros _ c h)) (hdigits c)
    · split
      · refine isNotation_append _ (fun c hc => ?_) (by simp [hne]) rfl (List.all_eq_true.1 rfl)
        exact (List.mem_append.1 hc).elim (hds c) (hzeros _ c)
      · exact isNotation_append _ (fun c hc => hds c (List.mem_of_mem_take hc)) (by simp [hne]; omega)
          rfl (hpoint fun c hc => hdigits c (List.mem_of_mem_drop hc))

namespace Magnitude

/-- A magnitude that is not zero has a digit that is not. -/
theorem dropTrailingZeros_ne_nil {m : Magnitude} (h : m.significand ≠ 0) :
    dropTrailingZeros (decimalNat m.shortest.digits) ≠ [] := by
  intro hnil
  obtain ⟨k, hk⟩ := exists_eq_dropTrailingZeros_append (decimalNat m.shortest.digits)
  have hdigits : m.shortest.digits = 0 := by
    rw [← digitsValue_decimalNat m.shortest.digits, hk, digitsValue_append_zeros, hnil]
    exact Nat.zero_mul _
  -- the decimal would read as zero
  have hzero := Decimal.magnitude?_of_digits hdigits
  rw [m.magnitude?_shortest] at hzero
  exact h (congrArg significand (Option.some.inj hzero))

theorem isDigit_of_mem_dropTrailingZeros {n : Nat} {c : Char}
    (h : c ∈ dropTrailingZeros (decimalNat n)) : c.isDigit = true := by
  obtain ⟨k, hk⟩ := exists_eq_dropTrailingZeros_append (decimalNat n)
  refine isDigit_of_mem_decimalNat (n := n) ?_
  rw [hk]
  exact List.mem_append_left _ h

theorem isNotation_text (m : Magnitude) : IsNotation m.text := by
  rw [text]
  split
  · exact ⟨List.all_eq_true.1 rfl, rfl, rfl⟩
  · next h =>
    exact isNotation_layout (fun c => isDigit_of_mem_dropTrailingZeros) (dropTrailingZeros_ne_nil h) _

/-- The text of a magnitude is read as a decimal that rounds to it. -/
theorem exists_readDecimal?_text (m : Magnitude) :
    ∃ d, readDecimal? m.text = some d ∧ d.magnitude? = some m := by
  rw [text]
  split
  · next h =>
    have hzero : m = zero := eq_of_units_eq (by simp [units, h, zero])
    exact ⟨⟨0, -1⟩, rfl, hzero ▸ Decimal.magnitude?_of_digits rfl⟩
  · next h =>
    obtain ⟨k, hk⟩ := exists_eq_dropTrailingZeros_append (decimalNat m.shortest.digits)
    obtain ⟨d, hd, hv⟩ := exists_readDecimal?_layout (fun c => isDigit_of_mem_dropTrailingZeros)
      (dropTrailingZeros_ne_nil h) ((decimalNat m.shortest.digits).length + m.shortest.exponent)
    refine ⟨d, hd, ?_⟩
    -- the zeros that were dropped are in the exponent
    have hvalue : d.value = m.shortest.value := by
      have hdigits : m.shortest.digits =
          digitsValue (dropTrailingZeros (decimalNat m.shortest.digits)) * 10 ^ k := by
        rw [← digitsValue_append_zeros, ← hk, digitsValue_decimalNat]
      have hlength : (decimalNat m.shortest.digits).length =
          (dropTrailingZeros (decimalNat m.shortest.digits)).length + k := by
        conv_lhs => rw [hk]
        rw [List.length_append, List.length_replicate]
      have hexp : ((decimalNat m.shortest.digits).length : Int) + m.shortest.exponent -
          (dropTrailingZeros (decimalNat m.shortest.digits)).length = k + m.shortest.exponent := by
        omega
      rw [hv, hexp, zpow_add₀ (by decide), zpow_natCast, ← mul_assoc, Decimal.value]
      conv_rhs => rw [hdigits]
      push_cast
      rfl
    rw [Decimal.magnitude?_congr hvalue, magnitude?_shortest]

end Magnitude

/-! ## Texts of scores -/

section Signed

variable {cs : List Char}

theorem IsNotation.chars_signed (h : IsNotation cs) (negative : Bool) :
    ∀ c ∈ (if negative then ['-'] else []) ++ cs, isNotationChar c = true := by
  cases negative
  · exact h.chars
  · exact List.forall_mem_cons.2 ⟨by decide, h.chars⟩

theorem IsNotation.splitSign (h : IsNotation cs) (negative : Bool) :
    splitSign ((if negative then ['-'] else []) ++ cs) = (negative, cs) := by
  cases negative
  · have hd := h.digit_first
    cases cs with
    | nil => cases hd
    | cons c cs =>
      unfold SortedSets.splitSign
      split
      · next he => cases he; cases hd
      · next he => cases he; cases hd
      · rfl
  · rfl

/-- Neither blanks nor underscores stand in the notation of a number. -/
theorem trimBlanks_of_notationChars (h : ∀ c ∈ cs, isNotationChar c = true) : trimBlanks cs = cs := by
  refine trimBlanks_eq_self fun c hc => ?_
  have hc := h c hc
  simp only [isNotationChar, Bool.or_eq_true, decide_eq_true_eq] at hc
  rcases hc with (((hd | rfl) | rfl) | rfl) | rfl
  · exact isBlankChar_of_isDigit hd
  all_goals decide

theorem dropUnderscores?_of_notationChars (h : ∀ c ∈ cs, isNotationChar c = true) (afterDigit : Bool) :
    dropUnderscores? afterDigit cs = some cs :=
  dropUnderscores?_of_notMem (fun hm => absurd (h '_' hm) (by decide)) afterDigit

theorem toNat_lt_of_isNotationChar {c : Char} (h : isNotationChar c = true) : c.toNat < 0x80 := by
  simp only [isNotationChar, Bool.or_eq_true, decide_eq_true_eq] at h
  rcases h with (((hd | rfl) | rfl) | rfl) | rfl
  · exact toNat_lt_of_isDigit hd
  all_goals decide

end Signed

theorem toLower_of_isDigit {c : Char} (h : c.isDigit = true) : c.toLower = c := by
  have hd := (Char.isDigit_iff_toNat.1 h).2
  have hupper : ¬ (c.val ≥ 'A'.val ∧ c.val ≤ 'Z'.val) := fun hu => by
    have hle := UInt32.le_iff_toNat_le.1 hu.1
    have hc : c.val.toNat = c.toNat := rfl
    simp at hle hd
    omega
  exact dif_neg hupper

/-- A name begins with a letter. -/
theorem IsNotation.ne_name {cs name : List Char} (h : IsNotation cs)
    (hl : startsWithDigit name = false) : cs.map Char.toLower ≠ name := by
  rintro rfl
  have hd := h.digit_first
  cases cs with
  | nil => cases hd
  | cons c cs =>
    have hc : c.toLower.isDigit = false := hl
    rw [toLower_of_isDigit hd] at hc
    cases hc.symm.trans hd

/-- The text of a finite score reads back. -/
theorem readScore?_text (negative : Bool) (m : Magnitude) :
    readScore? (Binary64.finite negative m).text = some (.finite negative m) := by
  have hn := m.isNotation_text
  have hchars := hn.chars_signed negative
  obtain ⟨d, hd, hm⟩ := m.exists_readDecimal?_text
  have hscore : d.score negative = .finite negative m := by
    rw [Decimal.score_eq, hm]
    rfl
  rw [readScore?, Binary64.text, trimBlanks_of_notationChars hchars,
    dropUnderscores?_of_notationChars hchars]
  simp only [Option.bind_eq_bind, Option.bind_some, hn.splitSign, hd]
  rw [if_neg (not_or_intro (hn.ne_name rfl) (hn.ne_name rfl)), if_neg (hn.ne_name rfl), hscore]
  rfl

/-- The text of a finite score is not that of an integer. -/
theorem readInt?_text (negative : Bool) (m : Magnitude) :
    readInt? (Binary64.finite negative m).text = none := by
  have hn := m.isNotation_text
  have hnone : readDigits? m.text = none := by simp [readDigits?, hn.not_digits]
  rw [readInt?, Binary64.text, trimBlanks_of_notationChars (hn.chars_signed negative), hn.splitSign]
  simp [dropUnderscores?_of_notationChars hn.chars, hnone]

/-! ## Bytes of numbers -/

/-- The numbers that may be scores. -/
inductive Value.IsScore : Value → Prop where
  | int (n : Int) : IsScore (.int n)
  | float {x : Binary64} (h : x ≠ .nan) : IsScore (.float x)

theorem readNumber_scoreText {x : Binary64} {cs : List Char} (h : scoreText x = .ok cs) :
    readNumber (some cs) = .ok (.float x) := by
  cases x with
  | nan => cases h
  | infinity negative =>
    cases h
    cases negative <;> rfl
  | finite negative m =>
    cases h
    simp [readNumber, readInt?_text, readScore?_text]

/-- The first character is a digit or a sign. -/
def startsNumber : List Char → Bool
  | [] => false
  | c :: _ => c.isDigit || c = '+' || c = '-'

theorem startsNumber_of_startsWithDigit {cs : List Char} (h : startsWithDigit cs = true) :
    startsNumber cs = true := by
  cases cs with
  | nil => cases h
  | cons c cs =>
    have hc : c.isDigit = true := h
    simp [startsNumber, hc]

theorem chars_of_scoreText {x : Binary64} {cs : List Char} (h : scoreText x = .ok cs) :
    (∀ c ∈ cs, c.toNat < 0x80) ∧ startsNumber cs = true := by
  cases x with
  | nan => cases h
  | infinity negative =>
    cases h
    cases negative <;> simp [startsNumber]
  | finite negative m =>
    cases h
    have hn := m.isNotation_text
    refine ⟨fun c hc => toNat_lt_of_isNotationChar (hn.chars_signed negative c hc), ?_⟩
    cases negative with
    | true => rfl
    | false => exact startsNumber_of_startsWithDigit hn.digit_first

theorem chars_decimalInt (n : Int) :
    (∀ c ∈ decimalInt n, c.toNat < 0x80) ∧ startsNumber (decimalInt n) = true := by
  refine ⟨fun c hc => ?_, ?_⟩
  · rcases mem_decimalInt hc with rfl | h
    · decide
    · exact toNat_lt_of_isDigit h
  · obtain ⟨c, cs, hcs⟩ := List.exists_cons_of_ne_nil (decimalNat_ne_nil n.natAbs)
    have hc : c.isDigit = true := isDigit_of_mem_decimalNat (hcs ▸ List.mem_cons_self)
    unfold decimalInt
    split
    · rfl
    · rw [hcs]
      exact startsNumber_of_startsWithDigit hc

/-- The bytes of a number are those of an ASCII text that begins with a digit or a sign and is read
as the number. -/
theorem exists_chars_of_formatScore {v : Value} (h : v.IsScore) :
    ∃ cs, formatScore v = .ok (Bytes.ofChars cs) ∧ (∀ c ∈ cs, c.toNat < 0x80) ∧
      startsNumber cs = true ∧ readNumber (some cs) = .ok v := by
  cases h with
  | int n =>
    obtain ⟨hascii, hstart⟩ := chars_decimalInt n
    refine ⟨decimalInt n, rfl, hascii, hstart, ?_⟩
    simp [readNumber, readInt?_decimalInt]
  | @float x hx =>
    obtain ⟨cs, hcs⟩ : ∃ cs, scoreText x = .ok cs := by
      cases x with
      | nan => exact absurd rfl hx
      | infinity negative => exact ⟨_, rfl⟩
      | finite negative m => exact ⟨_, rfl⟩
    obtain ⟨hascii, hstart⟩ := chars_of_scoreText hcs
    exact ⟨cs, by rw [formatScore, hcs]; rfl, hascii, hstart, readNumber_scoreText hcs⟩

end SortedSets

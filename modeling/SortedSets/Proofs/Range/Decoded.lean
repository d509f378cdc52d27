import SortedSets.Proofs.Range.Ends

/-!
# Ends read from tokens

Many more tokens are read as score ends than are written for them: blanks around the number,
underscores between its digits, numbers past the largest one, the names of the infinities in any
case. All of them are ends that the checked constructors make, but for the spellings of the value
that is not a number: they are read as well, and the end that they are read as can be neither made
nor written.

## Main definitions

* `SpellsNaN`: the spellings of the value that is not a number
* `Boundary.unmarked`: a token without the bracket of an exclusive end
* `Boundary.SpellsNaN`: the tokens that hold such a spelling

## Main results

* `readScore?_eq_nan_iff`: what is read as no number
* `Boundary.of_decodeScore`: an end that is read is missing, a score or no number
* `Boundary.decoded_end_reads_back`: what is read can be written and read again, unless it is no
  number
-/

namespace SortedSets

/-! ## Blanks around a numeral -/

section Blanks

variable {before core after cs : List Char}

theorem trimBlanks_append (hb : ∀ c ∈ before, isBlankChar c = true)
    (hc : ∀ c ∈ core, isBlankChar c = false) (ha : ∀ c ∈ after, isBlankChar c = true) :
    trimBlanks (before ++ core ++ after) = core := by
  rw [trimBlanks, List.append_assoc, List.dropWhile_append_of_pos hb]
  cases core with
  | nil => simp [List.dropWhile_eq_nil_iff.2 ha]
  | cons c core =>
    have hfirst : (c :: core ++ after).dropWhile isBlankChar = c :: core ++ after :=
      List.dropWhile_cons_of_neg (by simp [hc c List.mem_cons_self])
    rw [hfirst, List.reverse_append, List.dropWhile_append_of_pos fun d hd => ha d (List.mem_reverse.1 hd),
      dropWhile_eq_self fun d hd => hc d (List.mem_reverse.1 hd), List.reverse_reverse]

theorem exists_eq_append_trimBlanks (cs : List Char) :
    ∃ before after, cs = before ++ trimBlanks cs ++ after ∧
      (∀ c ∈ before, isBlankChar c = true) ∧ ∀ c ∈ after, isBlankChar c = true := by
  have hsplit := congrArg List.reverse (List.takeWhile_append_dropWhile (p := isBlankChar)
    (l := (cs.dropWhile isBlankChar).reverse))
  rw [List.reverse_append, List.reverse_reverse] at hsplit
  refine ⟨cs.takeWhile isBlankChar, ((cs.dropWhile isBlankChar).reverse.takeWhile isBlankChar).reverse,
    ?_, fun c => List.mem_takeWhile_imp, fun c hc => List.mem_takeWhile_imp (List.mem_reverse.1 hc)⟩
  rw [List.append_assoc, trimBlanks, hsplit, List.takeWhile_append_dropWhile]

end Blanks

/-! ## Not a number -/

/-- The spellings of the value that is not a number: its name in any case, perhaps behind a sign,
and between blanks. -/
def SpellsNaN (cs : List Char) : Prop :=
  ∃ before sign name after, cs = before ++ (sign ++ name) ++ after ∧
    (∀ c ∈ before, isBlankChar c = true) ∧ (∀ c ∈ after, isBlankChar c = true) ∧
    (sign = [] ∨ sign = ['+'] ∨ sign = ['-']) ∧ name.map Char.toLower = ['n', 'a', 'n']

section NaN

variable {c : Char} {cs ds sign name : List Char}

theorem eq_or_of_toLower_eq {l : Char} (h : c.toLower = l) : c = l ∨ c.val + 32 = l.val := by
  unfold Char.toLower at h
  split at h
  · exact .inr (congrArg Char.val h)
  · exact .inl h

/-- The letters of the name. -/
theorem letter_of_mem_name (hn : name.map Char.toLower = ['n', 'a', 'n']) (hc : c ∈ name) :
    c ∈ ['n', 'N', 'a', 'A'] := by
  have hupper {u l : Char} (hl : l.val = u.val + 32) (h : c.val + 32 = l.val) : c = u :=
    Char.ext (UInt32.add_left_inj 32 |>.1 (h.trans hl))
  have hlower : c.toLower ∈ ['n', 'a', 'n'] := hn ▸ List.mem_map_of_mem hc
  simp only [List.mem_cons, List.not_mem_nil, or_false] at hlower ⊢
  rcases hlower with h | h | h
  · rcases eq_or_of_toLower_eq h with h | h
    · exact .inl h
    · exact .inr (.inl (hupper (by decide) h))
  · rcases eq_or_of_toLower_eq h with h | h
    · exact .inr (.inr (.inl h))
    · exact .inr (.inr (.inr (hupper (by decide) h)))
  · rcases eq_or_of_toLower_eq h with h | h
    · exact .inl h
    · exact .inr (.inl (hupper (by decide) h))

/-- The sign and the name are ASCII, and neither has a blank, a digit or an underscore in it. -/
theorem signed_name (hs : sign = [] ∨ sign = ['+'] ∨ sign = ['-'])
    (hn : name.map Char.toLower = ['n', 'a', 'n']) (hc : c ∈ sign ++ name) :
    c.toNat < 0x80 ∧ isBlankChar c = false ∧ c.isDigit = false ∧ c ≠ '_' := by
  have hmem : c ∈ ['+', '-', 'n', 'N', 'a', 'A'] := by
    rcases List.mem_append.1 hc with hc | hc
    · rcases hs with rfl | rfl | rfl
      · cases hc
      · exact List.mem_of_mem_take (i := 1) hc
      · obtain rfl := List.mem_singleton.1 hc
        decide
    · exact List.mem_of_mem_drop (i := 2) (letter_of_mem_name hn hc)
  have hall : ['+', '-', 'n', 'N', 'a', 'A'].all (fun c =>
      c.toNat < 0x80 ∧ isBlankChar c = false ∧ c.isDigit = false ∧ c ≠ '_') = true := by decide
  exact of_decide_eq_true (List.all_eq_true.1 hall c hmem)

/-- What is left of a spelling without its blanks. -/
theorem spellsNaN_iff : SpellsNaN cs ↔ ∃ sign name, trimBlanks cs = sign ++ name ∧
    (sign = [] ∨ sign = ['+'] ∨ sign = ['-']) ∧ name.map Char.toLower = ['n', 'a', 'n'] := by
  constructor
  · rintro ⟨before, sign, name, after, rfl, hb, ha, hs, hn⟩
    exact ⟨sign, name, trimBlanks_append hb (fun c hc => (signed_name hs hn hc).2.1) ha, hs, hn⟩
  · rintro ⟨sign, name, htrim, hs, hn⟩
    obtain ⟨before, after, hcs, hb, ha⟩ := exists_eq_append_trimBlanks cs
    exact ⟨before, sign, name, after, htrim ▸ hcs, hb, ha, hs, hn⟩

/-- A spelling is ASCII, blanks and all. -/
theorem SpellsNaN.ascii (h : SpellsNaN cs) : ∀ c ∈ cs, c.toNat < 0x80 := by
  obtain ⟨before, sign, name, after, rfl, hb, ha, hs, hn⟩ := h
  have hblank {c : Char} (h : isBlankChar c = true) : c.toNat < 0x80 := by
    simp only [isBlankChar, decide_eq_true_eq] at h
    rcases h with rfl | h
    · decide
    · exact Nat.lt_of_le_of_lt (UInt32.le_iff_toNat_le.1 (Char.le_def.1 h.2)) (by decide)
  intro c hc
  rcases List.mem_append.1 hc with hc | hc
  · rcases List.mem_append.1 hc with hc | hc
    · exact hblank (hb c hc)
    · exact (signed_name hs hn hc).1
  · exact hblank (ha c hc)

/-- Where no digit is, no underscore is allowed. -/
theorem eq_of_dropUnderscores? (h : dropUnderscores? false cs = some ds)
    (hd : ∀ c ∈ ds, c.isDigit = false) : cs = ds := by
  induction cs generalizing ds with
  | nil => exact Option.some.inj h
  | cons c cs ih =>
    rw [dropUnderscores?] at h
    split at h
    · cases h
    · obtain ⟨rest, hrest, rfl⟩ := Option.map_eq_some_iff.1 h
      rw [hd c List.mem_cons_self] at hrest
      rw [ih hrest fun d hm => hd d (List.mem_cons_of_mem c hm)]

theorem splitSign_append (hs : sign = [] ∨ sign = ['+'] ∨ sign = ['-'])
    (hn : name.map Char.toLower = ['n', 'a', 'n']) : (splitSign (sign ++ name)).2 = name := by
  rcases hs with rfl | rfl | rfl
  · rw [List.nil_append]
    unfold splitSign
    split
    · exact absurd (letter_of_mem_name hn List.mem_cons_self) (by decide)
    · exact absurd (letter_of_mem_name hn List.mem_cons_self) (by decide)
    · rfl
  · rfl
  · rfl

/-- A sign and the rest of a numeral make up the numeral. -/
theorem exists_sign (cs : List Char) :
    ∃ sign, cs = sign ++ (splitSign cs).2 ∧ (sign = [] ∨ sign = ['+'] ∨ sign = ['-']) := by
  unfold splitSign
  split
  · exact ⟨['-'], rfl, .inr (.inr rfl)⟩
  · exact ⟨['+'], rfl, .inr (.inl rfl)⟩
  · exact ⟨[], rfl, .inl rfl⟩

theorem Decimal.score_ne_nan (negative : Bool) (d : Decimal) :
    d.score negative ≠ .nan := by
  rw [Decimal.score_eq]
  cases d.magnitude? <;> exact Binary64.noConfusion

/-- What is left of a spelling is read without its sign as the name. -/
theorem dropUnderscores?_signed (hs : sign = [] ∨ sign = ['+'] ∨ sign = ['-'])
    (hn : name.map Char.toLower = ['n', 'a', 'n']) (afterDigit : Bool) :
    dropUnderscores? afterDigit (sign ++ name) = some (sign ++ name) :=
  dropUnderscores?_of_notMem (fun hm => (signed_name hs hn hm).2.2.2 rfl) afterDigit

/-- The value that is not a number is read from its spellings, and from nothing else: no decimal is
rounded to it. -/
theorem readScore?_eq_nan_iff : readScore? cs = some .nan ↔ SpellsNaN cs := by
  rw [spellsNaN_iff]
  constructor
  · intro h
    obtain ⟨ds, hds, h⟩ := Option.bind_eq_some_iff.1 h
    -- a decimal is never rounded to it, so that it was read from its name
    have hname : (splitSign ds).2.map Char.toLower = ['n', 'a', 'n'] := by
      dsimp only at h
      split at h
      · cases h
      · split at h
        · assumption
        · obtain ⟨d, -, hd⟩ := Option.bind_eq_some_iff.1 h
          exact absurd (Option.some.inj hd) (Decimal.score_ne_nan _ d)
    obtain ⟨sign, hsplit, hs⟩ := exists_sign ds
    have hdigits (c : Char) (hc : c ∈ ds) : c.isDigit = false :=
      (signed_name hs hname (hsplit ▸ hc)).2.2.1
    exact ⟨sign, _, (eq_of_dropUnderscores? hds hdigits).trans hsplit, hs, hname⟩
  · rintro ⟨sign, name, htrim, hs, hn⟩
    rw [readScore?, htrim, dropUnderscores?_signed hs hn]
    simp only [Option.bind_eq_bind, Option.bind_some, splitSign_append hs hn, hn]
    rfl

/-- A spelling is no integer. -/
theorem readInt?_of_spellsNaN (h : SpellsNaN cs) : readInt? cs = none := by
  obtain ⟨sign, name, htrim, hs, hn⟩ := spellsNaN_iff.1 h
  have hunsigned : ([] : List Char) = [] ∨ [] = ['+'] ∨ [] = ['-'] := .inl rfl
  have hdigits : readDigits? name = none := by
    refine if_neg fun h => ?_
    obtain ⟨c, rest, rfl⟩ := List.exists_cons_of_ne_nil h.1
    have hc := List.all_eq_true.1 h.2 c List.mem_cons_self
    rw [(signed_name hunsigned hn List.mem_cons_self).2.2.1] at hc
    cases hc
  have hname : dropUnderscores? false name = some name :=
    dropUnderscores?_signed hunsigned hn false
  rw [readInt?, htrim]
  simp only [splitSign_append hs hn, hname, Option.bind_eq_bind, Option.bind_some, hdigits,
    Option.bind_none]

theorem readNumber_eq_nan_iff {numeral : Option (List Char)} :
    readNumber numeral = .ok (.float .nan) ↔ ∃ cs, numeral = some cs ∧ SpellsNaN cs := by
  constructor
  · intro h
    unfold readNumber at h
    split at h
    · cases h
    · split at h
      · next x hx =>
        cases h
        obtain ⟨cs, rfl, hcs⟩ := Option.bind_eq_some_iff.1 hx
        exact ⟨cs, rfl, readScore?_eq_nan_iff.1 hcs⟩
      · cases h
  · rintro ⟨cs, rfl, hcs⟩
    simp only [readNumber, Option.bind_some, readInt?_of_spellsNaN hcs, readScore?_eq_nan_iff.2 hcs]

end NaN

theorem isScore_or_nan_of_readNumber {numeral : Option (List Char)} {v : Value}
    (h : readNumber numeral = .ok v) : v.IsScore ∨ v = .float .nan := by
  unfold readNumber at h
  split at h
  · cases h
    exact .inl (.int _)
  · split at h
    · next x _ =>
      cases h
      by_cases hx : x = .nan
      · exact .inr (congrArg Value.float hx)
      · exact .inl (.float hx)
    · cases h

/-- The bytes that may be a number are those of ASCII characters. -/
theorem Bytes.eq_ofChars_of_numeral? {bs : Bytes} {cs : List Char} (h : bs.numeral? = some cs) :
    bs = ofChars cs := by
  induction bs generalizing cs with
  | nil =>
    cases h
    rfl
  | cons b bs ih =>
    rw [numeral?, List.mapM_cons] at h
    obtain ⟨c, hc, h⟩ := Option.bind_eq_some_iff.1 h
    obtain ⟨ds, hds, h⟩ := Option.bind_eq_some_iff.1 h
    cases h
    split at hc
    · cases hc
      -- an ASCII byte is the code of its own character
      have hchar : (charOf b).toNat.toUInt8 = b := by
        have hvalid : b.toNat.isValidChar := .inl (Nat.lt_trans b.toNat_lt (by decide))
        rw [charOf, Char.ofNat, dif_pos hvalid]
        exact UInt8.ofNat_toNat
      rw [ih hds]
      exact congrArg (· :: ofChars ds) hchar.symm
    · cases hc

/-! ## Ends that are read -/

namespace Boundary

/-- The number of a token, without the bracket of an exclusive end. -/
def unmarked : Bytes → Bytes
  | 40 :: rest => rest
  | token => token

/-- The tokens that hold the value that is not a number. -/
def SpellsNaN (token : Bytes) : Prop :=
  ∃ cs, unmarked token = Bytes.ofChars cs ∧ SortedSets.SpellsNaN cs

variable {token : Bytes} {below : Bool} {b : Boundary}

theorem ofToken_eq (token : Bytes) : ∃ included : Bool, ofToken token =
    (readNumber (unmarked token).numeral?).map fun v => ⟨v, .bool included⟩ := by
  unfold ofToken
  split
  · exact ⟨false, rfl⟩
  · next hmark =>
    have hplain : unmarked token = token := by
      unfold unmarked
      split
      · next rest => exact (hmark rest rfl).elim
      · rfl
    exact ⟨true, by rw [hplain]⟩

/-- An end that is read is missing, a score or no number, and it is no number if the token spells
one. -/
theorem of_decodeScore (h : decodeScore (.bytes token) (.bytes (openToken below)) = .ok b) :
    b = Boundary.unbounded ∧ ¬ SpellsNaN token ∨
      ∃ v, ∃ included : Bool, b = ⟨v, .bool included⟩ ∧
        (v.IsScore ∧ ¬ SpellsNaN token ∨ v = .float .nan ∧ SpellsNaN token) := by
  -- the value that is read tells whether the token spells no number
  have hspells (v : Value) (hv : readNumber (unmarked token).numeral? = .ok v) :
      v = .float .nan ↔ SpellsNaN token := by
    constructor
    · rintro rfl
      obtain ⟨cs, hcs, hnan⟩ := readNumber_eq_nan_iff.1 hv
      exact ⟨cs, Bytes.eq_ofChars_of_numeral? hcs, hnan⟩
    · rintro ⟨cs, hcs, hnan⟩
      have hnumeral : (unmarked token).numeral? = some cs := by
        rw [hcs]
        exact Bytes.numeral?_ofChars hnan.ascii
      exact Except.ok.inj (hv.symm.trans (readNumber_eq_nan_iff.2 ⟨cs, hnumeral, hnan⟩))
  rw [decodeScore_bytes] at h
  split at h
  · next htoken =>
    cases h
    have hplain : unmarked token = token := by
      subst htoken
      cases below <;> rfl
    refine .inl ⟨rfl, fun hnan => ?_⟩
    cases (hspells _ (by rw [hplain, htoken]; exact readNumber_openToken below)).2 hnan
  · obtain ⟨included, hread⟩ := ofToken_eq token
    obtain ⟨v, hv, rfl⟩ := Except.map_eq_ok_iff.1 (hread.symm.trans h)
    refine .inr ⟨v, included, rfl, ?_⟩
    rcases isScore_or_nan_of_readNumber hv with hscore | rfl
    · refine .inl ⟨hscore, fun hnan => ?_⟩
      obtain rfl := (hspells v hv).2 hnan
      cases hscore with
      | float hx => exact hx rfl
    · exact .inr ⟨rfl, (hspells _ hv).1 rfl⟩

/-- A score end that is read from a token is one that the checked constructors make: it is written
again, and read back as it was, but for the inclusive infinity that stands for the missing end. Only
the spellings of the value that is not a number are read as an end that can be neither made nor
written. -/
theorem decoded_end_reads_back
    (h : decodeScore (.bytes token) (.bytes (openToken below)) = .ok b) :
    (¬ SpellsNaN token → b.Made Value.IsScore ∧
      ∃ again, b.encodeScore (.bytes (openToken below)) = .ok (.bytes again) ∧
        decodeScore (.bytes again) (.bytes (openToken below)) = .ok (b.asRead below)) ∧
    (SpellsNaN token → b.value = .float .nan ∧
      b.encodeScore (.bytes (openToken below)) = .error (.invalid .scoreNaN) ∧
      inclusive b.value = .error (.invalid .boundaryNaN) ∧
      exclusive b.value = .error (.invalid .boundaryNaN)) := by
  rcases of_decodeScore h with ⟨rfl, hnot⟩ | ⟨v, included, rfl, ⟨hscore, hnot⟩ | ⟨rfl, hnan⟩⟩
  · have hmade : Boundary.unbounded.Made Value.IsScore := .unbounded
    obtain ⟨again, hwritten, hread, -⟩ := score_end_reads_back hmade below
    exact ⟨fun _ => ⟨hmade, again, hwritten, hread⟩, fun hnan => absurd hnan hnot⟩
  · have hmade : (Boundary.mk v (.bool included)).Made Value.IsScore := by
      cases included with
      | true => exact .inclusive hscore (by rw [inclusive, checkValue_of_isScore hscore]; rfl)
      | false => exact .exclusive hscore (by rw [exclusive, checkValue_of_isScore hscore]; rfl)
    obtain ⟨again, hwritten, hread, -⟩ := score_end_reads_back hmade below
    exact ⟨fun _ => ⟨hmade, again, hwritten, hread⟩, fun hnan => absurd hnan hnot⟩
  · exact ⟨fun hnot => absurd hnan hnot, fun _ => ⟨rfl, rfl, rfl, rfl⟩⟩

/-- An exclusive end past the largest score, with an underscore between its digits and blanks around
it: it is read as the infinity above, excluded. -/
theorem decoded_end_reads_back_overflow :
    let token := Bytes.ascii "( 1_0e9999\n"
    let b : Boundary := ⟨.float (.infinity false), .bool false⟩
    decodeScore (.bytes token) (.bytes (openToken false)) = .ok b ∧ ¬ SpellsNaN token ∧
      b.Made Value.IsScore ∧
      ∃ again, b.encodeScore (.bytes (openToken false)) = .ok (.bytes again) ∧
        decodeScore (.bytes again) (.bytes (openToken false)) = .ok b := by
  intro token b
  have hread : decodeScore (.bytes token) (.bytes (openToken false)) = .ok b := rfl
  have hnot : ¬ SpellsNaN token := fun hnan => by
    have hvalue : Value.float (.infinity false) = .float .nan :=
      ((decoded_end_reads_back hread).2 hnan).1
    cases hvalue
  obtain ⟨hmade, again, hwritten, hagain⟩ := (decoded_end_reads_back hread).1 hnot
  exact ⟨hread, hnot, hmade, again, hwritten, hagain⟩

/-- The name of the value that is not a number is read as an end that is not written again. -/
theorem not_decoded_ends_valid :
    ¬ ∀ (token : Bytes) (below : Bool) (b : Boundary),
      decodeScore (.bytes token) (.bytes (openToken below)) = .ok b →
        ∃ again, b.encodeScore (.bytes (openToken below)) = .ok (.bytes again) ∧
          decodeScore (.bytes again) (.bytes (openToken below)) = .ok (b.asRead below) := by
  intro h
  obtain ⟨again, hwritten, -⟩ := h (Bytes.ascii "nan") true ⟨.float .nan, .bool true⟩ rfl
  cases hwritten

end Boundary

end SortedSets

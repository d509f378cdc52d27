import SortedSets.Text.Blank
import SortedSets.Text.Digit
import SortedSets.Number.Shortest

/-!
# Reading numbers

Integers and scores are read from texts and from bytes. Blanks around a number are skipped, a
sign may precede it, leading zeros are allowed, and a single underscore may stand between two
digits. A text may use the decimal digits of any script.

A numeral may have any number of digits: as in `Number.Decimal`, no limit is assumed to be set on the
integers that are read from text.

## Main definitions

* `readInt?`, `readScore?`: a number from ASCII characters
* `Text.numeral?`, `Bytes.numeral?`: the ASCII characters of a text or of bytes that may be a number

## Main results

* `readInt?_decimalInt`: an integer reads back from its decimal text
-/

namespace SortedSets

/-- A numeral without the blanks around it. -/
def trimBlanks (cs : List Char) : List Char :=
  ((cs.dropWhile isBlankChar).reverse.dropWhile isBlankChar).reverse

/-- The sign in front of a numeral, and the rest. -/
def splitSign : List Char → Bool × List Char
  | '-' :: cs => (true, cs)
  | '+' :: cs => (false, cs)
  | cs => (false, cs)

/-- The value of a list of digits. -/
def digitsValue (ds : List Char) : Nat :=
  Nat.ofDigitChars 10 ds 0

@[simp] theorem digitsValue_decimalNat (n : Nat) : digitsValue (decimalNat n) = n :=
  Nat.ofDigitChars_toDigits (by decide) (by decide)

/-- The first character is a digit. -/
def startsWithDigit : List Char → Bool
  | [] => false
  | c :: _ => c.isDigit

/-- A numeral without its underscores, each of which stands between two digits. `afterDigit` says
whether a digit was read just before. -/
def dropUnderscores? : (afterDigit : Bool) → List Char → Option (List Char)
  | _, [] => some []
  | afterDigit, c :: cs =>
    if c = '_' then
      if afterDigit && startsWithDigit cs then dropUnderscores? false cs else none
    else (dropUnderscores? c.isDigit cs).map (c :: ·)

/-- An integer without blanks, sign and underscores. -/
def readDigits? (cs : List Char) : Option Nat :=
  if cs ≠ [] ∧ cs.all Char.isDigit then some (digitsValue cs) else none

/-- An integer in decimal notation, of any number of digits. -/
def readInt? (cs : List Char) : Option Int := do
  let (negative, ds) := splitSign (trimBlanks cs)
  let n ← readDigits? (← dropUnderscores? false ds)
  return if negative then -(n : Int) else n

theorem readDigits?_decimalNat (n : Nat) : readDigits? (decimalNat n) = some n := by
  have h : (decimalNat n).all Char.isDigit = true :=
    List.all_eq_true.2 fun _ => isDigit_of_mem_decimalNat
  simp [readDigits?, decimalNat_ne_nil, h]

theorem dropUnderscores?_of_notMem {cs : List Char} (h : '_' ∉ cs) (afterDigit : Bool) :
    dropUnderscores? afterDigit cs = some cs := by
  induction cs generalizing afterDigit with
  | nil => rfl
  | cons c cs ih =>
    have hc : c ≠ '_' := fun e => h (e ▸ List.mem_cons_self)
    simp [dropUnderscores?, hc, ih fun hm => h (List.mem_cons_of_mem c hm)]

theorem dropWhile_eq_self {α : Type} {p : α → Bool} {xs : List α} (h : ∀ x ∈ xs, p x = false) :
    xs.dropWhile p = xs := by
  cases xs with
  | nil => rfl
  | cons x xs => simp [h x]

theorem trimBlanks_eq_self {cs : List Char} (h : ∀ c ∈ cs, isBlankChar c = false) :
    trimBlanks cs = cs := by
  rw [trimBlanks, dropWhile_eq_self h, dropWhile_eq_self fun c hc => h c (List.mem_reverse.1 hc),
    List.reverse_reverse]

theorem isBlankChar_of_isDigit {c : Char} (h : c.isDigit = true) : isBlankChar c = false := by
  have h := Char.isDigit_iff_toNat.1 h
  have key : ¬(c = ' ' ∨ ('\t' ≤ c ∧ c ≤ '\r')) := by
    rintro (rfl | ⟨_, h2⟩)
    · exact absurd h.1 (by decide)
    · exact absurd (Nat.le_trans h.1 (UInt32.le_iff_toNat_le.1 (Char.le_def.1 h2))) (by decide)
  simpa [isBlankChar] using key

/-- The characters of a decimal text are digits, but for the sign. -/
theorem mem_decimalInt {n : Int} {c : Char} (h : c ∈ decimalInt n) :
    c = '-' ∨ c.isDigit = true := by
  unfold decimalInt at h
  split at h
  · rcases List.mem_cons.1 h with h | h
    · exact .inl h
    · exact .inr (isDigit_of_mem_decimalNat h)
  · exact .inr (isDigit_of_mem_decimalNat h)

theorem splitSign_of_isDigit {cs : List Char} (h : ∀ c ∈ cs, c.isDigit = true) :
    splitSign cs = (false, cs) := by
  unfold splitSign
  split
  · exact absurd (h '-' List.mem_cons_self) (by decide)
  · exact absurd (h '+' List.mem_cons_self) (by decide)
  · rfl

/-- An integer reads back from its decimal text. -/
theorem readInt?_decimalInt (n : Int) : readInt? (decimalInt n) = some n := by
  have hb : ∀ c ∈ decimalInt n, isBlankChar c = false := fun c hc => by
    rcases mem_decimalInt hc with rfl | h
    · decide
    · exact isBlankChar_of_isDigit h
  have hu : '_' ∉ decimalNat n.natAbs := fun h => absurd (isDigit_of_mem_decimalNat h) (by decide)
  rw [readInt?, trimBlanks_eq_self hb, decimalInt]
  by_cases h : n < 0
  · simp only [if_pos h, splitSign, dropUnderscores?_of_notMem hu, readDigits?_decimalNat,
      Option.bind_eq_bind, Option.bind_some]
    exact congrArg some (show -(n.natAbs : Int) = n by omega)
  · simp only [if_neg h, splitSign_of_isDigit fun _ => isDigit_of_mem_decimalNat,
      dropUnderscores?_of_notMem hu, readDigits?_decimalNat, Option.bind_eq_bind, Option.bind_some]
    exact congrArg some (show (n.natAbs : Int) = n by omega)

/-- The exponent of a numeral, zero if none is written. -/
def readExponent? : List Char → Option Int
  | [] => some 0
  | c :: cs =>
    if c = 'e' ∨ c = 'E' then do
      let (negative, ds) := splitSign cs
      let n ← readDigits? ds
      return if negative then -(n : Int) else n
    else none

/-- The fraction of a numeral behind its point, and the rest. -/
def splitFraction : List Char → List Char × List Char
  | '.' :: cs => (cs.takeWhile Char.isDigit, cs.dropWhile Char.isDigit)
  | cs => ([], cs)

/-- A decimal: digits, perhaps a point among them, and perhaps an exponent. -/
def readDecimal? (cs : List Char) : Option Decimal := do
  let whole := cs.takeWhile Char.isDigit
  let (fraction, rest) := splitFraction (cs.dropWhile Char.isDigit)
  if whole = [] ∧ fraction = [] then none
  else
    let e ← readExponent? rest
    return ⟨digitsValue (whole ++ fraction), e - fraction.length⟩

/-- The power of ten next above a decimal that is not zero. -/
def Decimal.top (d : Decimal) : Int :=
  (decimalNat d.digits).length + d.exponent

/-- The score of a decimal. One with a large exponent is not computed if that alone puts it past
the largest score or next to zero. -/
def Decimal.score (negative : Bool) (d : Decimal) : Binary64 :=
  if d.digits = 0 then .finite negative Magnitude.zero
  -- a large exponent may still make an ordinary score, if there are as many digits
  else if d.exponent.natAbs ≤ 5000 ∨ d.top.natAbs ≤ 400 then .ofRounded negative d.magnitude?
  else if 0 < d.top then .infinity negative
  else .finite negative Magnitude.zero

/-- A score in decimal notation, or the name of a value that is not finite. -/
def readScore? (cs : List Char) : Option Binary64 := do
  let (negative, body) := splitSign (← dropUnderscores? false (trimBlanks cs))
  let name := body.map Char.toLower
  if name = ['i', 'n', 'f'] ∨ name = ['i', 'n', 'f', 'i', 'n', 'i', 't', 'y'] then
    return .infinity negative
  else if name = ['n', 'a', 'n'] then
    return .nan
  else
    return (← readDecimal? body).score negative

/-- The ASCII form of a code point in a numeral: digits of all scripts become ASCII digits and
wide blanks become spaces. -/
def CodePoint.numeralChar? (p : CodePoint) : Option Char :=
  if p.isAscii then p.char?
  else if p.isWideBlank then some ' '
  else p.decimal?.map Nat.digitChar

/-- The ASCII characters of a text, unless one of its characters can be in no number. -/
def Text.numeral? (t : Text) : Option (List Char) :=
  t.mapM CodePoint.numeralChar?

/-- The ASCII characters of a byte string, unless one of its bytes is beyond ASCII. -/
def Bytes.numeral? (bs : Bytes) : Option (List Char) :=
  bs.mapM fun b => if b < 0x80 then some (charOf b) else none

theorem toNat_lt_of_isDigit {c : Char} (h : c.isDigit = true) : c.toNat < 0x80 :=
  Nat.lt_of_le_of_lt (Char.isDigit_iff_toNat.1 h).2 (by decide)

theorem Bytes.numeral?_ofChars {cs : List Char} (h : ∀ c ∈ cs, c.toNat < 0x80) :
    (Bytes.ofChars cs).numeral? = some cs := by
  induction cs with
  | nil => rfl
  | cons c cs ih =>
    have hc := h c List.mem_cons_self
    have hn : c.toNat.toUInt8.toNat = c.toNat := by
      simp [Nat.toUInt8]; omega
    have hl : c.toNat.toUInt8 < 0x80 := by
      rw [UInt8.lt_iff_toNat_lt, hn]; exact hc
    have hb : Bytes.charOf c.toNat.toUInt8 = c := by
      rw [Bytes.charOf, hn, Char.ofNat_toNat]
    have ih := ih fun c hm => h c (List.mem_cons_of_mem _ hm)
    simp only [Bytes.numeral?, Bytes.ofChars] at ih ⊢
    simp [hl, hb, ih]

theorem Bytes.numeral?_ofInt (n : Int) : (Bytes.ofInt n).numeral? = some (decimalInt n) := by
  refine Bytes.numeral?_ofChars fun c hc => ?_
  rcases mem_decimalInt hc with rfl | h
  · decide
  · exact toNat_lt_of_isDigit h

example : readInt? [' ', '-', '1', '_', '2', '\n'] = some (-12) := by decide

example : readInt? ['1', '_', '_', '2'] = none ∧ readInt? ['+', ' ', '1'] = none := by decide

example : readDecimal? ['1', '2', '.', '5', 'e', '-', '3'] = some ⟨125, -4⟩ := by decide

end SortedSets

import SortedSets.Connection.Exchange
import SortedSets.Proofs.Text.Encoding

/-!
# Words of commands as bytes

A word in bytes is compared by its ASCII letters alone, as a server compares it. A word in text is
raised to upper case with the letters of all scripts, and two letters beyond ASCII become ASCII
letters by that. So a text may be the word of a transaction for the client while its bytes are no
such word.

## Main definitions

* `CodePoint.isDisguise`: the letters beyond ASCII whose upper case is an ASCII letter
* `Value.Disguised`: the names that are a word of a transaction by such a letter only

## Main results

* `Verb.ofText_eq_ofBytes`: a text without such letters is the word that its bytes are
* `Verb.ofBytes_of_disguise`: a text with such letters is no word of a transaction as bytes
* `Verb.isValid_of_ofBytes`: bytes that are a word of a transaction are well formed
-/

namespace SortedSets

/-- The letters beyond ASCII whose upper case is an ASCII letter that a word may have. -/
def CodePoint.isDisguise : CodePoint → Bool
  | .scalar c => c = 'ı' || c = 'ſ'
  | .surrogate _ => false

/-- The name is a word of a transaction, but only by a letter beyond ASCII. -/
def Value.Disguised (name : Value) : Prop :=
  ∃ t, name.text? = some t ∧ (∃ p ∈ t, p.isDisguise = true) ∧ Verb.ofText t ≠ .other

instance (name : Value) : Decidable name.Disguised :=
  match h : name.text? with
  | none => .isFalse fun ⟨_, ht, _⟩ => nomatch h.symm.trans ht
  | some t =>
    decidable_of_iff ((∃ p ∈ t, p.isDisguise = true) ∧ Verb.ofText t ≠ .other)
      ⟨fun hd => ⟨t, h, hd⟩, fun ⟨_, ht, hd⟩ => Option.some.inj (h.symm.trans ht) ▸ hd⟩

namespace Bytes

/-- A byte raised to upper case. -/
def upperByte (b : UInt8) : UInt8 :=
  if 97 ≤ b ∧ b ≤ 122 then b - 32 else b

theorem upper_cons (b : UInt8) (bs : Bytes) : upper (b :: bs) = upperByte b :: upper bs := rfl

/-- Only ASCII letters change, and they become ASCII letters. -/
theorem upperByte_lt_iff (b : UInt8) : upperByte b < 0x80 ↔ b < 0x80 := by
  have hall : ∀ n < 256, upperByte (UInt8.ofNat n) < 0x80 ↔ UInt8.ofNat n < 0x80 := by
    decide +kernel
  have hb := hall b.toNat b.toNat_lt
  rwa [UInt8.ofNat_toNat] at hb

/-- Bytes whose upper case is ASCII are ASCII. -/
theorem ascii_of_upper {bs : Bytes} (h : ∀ b ∈ bs.upper, b < 0x80) : ∀ b ∈ bs, b < 0x80 := by
  intro b hb
  exact (upperByte_lt_iff b).1 (h _ (List.mem_map_of_mem hb))

end Bytes

/-! ## Letters -/

theorem toUpper_of_ascii : ∀ n < 128, (Char.ofNat n).toUpper.toNat < 128 ∧
    UInt8.ofNat (Char.ofNat n).toUpper.toNat = Bytes.upperByte (UInt8.ofNat n) := by
  decide +kernel

theorem toUInt8_lt {n : Nat} (h : n < 128) : n.toUInt8 < 0x80 := by
  rw [UInt8.lt_iff_toNat_lt]
  simp only [Nat.toUInt8, UInt8.toNat_ofNat', UInt8.reduceToNat]
  omega

/-- ASCII letters are raised to upper case alike as characters and as bytes. -/
theorem toUpper_eq_iff {c d : Char} (hc : c.toNat < 128) (hd : d.toNat < 128) :
    c.toUpper = d ↔ Bytes.upperByte (UInt8.ofNat c.toNat) = d.toNat.toUInt8 := by
  obtain ⟨hup, hbyte⟩ := toUpper_of_ascii c.toNat hc
  rw [Char.ofNat_toNat] at hup hbyte
  rw [← hbyte]
  constructor
  · intro h
    exact congrArg (fun e : Char => UInt8.ofNat e.toNat) h
  · intro h
    -- both numbers fit into a byte, so nothing was lost
    have hn : c.toUpper.toNat = d.toNat := by
      have := congrArg UInt8.toNat h
      simp only [Nat.toUInt8, UInt8.toNat_ofNat'] at this
      omega
    rw [← Char.ofNat_toNat c.toUpper, hn, Char.ofNat_toNat]

theorem toUpper_of_not_ascii {c : Char} (h : 128 ≤ c.toNat) : c.toUpper = c := by
  refine dif_neg fun hc => ?_
  have hz : c.toNat ≤ 122 := UInt32.le_iff_toNat_le.1 hc.2
  omega

theorem upperLatin_of_not_disguise {c : Char} (h : (CodePoint.scalar c).isDisguise = false) :
    (CodePoint.scalar c).upperLatin = .scalar c.toUpper := by
  unfold CodePoint.upperLatin
  split
  · next hc => cases hc; cases h
  · next hc => cases hc; cases h
  · next hc => cases hc; rfl
  · next hc => exact absurd rfl (hc c)

/-! ## Words -/

namespace Verb

/-- A text without disguises is a word of ASCII letters, but for the case, if its bytes are. -/
theorem map_upperLatin_iff {t : Text} {bs : Bytes} (hu : Text.utf8? t = some bs)
    (hn : ∀ p ∈ t, p.isDisguise = false) {w : List Char} (hw : ∀ c ∈ w, c.toNat < 128) :
    t.map CodePoint.upperLatin = Text.ofChars w ↔ bs.upper = Bytes.ofChars w := by
  -- letter by letter: the text, its bytes and the word are compared side by side
  induction t generalizing bs w with
  | nil =>
    cases hu
    cases w <;> simp [Bytes.upper, Text.ofChars, Bytes.ofChars]
  | cons p t ih =>
    cases p with
    | surrogate i => cases hu
    | scalar c =>
      rw [Text.utf8?_scalar_cons] at hu
      obtain ⟨bs, hbs, rfl⟩ := Option.map_eq_some_iff.1 hu
      have hc := hn _ List.mem_cons_self
      have hn' : ∀ p ∈ t, p.isDisguise = false := fun p hp => hn p (List.mem_cons_of_mem _ hp)
      rw [List.map_cons, upperLatin_of_not_disguise hc]
      cases w with
      | nil =>
        -- a text of at least one character is not empty, and has bytes
        apply iff_of_false
        · nofun
        · intro h
          rcases encodeChar_cases c with ⟨-, he⟩ | ⟨-, b, bs', he, -⟩
          · rw [he] at h
            cases h
          · rw [he] at h
            cases h
      | cons d w =>
        have hd := hw d List.mem_cons_self
        have ih := ih hbs hn' fun e he => hw e (List.mem_cons_of_mem d he)
        rcases encodeChar_cases c with ⟨ha, he⟩ | ⟨ha, b, bs', he, hb⟩
        · -- an ASCII letter is raised alike in both forms
          rw [he, List.singleton_append, Bytes.upper_cons]
          simp only [Text.ofChars, Bytes.ofChars, List.map_cons, List.cons.injEq,
            CodePoint.scalar.injEq]
          exact and_congr (toUpper_eq_iff ha hd) ih
        · -- a letter beyond ASCII stays one in both forms
          apply iff_of_false
          · intro h
            simp only [Text.ofChars, List.map_cons, List.cons.injEq, CodePoint.scalar.injEq] at h
            rw [toUpper_of_not_ascii ha] at h
            rw [h.1] at ha
            omega
          · intro h
            rw [he, List.cons_append, Bytes.upper_cons] at h
            simp only [Bytes.ofChars, List.map_cons, List.cons.injEq] at h
            exact hb ((Bytes.upperByte_lt_iff b).1 (h.1 ▸ toUInt8_lt hd))

theorem ascii_ofChars {w : List Char} (hw : ∀ c ∈ w, c.toNat < 128) :
    ∀ b ∈ Bytes.ofChars w, b < 0x80 := by
  intro b hb
  obtain ⟨c, hc, rfl⟩ := List.mem_map.1 hb
  exact toUInt8_lt (hw c hc)

/-- A text without disguises is the word that its bytes are. -/
theorem ofText_eq_ofBytes {t : Text} {bs : Bytes} (hu : Text.utf8? t = some bs)
    (hn : ∀ p ∈ t, p.isDisguise = false) : ofText t = ofBytes bs := by
  have hword (w : String) (hw : ∀ c ∈ w.toList, c.toNat < 128) :
      t.map CodePoint.upperLatin = Text.ofString w ↔ bs.upper = Bytes.ascii w :=
    map_upperLatin_iff hu hn hw
  simp only [ofText, ofBytes, hword "MULTI" (by simp), hword "EXEC" (by simp),
    hword "DISCARD" (by simp)]

/-- Bytes that are a word of a transaction are ASCII. -/
theorem ascii_of_ofBytes {bs : Bytes} (h : ofBytes bs ≠ .other) : ∀ b ∈ bs, b < 0x80 := by
  have hword (w : String) (hw : ∀ c ∈ w.toList, c.toNat < 128) (hbs : bs.upper = Bytes.ascii w) :
      ∀ b ∈ bs, b < 0x80 :=
    Bytes.ascii_of_upper (hbs ▸ ascii_ofChars hw)
  unfold ofBytes at h
  dsimp only at h
  split at h
  · next hw => exact hword "MULTI" (by simp) hw
  · split at h
    · next hw => exact hword "EXEC" (by simp) hw
    · split at h
      · next hw => exact hword "DISCARD" (by simp) hw
      · exact absurd rfl h

/-- Bytes that are a word of a transaction are well formed. -/
theorem isValid_of_ofBytes {bs : Bytes} (h : ofBytes bs ≠ .other) : Utf8.isValid bs = true :=
  Utf8.isValid_of_ascii (ascii_of_ofBytes h)

/-- A text with a disguise is no word of a transaction as bytes. -/
theorem ofBytes_of_disguise {t : Text} {bs : Bytes} (hu : Text.utf8? t = some bs)
    (hd : ∃ p ∈ t, p.isDisguise = true) : ofBytes bs = .other := by
  -- a disguise has a byte beyond ASCII
  have hbeyond : ∃ b ∈ bs, ¬ b < 0x80 := by
    induction t generalizing bs with
    | nil => simp at hd
    | cons p t ih =>
      cases p with
      | surrogate i => cases hu
      | scalar c =>
        rw [Text.utf8?_scalar_cons] at hu
        obtain ⟨bs, hbs, rfl⟩ := Option.map_eq_some_iff.1 hu
        obtain ⟨p, hp, hdis⟩ := hd
        rcases List.mem_cons.1 hp with rfl | hp
        · rcases encodeChar_cases c with ⟨ha, -⟩ | ⟨-, b, bs', he, hb⟩
          · simp only [CodePoint.isDisguise, Bool.or_eq_true, decide_eq_true_eq] at hdis
            rcases hdis with rfl | rfl
            · exact absurd ha (by decide)
            · exact absurd ha (by decide)
          · exact ⟨b, by simp [he], hb⟩
        · obtain ⟨b, hb, hb'⟩ := ih hbs ⟨p, hp, hdis⟩
          exact ⟨b, List.mem_append_right _ hb, hb'⟩
  obtain ⟨b, hb, hb'⟩ := hbeyond
  exact Decidable.byContradiction fun h => hb' (ascii_of_ofBytes h b hb)

/-- A name that is not disguised is the same word as text and as bytes. -/
theorem ofText_eq_of_not_disguised {name : Value} (h : ¬ name.Disguised) {t : Text} {bs : Bytes}
    (ht : name.text? = some t) (hu : Text.utf8? t = some bs) : ofText t = ofBytes bs := by
  by_cases hd : ∃ p ∈ t, p.isDisguise = true
  · -- neither form is a word of a transaction
    have ho : ofText t = .other :=
      Decidable.byContradiction fun ho => h ⟨t, ht, hd, ho⟩
    rw [ho, ofBytes_of_disguise hu hd]
  · refine ofText_eq_ofBytes hu ?_
    intro p hp
    exact Bool.eq_false_iff.2 fun hp' => hd ⟨p, hp, hp'⟩

end Verb

end SortedSets

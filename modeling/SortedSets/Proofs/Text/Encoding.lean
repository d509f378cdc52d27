import SortedSets.Text.Utf8

/-!
# Encoded texts

The encoding of a text is well formed: each character is read back from its bytes, and nothing is
left over. ASCII bytes are well formed too, and are the encoding of their characters.

## Main results

* `Utf8.decodeFrom_encodeChar`: a character is read back from its bytes
* `Utf8.isValid_of_utf8?`: the encoding of a text is well formed
* `Utf8.isValid_of_ascii`: so are ASCII bytes
* `Text.utf8?_ofChars_of_ascii`: the encoding of ASCII characters
-/

namespace SortedSets.Utf8

/-! ## First bytes -/

theorem start_ofNat_ascii {n : Nat} (h : n < 128) :
    start (UInt8.ofNat n) = some (.inl (Char.ofNat n)) := by
  have hn : (UInt8.ofNat n).toNat = n := UInt8.toNat_ofNat_of_lt' (by simp [UInt8.size]; omega)
  simp only [start, hn]
  exact if_pos h

/-- The first of two bytes. The two smallest ones would begin characters that one byte holds. -/
theorem start_ofNat_two : ∀ k < 32, 2 ≤ k →
    start (UInt8.ofNat (k + 192)) = some (.inr ⟨k, 0x80, 0xBF, 0⟩) := by decide

/-- The first of three bytes. The next one says that the character is not shorter, and that it is
no surrogate. -/
theorem start_ofNat_three : ∀ k < 16, start (UInt8.ofNat (k + 224)) =
    some (.inr ⟨k, if k = 0 then 0xA0 else 0x80, if k = 13 then 0x9F else 0xBF, 1⟩) := by decide

/-- The first of four bytes. The next one says that the character is not shorter, and that it is
in the code space. -/
theorem start_ofNat_four : ∀ k < 5, start (UInt8.ofNat (k + 240)) =
    some (.inr ⟨k, if k = 0 then 0x90 else 0x80, if k = 4 then 0x8F else 0xBF, 2⟩) := by decide

/-! ## Characters -/

/-- A further byte of a character adds its six bits. -/
theorem decodeFrom_continuation {p : Begun} {k : Nat} (hk : k < 64) (hl : p.low.toNat ≤ k + 128)
    (hh : k + 128 ≤ p.high.toNat) (rest : Bytes) :
    decodeFrom (some p) (UInt8.ofNat (k + 128) :: rest) =
      match p.following with
      | 0 => some (Char.ofNat (p.bits * 64 + k)) :: decodeFrom none rest
      | n + 1 => decodeFrom (some ⟨p.bits * 64 + k, 0x80, 0xBF, n⟩) rest := by
  have hn : (UInt8.ofNat (k + 128)).toNat = k + 128 :=
    UInt8.toNat_ofNat_of_lt' (by simp [UInt8.size]; omega)
  have hrange : p.low ≤ UInt8.ofNat (k + 128) ∧ UInt8.ofNat (k + 128) ≤ p.high := by
    rw [UInt8.le_iff_toNat_le, UInt8.le_iff_toNat_le, hn]
    exact ⟨hl, hh⟩
  obtain ⟨bits, low, high, following⟩ := p
  cases following with
  | zero => simp only [decodeFrom, if_pos hrange, hn, Nat.add_sub_cancel]
  | succ n => simp only [decodeFrom, if_pos hrange, hn, Nat.add_sub_cancel]

/-- A character is read back from its bytes. -/
theorem decodeFrom_encodeChar (c : Char) (rest : Bytes) :
    decodeFrom none (String.utf8EncodeChar c ++ rest) = some c :: decodeFrom none rest := by
  have hv : c.toNat < 0xD800 ∨ (0xDFFF < c.toNat ∧ c.toNat < 0x110000) := c.valid
  have hc : c.val.toNat = c.toNat := rfl
  have hchar {n : Nat} (h : n = c.toNat) : some (Char.ofNat n) = some c := by
    rw [h, Char.ofNat_toNat]
  simp only [String.utf8EncodeChar, hc]
  -- from here on the character is its number: as many bytes as that needs
  generalize hn : c.toNat = n at *
  split
  · -- one byte
    rw [List.singleton_append, decodeFrom, start_ofNat_ascii (by omega)]
    simp only [hchar]
  · split
    · -- two bytes
      have h2 := start_ofNat_two (n / 64 % 32) (by omega) (by omega)
      rw [List.cons_append, decodeFrom, h2]
      simp only [List.cons_append, List.nil_append]
      rw [decodeFrom_continuation (by omega) (by simp) (by simp; omega)]
      simp only
      rw [hchar (by omega)]
    · split
      · -- three bytes
        have h3 := start_ofNat_three (n / 4096 % 16) (by omega)
        -- the bounds on the second byte leave out what is shorter, and the surrogates
        have hlow : (if n / 4096 % 16 = 0 then 0xA0 else 0x80 : UInt8).toNat ≤ n / 64 % 64 + 128 := by
          split
          · simp; omega
          · simp
        have hhigh : n / 64 % 64 + 128 ≤ (if n / 4096 % 16 = 13 then 0x9F else 0xBF : UInt8).toNat := by
          split
          · simp; omega
          · simp; omega
        rw [List.cons_append, decodeFrom, h3]
        simp only [List.cons_append, List.nil_append]
        rw [decodeFrom_continuation (by omega) hlow hhigh]
        simp only
        rw [decodeFrom_continuation (by omega) (by simp) (by simp; omega)]
        simp only
        rw [hchar (by omega)]
      · -- four bytes
        have h4 := start_ofNat_four (n / 262144 % 8) (by omega)
        -- here they leave out what is shorter, and what is beyond the code space
        have hlow : (if n / 262144 % 8 = 0 then 0x90 else 0x80 : UInt8).toNat ≤
            n / 4096 % 64 + 128 := by
          split
          · simp; omega
          · simp
        have hhigh : n / 4096 % 64 + 128 ≤
            (if n / 262144 % 8 = 4 then 0x8F else 0xBF : UInt8).toNat := by
          split
          · simp; omega
          · simp; omega
        rw [List.cons_append, decodeFrom, h4]
        simp only [List.cons_append, List.nil_append]
        rw [decodeFrom_continuation (by omega) hlow hhigh]
        simp only
        rw [decodeFrom_continuation (by omega) (by simp) (by simp; omega)]
        simp only
        rw [decodeFrom_continuation (by omega) (by simp) (by simp; omega)]
        simp only
        rw [hchar (by omega)]

/-! ## Texts -/

theorem decode_encodeChar_append (c : Char) (bs : Bytes) :
    decode (String.utf8EncodeChar c ++ bs) = some c :: decode bs :=
  decodeFrom_encodeChar c bs

/-- The encoding of a text is well formed. -/
theorem isValid_of_utf8? {t : Text} {bs : Bytes} (h : Text.utf8? t = some bs) :
    isValid bs = true := by
  induction t generalizing bs with
  | nil =>
    cases h
    rfl
  | cons p t ih =>
    cases p with
    | surrogate i => cases h
    | scalar c =>
      rw [Text.utf8?_scalar_cons] at h
      obtain ⟨bs', hbs, rfl⟩ := Option.map_eq_some_iff.1 h
      rw [isValid, decode_encodeChar_append, List.all_cons]
      exact ih hbs

/-- ASCII bytes are well formed. -/
theorem isValid_of_ascii {bs : Bytes} (h : ∀ b ∈ bs, b < 0x80) : isValid bs = true := by
  induction bs with
  | nil => rfl
  | cons b bs ih =>
    have hb : b.toNat < 128 := UInt8.lt_iff_toNat_lt.1 (h b List.mem_cons_self)
    have hs := start_ofNat_ascii hb
    rw [UInt8.ofNat_toNat] at hs
    rw [isValid, decode, decodeFrom, hs]
    exact ih fun d hd => h d (List.mem_cons_of_mem b hd)

end SortedSets.Utf8

namespace SortedSets

/-! ## ASCII -/

/-- The bytes of a character are ASCII if the character is, and else none of them is. -/
theorem encodeChar_cases (c : Char) :
    (c.toNat < 128 ∧ String.utf8EncodeChar c = [UInt8.ofNat c.toNat]) ∨
      (128 ≤ c.toNat ∧ ∃ b bs, String.utf8EncodeChar c = b :: bs ∧ ¬ b < 0x80) := by
  have hc : c.val.toNat = c.toNat := rfl
  have hv : c.toNat < 0x110000 := by
    have := c.valid
    rw [← hc]
    simp only [UInt32.isValidChar, Nat.isValidChar] at this
    omega
  have hhigh {n : Nat} (h : 128 ≤ n) (hn : n < 256) : ¬ UInt8.ofNat n < 0x80 := by
    rw [UInt8.lt_iff_toNat_lt, UInt8.toNat_ofNat_of_lt' (by simp [UInt8.size]; omega)]
    simp; omega
  -- only a character below 128 is one byte, and all first bytes of longer ones are beyond ASCII
  simp only [String.utf8EncodeChar, hc]
  split
  · exact .inl ⟨by omega, rfl⟩
  · refine .inr ⟨by omega, ?_⟩
    split
    · exact ⟨_, _, rfl, hhigh (by omega) (by omega)⟩
    · split
      · exact ⟨_, _, rfl, hhigh (by omega) (by omega)⟩
      · exact ⟨_, _, rfl, hhigh (by omega) (by omega)⟩

/-- ASCII characters are encoded one byte each. -/
theorem Text.utf8?_ofChars_of_ascii {cs : List Char} (h : ∀ c ∈ cs, c.toNat < 128) :
    (ofChars cs).utf8? = some (Bytes.ofChars cs) := by
  have hbytes : cs.flatMap String.utf8EncodeChar = Bytes.ofChars cs := by
    induction cs with
    | nil => rfl
    | cons c cs ih =>
      have hlow := h c List.mem_cons_self
      obtain ⟨-, hone⟩ := (encodeChar_cases c).resolve_right fun hhigh => by omega
      rw [List.flatMap_cons, hone, ih fun d hd => h d (List.mem_cons_of_mem c hd)]
      rfl
  rw [utf8?_ofChars, hbytes]

end SortedSets

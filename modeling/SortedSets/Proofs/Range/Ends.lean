import SortedSets.Range
import SortedSets.Proofs.Command.Checks
import SortedSets.Proofs.Number.Notation
import SortedSets.Proofs.Text.Encoding

/-!
# Ends of ranges

A score end is written as a number, behind a bracket if it is exclusive, or as the token for a missing
end. The token is the text of an infinity, so that an inclusive infinity on that side is written as the
missing end and comes back as such; all other ends come back as they were. A lexicographical end
is always marked, and comes back whatever bytes it holds.

## Main definitions

* `Boundary.Made`: the ends that the checked constructors make
* `Boundary.openToken`, `Boundary.openMark`: what is written for a missing end
* `Boundary.asRead`: the end that a score end comes back as
* `Boundary.readLex?`: a lexicographical end read from its mark
* `Boundary.encodeAs`, `Boundary.readEnd?`, `Boundary.readAs`: the ends of a query of one kind
* `Range.Built`: the ranges that the checked constructors make
* `Range.Fits`: the ranges of a kind

## Main results

* `Boundary.decodeScore_encodeScore`: score ends come back
* `Boundary.score_end_reads_back`: the same for the ends of the checked constructors, as bytes and as
  a text
* `Boundary.readLex?_encodeLex`: lexicographical ends come back
* `Range.Built.ends`: the ends of a range are checked, and of one kind
* `Range.readEnd?_encodeAs`, `Range.encodeAs_of_misfit`: the ends of a query come back if they are of
  its kind, and are refused else
-/

namespace SortedSets

theorem Value.same_bytes (a b : Bytes) : (Value.bytes a).same (.bytes b) = (a == b) := rfl

theorem Value.encodeText_of_utf8? {t : Text} {bs : Bytes} (h : t.utf8? = some bs) :
    encodeText t = .ok bs := by
  simp only [encodeText, h]

namespace Boundary

variable {p : Value → Prop} {b : Boundary} {v : Value}

/-! ## Checked ends -/

/-- The ends that the checked constructors make of values with a property. -/
inductive Made (p : Value → Prop) : Boundary → Prop where
  | unbounded : Made p unbounded
  | inclusive {v : Value} {b : Boundary} (hv : p v) (h : inclusive v = .ok b) : Made p b
  | exclusive {v : Value} {b : Boundary} (hv : p v) (h : exclusive v = .ok b) : Made p b

theorem Made.cases (h : b.Made p) :
    b = Boundary.unbounded ∨
      ∃ v w, p v ∧ checkValue v = .ok w ∧ ∃ included : Bool, b = ⟨w, .bool included⟩ := by
  cases h with
  | unbounded => exact .inl rfl
  | inclusive hv h =>
    obtain ⟨w, hw, hb⟩ := Except.map_eq_ok_iff.1 h
    exact .inr ⟨_, w, hv, hw, true, hb.symm⟩
  | exclusive hv h =>
    obtain ⟨w, hw, hb⟩ := Except.map_eq_ok_iff.1 h
    exact .inr ⟨_, w, hv, hw, false, hb.symm⟩

theorem checkValue_of_isScore (h : v.IsScore) : checkValue v = .ok v := by
  cases h with
  | int n => rfl
  | @float x hx =>
    cases x with
    | nan => exact absurd rfl hx
    | infinity negative => rfl
    | finite negative m => rfl

/-- A checked value is a number, or a byte string. -/
theorem of_checkValue {w : Value} (h : checkValue v = .ok w) : w.IsScore ∨ ∃ bs, w = .bytes bs := by
  unfold checkValue at h
  split at h
  · cases h
  · cases h
  · cases h
  · cases h; exact .inl (.int _)
  · next x hx =>
    cases h
    exact .inl (.float hx)
  · cases h; exact .inr ⟨_, rfl⟩
  · cases h; exact .inr ⟨_, rfl⟩
  · -- anything else that passes is a text, and is encoded
    split at h
    · next t _ =>
      cases ht : Value.encodeText t with
      | error e =>
        rw [ht] at h
        cases h
      | ok bs =>
        rw [ht] at h
        exact .inr ⟨bs, (Except.ok.inj h).symm⟩
    · cases h

/-! ## Score ends -/

/-- What is written for a missing score end: the infinity on its side. -/
def openToken (below : Bool) : Bytes :=
  Bytes.ascii (if below then "-inf" else "+inf")

/-- The end that a score end is read back as: the inclusive infinity on its side is no end. -/
def asRead (below : Bool) : Boundary → Boundary
  | ⟨.float (.infinity negative), .bool true⟩ =>
    if negative = below then unbounded else ⟨.float (.infinity negative), .bool true⟩
  | b => b

theorem asRead_of_ne {below : Bool} (h : b ≠ ⟨.float (.infinity below), .bool true⟩) :
    asRead below b = b := by
  unfold asRead
  split
  · refine if_neg ?_
    rintro rfl
    exact h rfl
  · rfl

theorem asRead_infinity (below : Bool) :
    asRead below ⟨.float (.infinity below), .bool true⟩ = unbounded := if_pos rfl

theorem decodeScore_bytes (token : Bytes) (below : Bool) :
    decodeScore (.bytes token) (.bytes (openToken below)) =
      if token = openToken below then .ok unbounded else ofToken token := by
  simp only [decodeScore, Value.text?, bind, Except.bind, Value.same_bytes, beq_iff_eq]
  rfl

/-- A text is read as its encoding. -/
theorem decodeScore_text {t : Text} {token : Bytes} (h : t.utf8? = some token) (u : Value) :
    decodeScore (.text t) u = decodeScore (.bytes token) u := by
  simp only [decodeScore, Value.text?, Value.encodeText_of_utf8? h]
  rfl

theorem readNumber_openToken (below : Bool) :
    readNumber (openToken below).numeral? = .ok (.float (.infinity below)) := by
  cases below <;> rfl

theorem formatScore_infinity (below : Bool) :
    formatScore (.float (.infinity below)) = .ok (openToken below) := by
  cases below <;> rfl

theorem kind?_of_isScore (h : v.IsScore) (included : Value) :
    kind? ⟨v, included⟩ = some .score := by
  cases h <;> rfl

/-- A number begins with no bracket. -/
theorem ofToken_ofChars {cs : List Char} (hascii : ∀ c ∈ cs, c.toNat < 0x80)
    (hs : startsNumber cs = true) :
    ofToken (Bytes.ofChars cs) = (readNumber (some cs)).map fun v => ⟨v, .bool true⟩ := by
  rw [← Bytes.numeral?_ofChars hascii]
  unfold ofToken
  split
  · next rest heq =>
    -- a bracket would be the first character of the number
    exfalso
    cases cs with
    | nil => cases hs
    | cons c cs =>
      have hb : c.toNat.toUInt8 = 40 := (List.cons.inj heq).1
      have hc := hascii c List.mem_cons_self
      have hn : c.toNat = 40 := by
        have e := congrArg UInt8.toNat hb
        simp only [Nat.toUInt8, UInt8.toNat_ofNat', UInt8.reduceToNat] at e
        omega
      obtain rfl : c = '(' := Char.toNat_inj.1 hn
      cases hs
  · rfl

/-- A score end that is not missing is written as a number, and read back from it. -/
theorem decodeScore_encodeScore (h : v.IsScore) (included below : Bool) :
    ∃ cs : List Char, (∀ c ∈ cs, c.toNat < 0x80) ∧
      (∀ u, encodeScore ⟨v, .bool included⟩ u = .ok (.bytes (Bytes.ofChars cs))) ∧
      decodeScore (.bytes (Bytes.ofChars cs)) (.bytes (openToken below)) =
        .ok (asRead below ⟨v, .bool included⟩) := by
  obtain ⟨cs, hcs, hascii, hstart, hread⟩ := exists_chars_of_formatScore h
  cases included with
  | true =>
    refine ⟨cs, hascii, fun u => ?_, ?_⟩
    · simp only [encodeScore, kind?_of_isScore h, hcs]
      rfl
    · rw [decodeScore_bytes]
      split
      · -- the number is the infinity that stands for no end
        next htoken =>
        have hv := readNumber_openToken below
        rw [← htoken, Bytes.numeral?_ofChars hascii, hread] at hv
        rw [Except.ok.inj hv, asRead_infinity]
      · -- no other number has the text of that infinity
        next htoken =>
        rw [ofToken_ofChars hascii hstart, hread, asRead_of_ne]
        · rfl
        · intro hb
          obtain rfl : v = .float (.infinity below) := congrArg Boundary.value hb
          exact htoken (Except.ok.inj (hcs.symm.trans (formatScore_infinity below)))
  | false =>
    refine ⟨'(' :: cs, List.forall_mem_cons.2 ⟨by decide, hascii⟩, fun u => ?_, ?_⟩
    · simp only [encodeScore, kind?_of_isScore h, hcs]
      rfl
    · have htoken : Bytes.ofChars ('(' :: cs) ≠ openToken below := by
        intro he
        cases below <;> exact absurd (List.cons.inj he).1 (by decide)
      have hone : ofToken (Bytes.ofChars ('(' :: cs)) =
          (readNumber (Bytes.ofChars cs).numeral?).map fun v => ⟨v, .bool false⟩ := rfl
      rw [decodeScore_bytes, if_neg htoken, hone, Bytes.numeral?_ofChars hascii, hread,
        asRead_of_ne (by simp)]
      rfl

/-- A score end that the checked constructors make, written for the missing end of one side, is read
back as it was, with a number of the same kind; but the inclusive infinity that stands for the
missing end is read as one. It does not matter whether it is read from bytes or from their text. -/
theorem score_end_reads_back (hb : b.Made Value.IsScore) (below : Bool) :
    ∃ token, b.encodeScore (.bytes (openToken below)) = .ok (.bytes token) ∧
      decodeScore (.bytes token) (.bytes (openToken below)) = .ok (b.asRead below) ∧
      (∃ t : Text, t.utf8? = some token) ∧
      ∀ t : Text, t.utf8? = some token →
        decodeScore (.text t) (.bytes (openToken below)) = .ok (b.asRead below) := by
  obtain ⟨cs, hascii, hencode, hdecode⟩ : ∃ cs : List Char, (∀ c ∈ cs, c.toNat < 0x80) ∧
      b.encodeScore (.bytes (openToken below)) = .ok (.bytes (Bytes.ofChars cs)) ∧
      decodeScore (.bytes (Bytes.ofChars cs)) (.bytes (openToken below)) =
        .ok (b.asRead below) := by
    -- the token is ASCII in both cases, and so there is a text of it
    obtain rfl | ⟨v, w, hv, hw, included, rfl⟩ := hb.cases
    · refine ⟨(if below then "-inf" else "+inf").toList, ?_, rfl,
        (decodeScore_bytes _ below).trans (if_pos rfl)⟩
      cases below <;> simp
    · obtain rfl : v = w := Except.ok.inj ((checkValue_of_isScore hv).symm.trans hw)
      obtain ⟨cs, hascii, hencode, hdecode⟩ := decodeScore_encodeScore hv included below
      exact ⟨cs, hascii, hencode _, hdecode⟩
  exact ⟨_, hencode, hdecode, ⟨_, Text.utf8?_ofChars_of_ascii hascii⟩,
    fun t ht => (decodeScore_text ht _).trans hdecode⟩

/-- The lowest score, included. It is no end below, but above it is one. -/
theorem score_end_reads_back_infinity :
    let b : Boundary := ⟨.float (.infinity true), .bool true⟩
    b.Made Value.IsScore ∧
      decodeScore (.bytes (openToken true)) (.bytes (openToken true)) = .ok unbounded ∧
      decodeScore (.bytes (openToken true)) (.bytes (openToken false)) = .ok b := by
  intro b
  have hb : b.Made Value.IsScore :=
    .inclusive (v := .float (.infinity true)) (.float Binary64.noConfusion) rfl
  obtain ⟨token, htoken, hread, -⟩ := score_end_reads_back hb true
  obtain ⟨token', htoken', hread', -⟩ := score_end_reads_back hb false
  cases htoken
  cases htoken'
  exact ⟨hb, hread, hread'⟩

/-! ## Lexicographical ends -/

/-- What is written for a missing lexicographical end. -/
def openMark (below : Bool) : Bytes :=
  Bytes.ascii (if below then "-" else "+")

/-- A lexicographical end read from its mark: what follows is the byte string, whatever it holds. -/
def readLex? (below : Bool) (token : Bytes) : Option Boundary :=
  if token = openMark below then some unbounded
  else
    match token with
    | 91 :: bs => some ⟨.bytes bs, .bool true⟩
    | 40 :: bs => some ⟨.bytes bs, .bool false⟩
    | _ => none

theorem readLex?_encodeLex (bs : Bytes) (included below : Bool) :
    ∃ token, (∀ u, encodeLex ⟨.bytes bs, .bool included⟩ u = .ok (.bytes token)) ∧
      readLex? below token = some ⟨.bytes bs, .bool included⟩ := by
  have hne {mark : UInt8} (h : mark ≠ 45 ∧ mark ≠ 43) : mark :: bs ≠ openMark below := by
    intro he
    cases below with
    | true => exact h.1 (List.cons.inj he).1
    | false => exact h.2 (List.cons.inj he).1
  cases included with
  | true => exact ⟨91 :: bs, fun _ => rfl, if_neg (hne (by decide))⟩
  | false => exact ⟨40 :: bs, fun _ => rfl, if_neg (hne (by decide))⟩

/-! ## Ends of one kind -/

/-- An end as it is written in a query of a kind. -/
def encodeAs (kind : BoundaryKind) (below : Bool) (b : Boundary) : Except Error Value :=
  match kind with
  | .score => b.encodeScore (.bytes (openToken below))
  | .lex => b.encodeLex (.bytes (openMark below))

/-- The end that is read in a query of a kind. -/
def readEnd? (kind : BoundaryKind) (below : Bool) (token : Bytes) : Option Boundary :=
  match kind with
  | .score => (decodeScore (.bytes token) (.bytes (openToken below))).toOption
  | .lex => readLex? below token

/-- The end that an end of a query of a kind is read back as. -/
def readAs (kind : BoundaryKind) (below : Bool) (b : Boundary) : Boundary :=
  match kind with
  | .score => b.asRead below
  | .lex => b

/-- An end that was made with the checks, and that is of a kind if it is not missing, is read back. -/
theorem readEnd?_encodeAs {kind : BoundaryKind} (hb : b.Made p)
    (hk : ∀ k, b.kind? = some k → k = kind) (below : Bool) :
    ∃ token, b.encodeAs kind below = .ok (.bytes token) ∧
      readEnd? kind below token = some (b.readAs kind below) := by
  obtain rfl | ⟨v, w, -, hw, included, rfl⟩ := hb.cases
  · -- a missing end has a token of its own in either kind
    cases kind with
    | score =>
      refine ⟨openToken below, rfl, ?_⟩
      rw [readEnd?, decodeScore_bytes, if_pos rfl]
      rfl
    | lex => exact ⟨openMark below, rfl, if_pos rfl⟩
  · rcases of_checkValue hw with hscore | ⟨bs, rfl⟩
    · obtain rfl : .score = kind := hk _ (kind?_of_isScore hscore _)
      obtain ⟨cs, -, hencode, hdecode⟩ := decodeScore_encodeScore hscore included below
      refine ⟨_, hencode _, ?_⟩
      rw [readEnd?, hdecode]
      rfl
    · obtain rfl : .lex = kind := hk _ rfl
      obtain ⟨token, hencode, hread⟩ := readLex?_encodeLex bs included below
      exact ⟨token, hencode (.bytes (openMark below)), hread⟩

/-- An end of the other kind is not written. -/
theorem encodeAs_of_misfit {kind k : BoundaryKind} (hk : b.kind? = some k) (hne : k ≠ kind)
    (below : Bool) : ∃ c, b.encodeAs kind below = .error (.invalid c) := by
  -- there are two kinds, so that the kind of the end is the other one
  cases kind with
  | score =>
    obtain rfl : k = .lex := by
      cases k with
      | score => exact absurd rfl hne
      | lex => rfl
    refine ⟨.notScoreBoundary b, ?_⟩
    simp only [encodeAs, encodeScore, hk]
  | lex =>
    refine ⟨.notLexBoundary b, ?_⟩
    obtain ⟨value, included⟩ := b
    cases value with
    | none => cases hk
    | bytes bs => exact absurd (Option.some.inj hk).symm hne
    | _ => rfl

theorem encodeAs_of_missing (hk : b.kind? = none) (kind : BoundaryKind) (below : Bool) :
    ∃ v, b.encodeAs kind below = .ok v := by
  obtain ⟨value, included⟩ := b
  cases value with
  | none =>
    cases kind with
    | score => exact ⟨_, rfl⟩
    | lex => exact ⟨_, rfl⟩
  | _ => cases hk

end Boundary

/-! ## Ranges -/

namespace Range

/-- An end as a caller gives it: none, or one that was made with the checks. -/
def GivenEnd (v : Value) : Prop :=
  v = .none ∨ ∃ b : Boundary, v = .boundary b ∧ b.Made fun _ => True

/-- The ranges that the checked constructors make. -/
inductive Built : Range → Prop where
  | unbounded : Built unbounded
  | ofEnds {min max : Value} {r : Range} (hmin : GivenEnd min) (hmax : GivenEnd max)
      (h : ofEnds min max = .ok r) : Built r
  | closed {min max : Value} {r : Range} (h : closed min max = .ok r) : Built r
  | betweenExclusive {min max : Value} {r : Range} (h : betweenExclusive min max = .ok r) : Built r
  | greaterThan {v : Value} {r : Range} (h : greaterThan v = .ok r) : Built r
  | atLeast {v : Value} {r : Range} (h : atLeast v = .ok r) : Built r
  | lessThan {v : Value} {r : Range} (h : lessThan v = .ok r) : Built r
  | atMost {v : Value} {r : Range} (h : atMost v = .ok r) : Built r

variable {r : Range}

/-- Two ends of different kinds make no range. -/
theorem eq_of_ofBoundaries {min max : Boundary} (h : ofBoundaries min max = .ok r) :
    r = ⟨min, max⟩ ∧ ∀ a b, min.kind? = some a → max.kind? = some b → a = b := by
  unfold ofBoundaries at h
  split at h
  · next a b ha hb =>
    split at h
    · next hab =>
      cases h
      refine ⟨rfl, fun a' b' ha' hb' => ?_⟩
      rw [← Option.some.inj (ha.symm.trans ha'), ← Option.some.inj (hb.symm.trans hb'), hab]
    · cases h
  · next hnone =>
    cases h
    exact ⟨rfl, fun a b ha hb => (hnone a b ha hb).elim⟩

theorem made_of_endOf {v : Value} {b : Boundary} (hv : GivenEnd v) (h : endOf v = .ok b) :
    b.Made fun _ => True := by
  rcases hv with rfl | ⟨b', rfl, hb⟩
  · cases h
    exact .unbounded
  · cases h
    exact hb

/-- The ends of a range that was built were made with the checks, and are not of different kinds. -/
theorem Built.ends (h : r.Built) :
    r.min.Made (fun _ => True) ∧ r.max.Made (fun _ => True) ∧
      ∀ a b, r.min.kind? = some a → r.max.kind? = some b → a = b := by
  -- a constructor makes the lower end, then the upper one, and puts them together
  have hends {x y : Except Error Boundary} (hx : ∀ b, x = .ok b → b.Made fun _ => True)
      (hy : ∀ b, y = .ok b → b.Made fun _ => True)
      (h : (x >>= fun min => y >>= fun max => ofBoundaries min max) = .ok r) :
      r.min.Made (fun _ => True) ∧ r.max.Made (fun _ => True) ∧
        ∀ a b, r.min.kind? = some a → r.max.kind? = some b → a = b := by
    obtain ⟨min, hmin, h⟩ := Except.bind_eq_ok_iff.1 h
    obtain ⟨max, hmax, h⟩ := Except.bind_eq_ok_iff.1 h
    obtain ⟨rfl, hkinds⟩ := eq_of_ofBoundaries h
    exact ⟨hx min hmin, hy max hmax, hkinds⟩
  have hopen (b : Boundary) (hb : Except.ok (ε := Error) Boundary.unbounded = .ok b) :
      b.Made fun _ => True := by
    cases hb
    exact .unbounded
  have hincluded {v : Value} (b : Boundary) (hb : Boundary.inclusive v = .ok b) :
      b.Made fun _ => True := .inclusive trivial hb
  have hexcluded {v : Value} (b : Boundary) (hb : Boundary.exclusive v = .ok b) :
      b.Made fun _ => True := .exclusive trivial hb
  cases h with
  | unbounded => exact hends hopen hopen rfl
  | ofEnds hmin hmax h =>
    exact hends (fun _ => made_of_endOf hmin) (fun _ => made_of_endOf hmax) h
  | closed h => exact hends hincluded hincluded h
  | betweenExclusive h => exact hends hexcluded hexcluded h
  | greaterThan h => exact hends hexcluded hopen h
  | atLeast h => exact hends hincluded hopen h
  | lessThan h => exact hends hopen hexcluded h
  | atMost h => exact hends hopen hincluded h

/-! ## Ranges of one kind -/

/-- The ends of a range are of a kind, as far as they are not missing. -/
def Fits (kind : BoundaryKind) (r : Range) : Prop :=
  ∀ k, r.kind? = some k → k = kind

/-- The two ends of a range as they are written in a query of a kind. -/
def encodeAs (kind : BoundaryKind) (r : Range) : Except Error (Value × Value) :=
  match kind with
  | .score => r.encodeScore
  | .lex => r.encodeLex

theorem encodeAs_eq (kind : BoundaryKind) (r : Range) :
    r.encodeAs kind = (do return (← r.min.encodeAs kind true, ← r.max.encodeAs kind false)) := by
  cases kind <;> rfl

variable {kind : BoundaryKind}

/-- The ends of a range that was built, and that is of a kind, are read back. -/
theorem readEnd?_encodeAs (hr : r.Built) (hk : r.Fits kind) :
    ∃ low high, r.encodeAs kind = .ok (.bytes low, .bytes high) ∧
      Boundary.readEnd? kind true low = some (r.min.readAs kind true) ∧
      Boundary.readEnd? kind false high = some (r.max.readAs kind false) := by
  obtain ⟨hmin, hmax, hsame⟩ := hr.ends
  have hkmin (k : BoundaryKind) (h : r.min.kind? = some k) : k = kind :=
    hk k (by rw [Range.kind?, h]; rfl)
  have hkmax (k : BoundaryKind) (h : r.max.kind? = some k) : k = kind := by
    cases hlow : r.min.kind? with
    | none => exact hk k (by rw [Range.kind?, hlow, h]; rfl)
    | some k' => exact (hsame k' k hlow h).symm.trans (hkmin k' hlow)
  obtain ⟨low, hlow, hreadLow⟩ := Boundary.readEnd?_encodeAs hmin hkmin true
  obtain ⟨high, hhigh, hreadHigh⟩ := Boundary.readEnd?_encodeAs hmax hkmax false
  refine ⟨low, high, ?_, hreadLow, hreadHigh⟩
  rw [encodeAs_eq, hlow, hhigh]
  rfl

/-- A range of the other kind is not written. -/
theorem encodeAs_of_misfit (hk : ¬ r.Fits kind) : ∃ c, r.encodeAs kind = .error (.invalid c) := by
  obtain ⟨k, hrk, hne⟩ : ∃ k, r.kind? = some k ∧ k ≠ kind := by
    simpa only [Fits, not_forall, exists_prop] using hk
  rw [encodeAs_eq]
  -- the lower end is written first; the upper one is the misfit only if the lower one is missing
  cases hlow : r.min.kind? with
  | some k' =>
    have hkk : k' = k := by simpa [Range.kind?, hlow] using hrk
    obtain ⟨c, hc⟩ := Boundary.encodeAs_of_misfit (hkk ▸ hlow) hne true
    exact ⟨c, by rw [hc]; rfl⟩
  | none =>
    have hhigh : r.max.kind? = some k := by simpa [Range.kind?, hlow] using hrk
    obtain ⟨low, hmin⟩ := Boundary.encodeAs_of_missing hlow kind true
    obtain ⟨c, hc⟩ := Boundary.encodeAs_of_misfit hhigh hne false
    exact ⟨c, by rw [hmin, hc]; rfl⟩

end Range

end SortedSets

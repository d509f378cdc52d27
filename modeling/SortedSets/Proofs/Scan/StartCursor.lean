import SortedSets.Proofs.Command.Grammar
import SortedSets.Proofs.Session.Sent

/-!
# Cursors that a scan starts from

A scan may start from a cursor that the caller gives: a non-negative integer, or a text or a byte string
of decimal digits, of any script in a text. Two notions of a digit meet here. A text is taken for a
number if all its characters are digits, superscripts and circled numbers among them; but only decimal
digits write a number. So a text of digits that are not all decimal is taken for a number and then fails
to be read, and the error is that of the reader and not a complaint about the cursor.

## Main definitions

* `decimalValue`: the number that decimal digits write
* `Value.IsCursor`: the values that are cursors, with their numbers
* `Value.IsMisread`: the texts of digits that write no number

## Main results

* `CodePoint.numeralChar?_of_decimal`, `CodePoint.numeralChar?_of_isDigit`: how digits are read
* `readInt?_digitChars`: an integer by its digits
* `checkCursor_of_isCursor`, `checkCursor_of_isMisread`, `exists_checkCursor`: what becomes of a value
* `Session.scan_starts_at`: the calls
-/

namespace SortedSets

/-! ## Digits -/

/-- The number that decimal digits write, the first digit being the highest. -/
def decimalValue (ds : List Nat) : Nat :=
  ds.foldl (fun n d => 10 * n + d) 0

theorem ofDigitChars_digitChars {ds : List Nat} (h : ∀ d ∈ ds, d < 10) (n : Nat) :
    Nat.ofDigitChars 10 (ds.map Nat.digitChar) n = ds.foldl (fun n d => 10 * n + d) n := by
  induction ds generalizing n with
  | nil => rfl
  | cons d ds ih =>
    obtain ⟨hd, hds⟩ := List.forall_mem_cons.1 h
    rw [List.map_cons, List.foldl_cons, ← ih hds]
    simp [Nat.ofDigitChars, Nat.toNat_digitChar_of_lt_ten hd]

/-- Decimal digits are read as the integer that they write. -/
theorem readInt?_digitChars {ds : List Nat} (hne : ds ≠ []) (h : ∀ d ∈ ds, d < 10) :
    readInt? (ds.map Nat.digitChar) = some (decimalValue ds : Int) := by
  have hdigit : ∀ c ∈ ds.map Nat.digitChar, c.isDigit = true := by
    intro c hc
    obtain ⟨d, hd, rfl⟩ := List.mem_map.1 hc
    simpa [Nat.isDigit_digitChar] using h d hd
  have hblank : ∀ c ∈ ds.map Nat.digitChar, isBlankChar c = false :=
    fun c hc => isBlankChar_of_isDigit (hdigit c hc)
  have hunderscore : '_' ∉ ds.map Nat.digitChar := fun hm => absurd (hdigit _ hm) (by decide)
  have hread : readDigits? (ds.map Nat.digitChar) = some (decimalValue ds) := by
    rw [readDigits?, if_pos ⟨by simpa using hne, List.all_eq_true.2 hdigit⟩, digitsValue,
      ofDigitChars_digitChars h, decimalValue]
  rw [readInt?, trimBlanks_eq_self hblank, splitSign_of_isDigit hdigit]
  simp [dropUnderscores?_of_notMem hunderscore, hread]

namespace CodePoint

/-- The decimal digits are those of ASCII, or lie beyond ASCII and apart from the blanks. -/
theorem decimalZeros_apart : ∀ z ∈ decimalZeros, z = 0x30 ∨
    0x80 ≤ z ∧ ∀ w ∈ wideBlanks, z + 9 < w.1 ∨ w.2 < z := by decide +kernel

/-- The other digits lie beyond ASCII and apart from the blanks. -/
theorem otherDigits_apart : ∀ r ∈ otherDigits,
    0x80 ≤ r.1 ∧ ∀ w ∈ wideBlanks, r.2 < w.1 ∨ w.2 < r.1 := by decide +kernel

theorem isWideBlank_eq_false {p : CodePoint} (h : ∀ w ∈ wideBlanks, p.toNat < w.1 ∨ w.2 < p.toNat) :
    p.isWideBlank = false := by
  rw [isWideBlank, List.any_eq_false]
  intro w hw hp
  have hp := of_decide_eq_true hp
  have := h w hw
  omega

/-- Beyond ASCII, and apart from the blanks, only the digits can be read. -/
theorem numeralChar?_of_beyond {p : CodePoint} (hbeyond : 0x80 ≤ p.toNat)
    (hblanks : ∀ w ∈ wideBlanks, p.toNat < w.1 ∨ w.2 < p.toNat) :
    p.numeralChar? = p.decimal?.map Nat.digitChar := by
  have hascii : ¬ p.isAscii = true := by
    simp only [isAscii, decide_eq_true_eq]
    omega
  rw [numeralChar?, if_neg hascii, isWideBlank_eq_false hblanks, if_neg Bool.false_ne_true]

/-- A decimal digit is read as the ASCII digit of its value. -/
theorem numeralChar?_of_decimal (p : CodePoint) (d : Nat) (h : p.decimal? = some d) :
    p.numeralChar? = some (Nat.digitChar d) := by
  obtain ⟨z, hz, hd⟩ := Option.map_eq_some_iff.1 h
  have hmem := List.mem_of_find?_eq_some hz
  have hrange := List.find?_some hz
  simp only [decide_eq_true_eq] at hrange
  rcases decimalZeros_apart z hmem with rfl | ⟨hz80, hblanks⟩
  · -- the digits of ASCII are read as they are
    have hascii : p.isAscii = true := by
      simp only [isAscii, decide_eq_true_eq]
      omega
    cases p with
    | surrogate i =>
      simp only [toNat] at hrange
      omega
    | scalar c =>
      have hc : c = Nat.digitChar d := by
        apply Char.toNat_inj.1
        rw [Nat.toNat_digitChar_of_lt_ten (decimal?_lt h)]
        simp only [toNat] at hrange hd
        omega
      rw [numeralChar?, if_pos hascii, char?, hc]
  · rw [numeralChar?_of_beyond (Nat.le_trans hz80 hrange.1) fun w hw => ?_, h, Option.map_some]
    have := hblanks w hw
    omega

/-- Another digit cannot be read. -/
theorem numeralChar?_of_isDigit {p : CodePoint} (h : p.isDigit = true) (hn : p.decimal? = none) :
    p.numeralChar? = none := by
  rw [isDigit, hn, Option.isSome_none, Bool.false_or, List.any_eq_true] at h
  obtain ⟨r, hr, hp⟩ := h
  have hp := of_decide_eq_true hp
  obtain ⟨hbeyond, hblanks⟩ := otherDigits_apart r hr
  rw [numeralChar?_of_beyond (Nat.le_trans hbeyond hp.1) fun w hw => ?_, hn, Option.map_none]
  have := hblanks w hw
  omega

end CodePoint

/-! ## Values -/

/-- The values that are cursors, with their numbers: a non-negative integer, a text of decimal digits of
any script, and a byte string of ASCII digits. -/
inductive Value.IsCursor : Value → Nat → Prop where
  | int (n : Nat) : IsCursor (.int n) n
  | text {v : Value} {t : Text} {ds : List Nat} (hv : v.text? = some t) (hne : ds ≠ [])
      (h : List.Forall₂ (fun p d => p.decimal? = some d) t ds) : IsCursor v (decimalValue ds)
  | bytes {bs : Bytes} {ds : List Nat} (hne : ds ≠ [])
      (h : List.Forall₂ (fun b d => d < 10 ∧ b.toNat = 48 + d) bs ds) :
      IsCursor (.bytes bs) (decimalValue ds)

/-- A text of digits of which one is no decimal digit. -/
def Value.IsMisread (v : Value) : Prop :=
  ∃ t, v.text? = some t ∧ (∀ p ∈ t, p.isDigit = true) ∧ ∃ p ∈ t, p.decimal? = .none

/-- Each of the elements that belong to others has what follows from belonging to one. -/
theorem forall_mem_of_forall₂ {α β : Type} {R : α → β → Prop} {P : α → Prop} {xs : List α}
    {ys : List β} (h : List.Forall₂ R xs ys) (hP : ∀ x y, R x y → P x) : ∀ x ∈ xs, P x :=
  ((List.forall₂_and_left xs ys).1 (h.imp fun x y hR => ⟨hP x y hR, hR⟩)).1

theorem Text.numeral?_of_decimals {t : Text} {ds : List Nat}
    (h : List.Forall₂ (fun p d => p.decimal? = some d) t ds) :
    t.numeral? = some (ds.map Nat.digitChar) := by
  refine mapM_eq_some ?_
  induction h with
  | nil => rfl
  | cons hp _ ih => simp [CodePoint.numeralChar?_of_decimal _ _ hp, ih]

theorem Bytes.numeral?_of_decimals {bs : Bytes} {ds : List Nat}
    (h : List.Forall₂ (fun b d => d < 10 ∧ b.toNat = 48 + d) bs ds) :
    bs.numeral? = some (ds.map Nat.digitChar) := by
  refine mapM_eq_some ?_
  induction h with
  | nil => rfl
  | @cons b d _ _ hb _ ih =>
    obtain ⟨hd, hb⟩ := hb
    have hlt : b < 0x80 := by
      rw [UInt8.lt_iff_toNat_lt, hb]
      simp only [UInt8.reduceToNat]
      omega
    have hchar : Bytes.charOf b = Nat.digitChar d := by
      rw [Bytes.charOf, hb, ← Nat.toNat_digitChar_of_lt_ten hd, Char.ofNat_toNat]
    simp [hlt, hchar, ih]

namespace Value

variable {v : Value} {n : Nat}

theorem isDigitText_of_text {t : Text} (hv : v.text? = some t) : isDigitText v = t.isDigits := by
  cases v with
  | bytes bs => cases hv
  | _ => simp [isDigitText, hv]

theorem toInt_of_text {t : Text} (hv : v.text? = some t) :
    v.toInt = match t.numeral?.bind readInt? with
      | some n => .ok n
      | .none => .error .badValue := by
  cases v with
  | text t' | condition c =>
    cases hv
    rfl
  | _ => cases hv

end Value

/-- Of a text that is taken for a number, everything depends on how it is read. -/
theorem checkCursor_of_isDigitText {v : Value} (h : isDigitText v = true) :
    (∀ n : Nat, v.toInt = .ok n → checkCursor v = .ok n) ∧
      ∀ e, v.toInt = .error e → checkCursor v = .error e := by
  constructor
  · intro n hn
    simp [checkCursor, h, hn, Except.map, bind, Except.bind]
    rfl
  · intro e he
    simp [checkCursor, h, he, Except.map, bind, Except.bind]

/-- A cursor is accepted and is the number that it writes. -/
theorem checkCursor_of_isCursor {v : Value} {n : Nat} (h : v.IsCursor n) : checkCursor v = .ok n := by
  cases h with
  | int n => rfl
  | @text _ t ds hv hne h =>
    have hten : ∀ d ∈ ds, d < 10 :=
      forall_mem_of_forall₂ h.flip fun d p hp => CodePoint.decimal?_lt hp
    have hdigits : isDigitText v = true := by
      have hall := forall_mem_of_forall₂ (P := fun p => p.isDigit = true) h fun p d hd => by
        rw [CodePoint.isDigit, hd]
        rfl
      rw [Value.isDigitText_of_text hv, Text.isDigits, Bool.and_eq_true, List.all_eq_true]
      refine ⟨?_, hall⟩
      cases h with
      | nil => exact absurd rfl hne
      | cons => rfl
    refine (checkCursor_of_isDigitText hdigits).1 _ ?_
    rw [Value.toInt_of_text hv, Text.numeral?_of_decimals h, Option.bind_some,
      readInt?_digitChars hne hten]
  -- the same of bytes, whose digits are those of ASCII only
  | @bytes bs ds hne h =>
    have hten : ∀ d ∈ ds, d < 10 := forall_mem_of_forall₂ h.flip fun d b hb => hb.1
    have hdigits : isDigitText (.bytes bs) = true := by
      have hall := forall_mem_of_forall₂ (P := fun b => decide (48 ≤ b ∧ b ≤ 57) = true) h
        fun b d hb => by
          simp only [decide_eq_true_eq, UInt8.le_iff_toNat_le, UInt8.reduceToNat]
          omega
      rw [isDigitText, Bool.and_eq_true, List.all_eq_true]
      refine ⟨?_, hall⟩
      cases h with
      | nil => exact absurd rfl hne
      | cons => rfl
    refine (checkCursor_of_isDigitText hdigits).1 _ ?_
    have hnumeral : (Value.bytes bs).numeral? = some (ds.map Nat.digitChar) :=
      Bytes.numeral?_of_decimals h
    simp only [Value.toInt, Value.bytes?, Option.isSome_some, Bool.or_true, if_true, hnumeral,
      Option.bind_some, readInt?_digitChars hne hten]

/-- A text of digits that are not all decimal cannot be read. -/
theorem checkCursor_of_isMisread {v : Value} (h : v.IsMisread) : checkCursor v = .error .badValue := by
  obtain ⟨t, hv, hdigit, p, hp, hnone⟩ := h
  have hdigits : isDigitText v = true := by
    rw [Value.isDigitText_of_text hv, Text.isDigits, Bool.and_eq_true, List.all_eq_true]
    exact ⟨by cases t <;> simp at hp ⊢, hdigit⟩
  have hnumeral : t.numeral? = none :=
    mapM_eq_none hp (CodePoint.numeralChar?_of_isDigit (hdigit p hp) hnone)
  refine (checkCursor_of_isDigitText hdigits).2 _ ?_
  rw [Value.toInt_of_text hv, hnumeral, Option.bind_none]

/-- A text of digits is a cursor, or cannot be read. -/
theorem Value.isCursor_or_isMisread {v : Value} (h : isDigitText v = true) :
    (∃ n, v.IsCursor n) ∨ v.IsMisread := by
  have htext {t : Text} (hv : v.text? = some t) : (∃ n, v.IsCursor n) ∨ v.IsMisread := by
    rw [Value.isDigitText_of_text hv, Text.isDigits, Bool.and_eq_true, List.all_eq_true] at h
    -- a digit that has no decimal value makes the whole text unreadable
    by_cases hn : ∃ p ∈ t, p.decimal? = .none
    · exact .inr ⟨t, hv, h.2, hn⟩
    · have hall : ∀ p ∈ t, p.decimal? = some (p.decimal?.getD 0) := by
        intro p hp
        cases hd : p.decimal? with
        | none => exact absurd ⟨p, hp, hd⟩ hn
        | some d => rfl
      refine .inl ⟨_, .text hv ?_ (List.forall₂_map_right_iff.2 (List.forall₂_same.2 hall))⟩
      intro hnil
      rw [List.map_eq_nil_iff.1 hnil] at h
      exact absurd h.1 (by decide)
  cases v with
  | text t => exact htext rfl
  | condition c => exact htext rfl
  | bytes bs =>
    rw [isDigitText, Bool.and_eq_true, List.all_eq_true] at h
    have hall : ∀ b ∈ bs, b.toNat - 48 < 10 ∧ b.toNat = 48 + (b.toNat - 48) := by
      intro b hb
      have hrange := h.2 b hb
      simp only [decide_eq_true_eq, UInt8.le_iff_toNat_le, UInt8.reduceToNat] at hrange
      omega
    refine .inl ⟨_, .bytes ?_ (List.forall₂_map_right_iff.2 (List.forall₂_same.2 hall))⟩
    intro hnil
    rw [List.map_eq_nil_iff.1 hnil] at h
    exact absurd h.1 (by decide)
  | _ => cases h

/-- Everything else is complained about. -/
theorem exists_checkCursor {v : Value} (hc : ∀ n, ¬ v.IsCursor n) (hm : ¬ v.IsMisread) :
    ∃ c, checkCursor v = .error (.invalid c) := by
  cases hd : isDigitText v with
  | true =>
    rcases Value.isCursor_or_isMisread hd with ⟨n, hn⟩ | hv
    · exact absurd hn (hc n)
    · exact absurd hv hm
  | false =>
    cases v with
    | int n =>
      by_cases hn : n < 0
      · exact ⟨_, by simp [checkCursor, hd, hn, bind, Except.bind]; rfl⟩
      · refine absurd (.int n.toNat) (Int.toNat_of_nonneg (Int.not_lt.1 hn) ▸ hc n.toNat)
    | _ => exact ⟨_, by simp [checkCursor, hd, bind, Except.bind]; rfl⟩

/-! ## Commands -/

/-- The methods that start a scan from a cursor: one asks for a page, the other makes a cursor over all
pages. -/
def Method.scanFrom (iterates : Bool) : Method :=
  if iterates then .zscanIter else .zscan

theorem Method.named?_scanFrom (iterates : Bool) :
    named? (scanFrom iterates).name = some (scanFrom iterates) := by
  cases iterates <;> decide

namespace Command

variable {key options v : Value} {o : ScanOptions}

/-- With a key and options in order all depends on the cursor. -/
theorem zscan_direct (hkey : key.IsKey) (ho : checkOptions options = .ok o) :
    zscan .direct key v options = (checkCursor v).map fun n =>
      ⟨Bytes.ascii "ZSCAN", key :: .int n :: o.arguments, some .page⟩ := by
  simp only [zscan, checkKey_of_isKey hkey, ho, bind, Except.bind]
  cases checkCursor v <;> rfl

theorem zscanIter_direct (hkey : key.IsKey) (ho : checkOptions options = .ok o) :
    zscanIter .direct key options v = (checkCursor v).map fun n => Cursor.start n o := by
  simp only [zscanIter, checkKey_of_isKey hkey, ho, bind, Except.bind]
  cases checkCursor v <;> rfl

end Command

/-- What the methods make of their arguments. -/
theorem Method.call_scanFrom {iterates : Bool} {args : List Value} {named : List (String × Value)}
    {a : Arguments} (ha : (scanFrom iterates).signature.bind args named = .ok a)
    (hkey : (a.get "key").IsKey) {o : ScanOptions}
    (ho : Command.checkOptions (a.get "options") = .ok o) :
    (scanFrom iterates).call .direct args named = (checkCursor (a.get "cursor")).map fun n =>
      if iterates then .scan (a.get "key") (.start n o)
      else .send ⟨Bytes.ascii "ZSCAN", a.get "key" :: .int n :: o.arguments, some .page⟩ := by
  unfold call
  rw [ha]
  cases iterates with
  | false =>
    have hmade := Command.zscan_direct (v := a.get "cursor") hkey ho
    refine (congrArg (Except.map Call.send) hmade).trans ?_
    cases checkCursor (a.get "cursor") <;> rfl
  | true =>
    have hmade := Command.zscanIter_direct (v := a.get "cursor") hkey ho
    refine (congrArg (Except.map (Call.scan (a.get "key"))) hmade).trans ?_
    cases checkCursor (a.get "cursor") <;> rfl

theorem Cursor.ofValues_eq (v options : Value) :
    ofValues v options = (checkCursor v).map fun n =>
      start n (if options.isTruthy then options else .options .unrestricted) := by
  simp only [ofValues, bind, Except.bind]
  cases checkCursor v <;> rfl

/-! ## Calls -/

namespace Session

variable {s : Session} {c : Connection Listener} {k : MethodCall} {words : List Bytes}

/-- A call makes a cursor, and nothing is written. Its first step writes one request, of which a server
reads the words. -/
def ScansCall (s : Session) (k : MethodCall) (words : List Bytes) : Prop :=
  (s.call k.method k.args k.named).2 = .ok (.cursor s.scans.length) ∧
    (s.call k.method k.args k.named).1.written? = s.written? ∧
    ∀ step, ∃ before data, s.written? = some before ∧
      ((s.call k.method k.args k.named).1.step s.scans.length step).written? =
        some (before ++ [data]) ∧
      Wire.readRequest data = some (words, [])

/-- A call that its method refuses changes nothing. -/
theorem call_of_method_error {m : Method} (hm : Method.named? k.method = some m) {e : Error}
    (h : m.call s.mode k.args k.named = .error e) :
    s.call k.method k.args k.named = (s, .error e) := by
  unfold call
  simp only [hm, h]

/-- The first step of a cursor asks for the page at which the cursor was started. -/
theorem scansCall_of_method {m : Method} (hm : Method.named? k.method = some m)
    (hc : s.connection = some c) (hb : c.buffer = none) (ho : c.isClosed = false)
    (hd : s.mode = .direct) {key : Value} {n : Nat} {o : ScanOptions}
    (h : m.call s.mode k.args k.named = .ok (.scan key (.start n o)))
    (hargs : ∀ v ∈ key :: .int n :: o.arguments, v.Sendable) :
    ∃ words, List.Forall₂ Value.Converts
        (.bytes (Bytes.ascii "ZSCAN") :: key :: .int n :: o.arguments) words ∧
      s.ScansCall k words := by
  let t : Session := { s with scans := s.scans ++ [⟨key, .start n o⟩] }
  let command : Command := ⟨Bytes.ascii "ZSCAN", key :: .int n :: o.arguments, none⟩
  have hcall : s.call k.method k.args k.named = (t, .ok (.cursor s.scans.length)) := by
    unfold call
    simp only [hm, h]
    rfl
  have hw := written?_of_connection hc hb
  have hdirect : t.mode = .direct := hd
  have hconnection : t.connection = some c := hc
  have hscan : t.scans[s.scans.length]? = some ⟨key, .start n o⟩ := List.getElem?_concat_length
  obtain ⟨data, hdata⟩ : ∃ data, c.requestOf (.bytes command.name) command.args = .ok data :=
    exists_requestOf_of_sendable ho hargs
  have hrequest : t.request? (.bytes command.name) command.args = some data := by
    rw [request?, hconnection, Option.bind_some, hdata]
    rfl
  obtain ⟨words, hwords, rfl⟩ := Wire.encode_eq_ok_iff.1 (Connection.requestOf_eq_ok_iff.1 hdata).2.2
  refine ⟨words, hwords, ?_⟩
  rw [ScansCall, hcall]
  refine ⟨rfl, rfl, fun step => ⟨c.writes, Wire.request words, hw, ?_, ?_⟩⟩
  · -- either step of the new cursor asks for its first page
    have hcommand : t.stepCommand? s.scans.length step = some command := by
      rw [stepCommand?, hscan, Option.bind_some, hdirect]
      cases step <;> rfl
    have happends := appends_step s.scans.length step t c.writes hw
    rwa [hcommand, Option.bind_some, hrequest] at happends
  · exact Wire.readRequest_iff.2 (List.append_nil _).symm

/-- A value given as the cursor that a scan starts from, to a method with a key and options in order, or
to the constructor of cursors. If it is a non-negative integer, or a text or byte string of decimal
digits, it is accepted as the number that it writes: the request for a page names that number, as does
the first request of a cursor. If it is a text of digits that are not all decimal, it fails to be read as
a number. Every other value is an invalid argument. Where a call fails, everything is left as it was. -/
theorem scan_starts_at (hc : s.connection = some c) (hb : c.buffer = none) (ho : c.isClosed = false)
    (hd : s.mode = .direct) (iterates : Bool) (args : List Value) (named : List (String × Value))
    {a : Arguments} (ha : (Method.scanFrom iterates).signature.bind args named = .ok a)
    (hkey : (a.get "key").IsKey) {o : ScanOptions}
    (hoptions : Command.checkOptions (a.get "options") = .ok o)
    (hsendable : ∀ v ∈ o.arguments, v.Sendable) :
    let k : MethodCall := ⟨(Method.scanFrom iterates).name, args, named⟩
    let v := a.get "cursor"
    (∀ n, v.IsCursor n →
      (∀ options, ∃ o', Cursor.ofValues v options = .ok (.start n o')) ∧
      ∃ words, List.Forall₂ Value.Converts
          (.bytes (Bytes.ascii "ZSCAN") :: a.get "key" :: .int n :: o.arguments) words ∧
        (iterates = false → s.SendsCall k words) ∧ (iterates = true → s.ScansCall k words)) ∧
    (v.IsMisread →
      (∀ options, Cursor.ofValues v options = .error .badValue) ∧
      s.call k.method k.args k.named = (s, .error .badValue)) ∧
    ((∀ n, ¬ v.IsCursor n) → ¬ v.IsMisread → ∃ e, e.class? = some .invalidArgument ∧
      (∀ options, Cursor.ofValues v options = .error e) ∧
      s.call k.method k.args k.named = (s, .error e)) := by
  intro k v
  have hm := Method.named?_scanFrom iterates
  have hw := written?_of_connection hc hb
  have hcall := Method.call_scanFrom ha hkey hoptions
  have hrefused {e : Error} (he : checkCursor v = .error e) :
      (∀ options, Cursor.ofValues v options = .error e) ∧
        s.call k.method k.args k.named = (s, .error e) := by
    refine ⟨fun options => by rw [Cursor.ofValues_eq, he]; rfl, call_of_method_error hm ?_⟩
    rw [hd, hcall, he]
    rfl
  refine ⟨?accepted, ?misread, ?refused⟩
  case accepted =>
    intro n hn
    have hok := checkCursor_of_isCursor hn
    refine ⟨fun options => ⟨_, by rw [Cursor.ofValues_eq, hok]; rfl⟩, ?_⟩
    rw [hok] at hcall
    have hargs : ∀ v ∈ a.get "key" :: .int n :: o.arguments, v.Sendable :=
      List.forall_mem_cons.2 ⟨hkey.sendable, List.forall_mem_cons.2 ⟨.int _, hsendable⟩⟩
    cases iterates with
    | false =>
      let command : Command :=
        ⟨Bytes.ascii "ZSCAN", a.get "key" :: .int n :: o.arguments, some .page⟩
      have hj : k.judged s.mode = .ok command := by
        rw [hd]
        unfold MethodCall.judged
        simp only [k, hm, hcall]
        rfl
      obtain ⟨c', hc', h⟩ := refused_or_sent_of_judged hw hj
      cases hc.symm.trans hc'
      rcases h with ⟨e, he, -⟩ | ⟨words, hwords, hsent⟩
      · obtain ⟨data, hdata⟩ : ∃ data, c.requestOf (.bytes command.name) command.args = .ok data :=
          exists_requestOf_of_sendable ho hargs
        cases hdata.symm.trans he
      · exact ⟨words, hwords, fun _ => hsent, fun h => absurd h (by decide)⟩
    | true =>
      have hmade : (Method.scanFrom true).call s.mode args named =
          .ok (.scan (a.get "key") (.start n o)) := by
        rw [hd]
        exact hcall
      obtain ⟨words, hwords, hscans⟩ := scansCall_of_method (k := k) hm hc hb ho hd hmade hargs
      exact ⟨words, hwords, fun h => absurd h (by decide), fun _ => hscans⟩
  case misread => exact fun hv => hrefused (checkCursor_of_isMisread hv)
  case refused =>
    intro hn hv
    obtain ⟨complaint, he⟩ := exists_checkCursor hn hv
    exact ⟨_, rfl, hrefused he⟩

/-- A page of a set asked for. -/
def pageFrom (v : Value) : MethodCall :=
  ⟨"zscan", [.bytes (Bytes.ascii "k"), v], []⟩

/-- A cursor over the pages of a set. -/
def pagesFrom (v : Value) : MethodCall :=
  ⟨"zscan_iter", [.bytes (Bytes.ascii "k")], [("cursor", v)]⟩

theorem isMisread_superscript : (Value.text (.ofString "²")).IsMisread :=
  ⟨_, rfl, by decide +kernel, .scalar '²', by decide, by decide +kernel⟩

/-- Digits of two scripts, a leading zero, a superscript and a truth value. -/
theorem scan_starts_at_scripts :
    let s := connected (.none, .none) .none
    s.SendsCall (pageFrom (.text (.ofString "٤2")))
        [Bytes.ascii "ZSCAN", Bytes.ascii "k", Bytes.ascii "42"] ∧
      s.ScansCall (pagesFrom (.bytes (Bytes.ascii "07")))
        [Bytes.ascii "ZSCAN", Bytes.ascii "k", Bytes.ascii "7"] ∧
      s.call "zscan" [.bytes (Bytes.ascii "k"), .text (.ofString "²")] [] = (s, .error .badValue) ∧
      ∃ e, e.class? = some .invalidArgument ∧
        s.call "zscan_iter" [.bytes (Bytes.ascii "k")] [("cursor", .bool true)] = (s, .error e) := by
  intro s
  have hkey : (Value.bytes (Bytes.ascii "k")).IsKey := ⟨.bytes _, by decide⟩
  have hstart (iterates : Bool) (args : List Value) (named : List (String × Value)) {a : Arguments}
      (ha : (Method.scanFrom iterates).signature.bind args named = .ok a)
      (hk : a.get "key" = .bytes (Bytes.ascii "k")) (ho : a.get "options" = .none) :=
    scan_starts_at (s := s) rfl rfl rfl rfl iterates args named ha (hk ▸ hkey)
      (o := .unrestricted) (by rw [ho]; rfl) (fun v hv => absurd hv List.not_mem_nil)
  obtain ⟨hpage, -, -⟩ := hstart false (pageFrom (.text (.ofString "٤2"))).args [] rfl rfl rfl
  obtain ⟨hpages, -, -⟩ := hstart true (pagesFrom (.bytes (Bytes.ascii "07"))).args
    (pagesFrom (.bytes (Bytes.ascii "07"))).named rfl rfl rfl
  obtain ⟨-, hmisread, -⟩ := hstart false (pageFrom (.text (.ofString "²"))).args [] rfl rfl rfl
  obtain ⟨-, -, hrefused⟩ := hstart true (pagesFrom (.bool true)).args (pagesFrom (.bool true)).named
    rfl rfl rfl
  have htext : (Value.text (.ofString "٤2")).IsCursor (decimalValue [4, 2]) :=
    .text rfl (by decide) (.cons (by decide +kernel) (.cons (by decide +kernel) .nil))
  have hbytes : (Value.bytes (Bytes.ascii "07")).IsCursor (decimalValue [0, 7]) :=
    .bytes (by decide) (.cons (by decide) (.cons (by decide) .nil))
  have hread {n : Int} {words : List Bytes} (h : List.Forall₂ Value.Converts
      [.bytes (Bytes.ascii "ZSCAN"), .bytes (Bytes.ascii "k"), .int n] words) :
      words = [Bytes.ascii "ZSCAN", Bytes.ascii "k", Bytes.ofInt n] := by
    simp only [List.forall₂_cons_left_iff, List.forall₂_nil_left_iff, Value.converts_bytes_iff,
      Value.converts_int_iff] at h
    obtain ⟨_, _, rfl, ⟨_, _, rfl, ⟨_, _, rfl, rfl, rfl⟩, rfl⟩, rfl⟩ := h
    rfl
  refine ⟨?page, ?pages, (hmisread isMisread_superscript).2, ?refused⟩
  case page =>
    obtain ⟨-, words, hwords, hsent, -⟩ := hpage _ htext
    obtain rfl := hread hwords
    exact hsent rfl
  case pages =>
    obtain ⟨-, words, hwords, -, hscans⟩ := hpages _ hbytes
    obtain rfl := hread hwords
    exact hscans rfl
  case refused =>
    have hbool : ∀ n, ¬ (Value.bool true).IsCursor n := by
      intro n h
      cases h with
      | text hv => cases hv
    have hread : ¬ (Value.bool true).IsMisread := by
      rintro ⟨t, ht, -⟩
      cases ht
    obtain ⟨e, hclass, -, he⟩ := hrefused hbool hread
    exact ⟨e, hclass, he⟩

/-- A value that is no cursor may fail otherwise than as an invalid argument. -/
theorem not_scan_starts_at :
    ¬ ∀ v : Value, (∀ n, ¬ v.IsCursor n) →
      ∃ e, (connected (.none, .none) .none).RefusesCall (pageFrom v) e ∧
        e.class? = some .invalidArgument := by
  intro h
  have hcheck := checkCursor_of_isMisread isMisread_superscript
  have hno : ∀ n, ¬ (Value.text (.ofString "²")).IsCursor n := by
    intro n hn
    cases hcheck.symm.trans (checkCursor_of_isCursor hn)
  obtain ⟨e, he, hclass⟩ := h _ hno
  have hkey : (Value.bytes (Bytes.ascii "k")).IsKey := ⟨.bytes _, by decide⟩
  have hbind : (Method.scanFrom false).signature.bind (pageFrom (.text (.ofString "²"))).args [] =
      .ok _ := rfl
  have hmethod := (Method.call_scanFrom hbind hkey rfl).trans (congrArg (Except.map _) hcheck)
  have hcall := call_of_method_error (s := connected (.none, .none) .none)
    (k := pageFrom (.text (.ofString "²"))) (Method.named?_scanFrom false) hmethod
  cases (congrArg Prod.snd hcall).symm.trans he.1
  cases hclass

end Session

end SortedSets

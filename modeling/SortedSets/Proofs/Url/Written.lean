import Mathlib.Data.List.Forall2
import Mathlib.Data.List.TakeWhile
import SortedSets.Number.Reading
import SortedSets.Proofs.Url.Escaped

/-!
# URLs as they are written

A URL is written from a scheme, a host, a port, a path and parameters; port, path and parameters may
be missing. The parameters are escaped, and one without a value may be written without its equals
sign. A written URL is taken apart into what it was written from.

## Main definitions

* `Url.Contents`: what a URL is written from
* `Url.Contents.Writes`: the URLs that are written from it

## Main results

* `Text.lowercase_ofChars`: ASCII letters in lower case
* `Url.Contents.exists_writes`: whatever the contents, there is a URL that is written from them
* `Url.ofText_of_writes`: a written URL is taken apart
* `Url.parameters_of_writes`: its parameters come back decoded, in their order
-/

namespace SortedSets

/-! ## ASCII characters -/

section Ascii

variable {c d : Char} {cs : List Char}

/-- What holds of all the codes below 128 holds of the ASCII characters. -/
theorem ascii_induction {P : Char → Prop} (h : ∀ n < 128, P (Char.ofNat n)) (hc : c.toNat < 128) :
    P c :=
  Char.ofNat_toNat c ▸ h c.toNat hc

@[simp] theorem CodePoint.is_scalar (c d : Char) : (CodePoint.scalar d).is c = decide (d = c) := by
  simp [CodePoint.is]

/-- A letter of ASCII in lower case, whatever stands around it. -/
theorem Text.lowercase_ofChars (h : ∀ c ∈ cs, c.toNat < 128) :
    (ofChars cs).lowercase = ofChars (cs.map Char.toLower) := by
  have hone : ∀ n < 128, (CodePoint.scalar (Char.ofNat n)).lowercase =
      [.scalar (Char.ofNat n).toLower] := by decide +kernel
  -- what stands before a letter matters for the letter sigma only
  have hall (passed : Text) : lowercaseFrom passed (ofChars cs) = ofChars (cs.map Char.toLower) := by
    induction cs generalizing passed with
    | nil => rfl
    | cons c cs ih =>
      have hc := h c List.mem_cons_self
      have hsigma : (CodePoint.scalar c).toNat ≠ 0x3A3 := fun he => by
        have hcode : c.toNat = 0x3A3 := he
        omega
      change lowercaseFrom passed (.scalar c :: ofChars cs) = _
      rw [lowercaseFrom, if_neg hsigma, ih (fun d hd => h d (List.mem_cons_of_mem c hd)),
        ascii_induction (P := fun c => (CodePoint.scalar c).lowercase = [.scalar c.toLower]) hone hc]
      rfl
  exact hall []

end Ascii

/-! ## Texts and their pieces -/

namespace Text

variable {f : CodePoint → Bool} {s t : Text} {p : CodePoint}

theorem ofChars_injective : Function.Injective ofChars :=
  List.map_injective_iff.2 fun _ _ => CodePoint.scalar.inj

@[simp] theorem ofChars_eq_nil_iff {cs : List Char} : ofChars cs = [] ↔ cs = [] :=
  List.map_eq_nil_iff

theorem cut_eq_self (h : ∀ q ∈ s, f q = false) : cut f s = (s, none) := by
  induction s with
  | nil => rfl
  | cons q s ih =>
    rw [cut, if_neg (by simp [h q List.mem_cons_self]), ih fun r hr => h r (List.mem_cons_of_mem q hr)]

theorem cut_append (h : ∀ q ∈ s, f q = false) (hp : f p = true) (t : Text) :
    cut f (s ++ p :: t) = (s, some t) := by
  induction s with
  | nil => exact if_pos hp
  | cons q s ih =>
    rw [List.cons_append, cut, if_neg (by simp [h q List.mem_cons_self]),
      ih fun r hr => h r (List.mem_cons_of_mem q hr)]

theorem afterLast_eq_self (h : ∀ q ∈ s, f q = false) : afterLast f s = s := by
  have hall : s.reverse.takeWhile (fun q => !f q) = s.reverse :=
    List.takeWhile_eq_self_iff.2 fun q hq => by simp [h q (List.mem_reverse.1 hq)]
  rw [afterLast, hall, List.reverse_reverse]

theorem pieces_eq_splitOnP (f : CodePoint → Bool) (t : Text) : pieces f t = t.splitOnP f := by
  induction t with
  | nil => rfl
  | cons p t ih =>
    have hne : pieces f t ≠ [] := ih ▸ List.splitOnP_ne_nil f t
    obtain ⟨s, rest, hpieces⟩ := List.exists_cons_of_ne_nil hne
    rw [List.splitOnP_cons_eq_if_modifyHead, ← ih, hpieces]
    unfold pieces at hpieces ⊢
    rw [List.foldr_cons, hpieces]
    rfl

/-- The pieces of what was joined. -/
theorem pieces_intercalate {c : Char} {ws : List Text} (h : ∀ w ∈ ws, .scalar c ∉ w)
    (hne : ws ≠ []) : pieces (·.is c) ([.scalar c].intercalate ws) = ws := by
  rw [pieces_eq_splitOnP]
  exact List.splitOn_intercalate (.scalar c) h hne

end Text

/-! ## What a URL is written from -/

namespace Url

/-- The characters of a scheme. -/
def isSchemeChar (c : Char) : Bool :=
  c.isAlphanum || c = '+' || c = '-' || c = '.'

/-- The characters of a host. -/
def isHostChar (c : Char) : Bool :=
  c.isLower || c.isDigit || c = '-' || c = '.'

/-- The characters that a path may have: all but those that end a path, and those that do not count
in a URL. -/
def isPathChar (c : Char) : Bool :=
  c ≠ '?' && c ≠ '#' && c ≠ '\t' && c ≠ '\n' && c ≠ '\r'

/-- What a URL is written from. The path is the one behind a slash. -/
structure Contents where
  scheme : List Char
  host : List Char
  port : Option Nat
  path : Option (List Char)
  parameters : List (List Char × List Char)
  scheme_first : ∃ c cs, scheme = c :: cs ∧ c.isAlpha = true
  scheme_chars : ∀ c ∈ scheme, isSchemeChar c = true
  host_ne_nil : host ≠ []
  host_chars : ∀ c ∈ host, isHostChar c = true
  port_range : ∀ n, port = some n → 1 ≤ n ∧ n ≤ 65535
  path_chars : ∀ cs, path = some cs → ∀ c ∈ cs, isPathChar c = true
  name_ne_nil : ∀ p ∈ parameters, p.1 ≠ []

/-- A parameter is written with its name and its value escaped; one without a value may be written
as its name alone. -/
inductive WritesParameter : List Char × List Char → List Char → Prop where
  | named {name value n v : List Char} (hn : Escapes name n) (hv : Escapes value v) :
    WritesParameter (name, value) (n ++ '=' :: v)
  | bare {name n : List Char} (hn : Escapes name n) : WritesParameter (name, []) n

namespace Contents

/-- The host, and the port behind a colon. -/
def authority (u : Contents) : List Char :=
  u.host ++
    match u.port with
    | none => []
    | some n => ':' :: decimalNat n

/-- The path with its slash. -/
def pathText (u : Contents) : List Char :=
  match u.path with
  | none => []
  | some cs => '/' :: cs

/-- The written parameters between their separators. -/
def queryText (ws : List (List Char)) : Text :=
  [.scalar '&'].intercalate (ws.map Text.ofChars)

/-- The query with its question mark, if there are parameters. -/
def queryPart (ws : List (List Char)) : Text :=
  if ws = [] then [] else .scalar '?' :: queryText ws

/-- The URLs that are written from these contents. -/
def Writes (u : Contents) (t : Text) : Prop :=
  ∃ ws, List.Forall₂ WritesParameter u.parameters ws ∧
    t = Text.ofChars (u.scheme ++ ':' :: '/' :: '/' :: (u.authority ++ u.pathText)) ++ queryPart ws

end Contents

variable {u : Contents} {t : Text} {c : Char} {cs w : List Char} {ws : List (List Char)}
  {p : List Char × List Char} {params : List (List Char × List Char)}

/-- All contents are written somehow. -/
theorem Contents.exists_writes (u : Contents) : ∃ t, u.Writes t := by
  have hall (params : List (List Char × List Char)) : ∃ ws, List.Forall₂ WritesParameter params ws := by
    induction params with
    | nil => exact ⟨[], .nil⟩
    | cons p params ih =>
      obtain ⟨ws, hws⟩ := ih
      obtain ⟨n, hn⟩ := exists_escapes p.1
      obtain ⟨v, hv⟩ := exists_escapes p.2
      exact ⟨_, .cons (.named hn hv) hws⟩
  obtain ⟨ws, hws⟩ := hall u.parameters
  exact ⟨_, ws, hws, rfl⟩

/-! ## Parameters -/

theorem WritesParameter.chars (h : WritesParameter p w) :
    ∀ c ∈ w, isQueryChar c = true ∨ c = '=' := by
  cases h with
  | named hn hv =>
    intro c hc
    simp only [List.mem_append, List.mem_cons] at hc
    rcases hc with hc | rfl | hc
    · exact .inl (hn.isQueryChar c hc)
    · exact .inr rfl
    · exact .inl (hv.isQueryChar c hc)
  | bare hn => exact fun c hc => .inl (hn.isQueryChar c hc)

theorem WritesParameter.ne_nil (h : WritesParameter p w) (hp : p.1 ≠ []) : w ≠ [] := by
  cases h with
  | named hn hv => simp
  | bare hn => exact hn.ne_nil hp

/-- A parameter that is read: what stands in front of its first equals sign, and what stands behind.
-/
def readParameter (t : Text) : Text × Text :=
  (unescape (Text.cut (·.is '=') t).1, unescape ((Text.cut (·.is '=') t).2.getD []))

/-- The first equals sign of a written parameter is the one that was written between name and value.
-/
theorem WritesParameter.read (h : WritesParameter p w) :
    readParameter (Text.ofChars w) = (Text.ofChars p.1, Text.ofChars p.2) := by
  -- an equals sign in a name is escaped
  have hsign {name n : List Char} (hn : Escapes name n) :
      ∀ q ∈ Text.ofChars n, CodePoint.is '=' q = false := by
    intro q hq
    obtain ⟨c, hc, rfl⟩ := List.mem_map.1 hq
    have hchar := hn.isQueryChar c hc
    simp only [isQueryChar, Bool.and_eq_true, decide_eq_true_eq] at hchar
    simpa using hchar.1.1.2
  cases h with
  | named hn hv =>
    rw [Text.ofChars_append]
    change readParameter (Text.ofChars _ ++ .scalar '=' :: Text.ofChars _) = _
    rw [readParameter, Text.cut_append (hsign hn) (by simp), Option.getD_some, unescape_of_escapes hn,
      unescape_of_escapes hv]
  | bare hn =>
    rw [readParameter, Text.cut_eq_self (hsign hn), Option.getD_none, unescape_of_escapes hn]
    rfl

theorem exists_writes_of_mem (hw : List.Forall₂ WritesParameter params ws) (hm : w ∈ ws) :
    ∃ p ∈ params, WritesParameter p w := by
  induction hw with
  | nil => cases hm
  | cons hpw _ ih =>
    rcases List.mem_cons.1 hm with rfl | hm
    · exact ⟨_, List.mem_cons_self, hpw⟩
    · obtain ⟨p, hp, hpw⟩ := ih hm
      exact ⟨p, List.mem_cons_of_mem _ hp, hpw⟩

theorem mem_queryText {q : CodePoint} (h : q ∈ Contents.queryText ws) :
    q = .scalar '&' ∨ ∃ w ∈ ws, ∃ c ∈ w, q = .scalar c := by
  induction ws with
  | nil => cases h
  | cons w rest ih =>
    have hone (hq : q ∈ Text.ofChars w) : ∃ v ∈ w :: rest, ∃ c ∈ v, q = .scalar c := by
      obtain ⟨c, hc, rfl⟩ := List.mem_map.1 hq
      exact ⟨w, List.mem_cons_self, c, hc, rfl⟩
    -- no separator stands behind the last parameter
    cases rest with
    | nil => exact .inr (hone (by simpa [Contents.queryText] using h))
    | cons v rest =>
      rw [Contents.queryText, List.map_cons, List.map_cons, List.intercalate_cons_cons] at h
      rcases List.mem_append.1 h with h | h
      · rcases List.mem_append.1 h with h | h
        · exact .inr (hone h)
        · exact .inl (List.mem_singleton.1 h)
      · refine (ih h).imp_right fun ⟨x, hx, hc⟩ => ⟨x, List.mem_cons_of_mem w hx, hc⟩

/-- The parameters of a query come back in their order. -/
theorem read_queryText (hw : List.Forall₂ WritesParameter params ws) (hne : ∀ p ∈ params, p.1 ≠ []) :
    (((Contents.queryText ws).pieces (·.is '&')).filter (· ≠ [])).map readParameter =
      params.map fun p => (Text.ofChars p.1, Text.ofChars p.2) := by
  -- no piece is empty, since no name is, and so the filter takes nothing away
  have hpieces : ((Contents.queryText ws).pieces (·.is '&')).filter (· ≠ []) =
      ws.map Text.ofChars := by
    by_cases hws : ws = []
    · subst hws
      rfl
    · have hmark : ∀ t ∈ ws.map Text.ofChars, CodePoint.scalar '&' ∉ t := by
        intro t ht hm
        obtain ⟨w, hwm, rfl⟩ := List.mem_map.1 ht
        obtain ⟨c, hc, hcm⟩ := List.mem_map.1 hm
        obtain ⟨p, -, hpw⟩ := exists_writes_of_mem hw hwm
        cases hcm
        rcases hpw.chars _ hc with h | h <;> revert h <;> decide
      rw [Contents.queryText, Text.pieces_intercalate hmark (by simpa using hws),
        List.filter_eq_self.2]
      intro t ht
      obtain ⟨w, hwm, rfl⟩ := List.mem_map.1 ht
      obtain ⟨p, hp, hpw⟩ := exists_writes_of_mem hw hwm
      simpa using hpw.ne_nil (hne p hp)
  rw [hpieces, List.map_map]
  clear hpieces
  induction hw with
  | nil => rfl
  | cons hpw _ ih =>
    rw [List.map_cons, List.map_cons, ih fun p hp => hne p (List.mem_cons_of_mem _ hp)]
    exact congrArg (· :: _) hpw.read

/-! ## The parts of a URL -/

theorem is_eq_false_of_notMem (h : c ∉ cs) : ∀ q ∈ Text.ofChars cs, CodePoint.is c q = false := by
  intro q hq
  obtain ⟨d, hd, rfl⟩ := List.mem_map.1 hq
  have hne : d ≠ c := fun he => h (he ▸ hd)
  simpa using hne

theorem toNat_lt_of_isAlpha (h : c.isAlpha = true) : c.toNat < 128 := by
  have hletter : (decide (c.val ≥ 'A'.val ∧ c.val ≤ 'Z'.val) ||
      decide (c.val ≥ 'a'.val) && decide (c.val ≤ 'z'.val)) = true := h
  simp only [Bool.or_eq_true, Bool.and_eq_true, decide_eq_true_eq] at hletter
  rcases hletter with h | h
  · exact Nat.lt_of_le_of_lt (UInt32.le_iff_toNat_le.1 h.2) (by decide)
  · exact Nat.lt_of_le_of_lt (UInt32.le_iff_toNat_le.1 h.2) (by decide)

theorem toNat_lt_of_isSchemeChar (h : isSchemeChar c = true) : c.toNat < 128 := by
  simp only [isSchemeChar, Bool.or_eq_true, decide_eq_true_eq] at h
  rcases h with ((h | rfl) | rfl) | rfl
  · rcases Bool.or_eq_true_iff.1 h with h | h
    · exact toNat_lt_of_isAlpha h
    · exact toNat_lt_of_isDigit h
  all_goals decide

theorem toNat_lt_of_isHostChar (h : isHostChar c = true) : c.toNat < 128 := by
  simp only [isHostChar, Bool.or_eq_true, decide_eq_true_eq] at h
  rcases h with ((h | h) | rfl) | rfl
  · have hletter : (c.isUpper || c.isLower) = true := by rw [h, Bool.or_true]
    exact toNat_lt_of_isAlpha hletter
  · exact toNat_lt_of_isDigit h
  all_goals decide

theorem notMem_of_all {f : Char → Bool} (hall : (cs.all fun d => !f d) = true) (hc : f c = true) :
    c ∉ cs := by
  intro hm
  have h := List.all_eq_true.1 hall c hm
  rw [hc] at h
  cases h

theorem notMem_of_isSchemeChar (h : isSchemeChar c = true) : c ∉ [':', '\t', '\n', '\r'] :=
  notMem_of_all (by decide) h

theorem notMem_of_isHostChar (h : isHostChar c = true) :
    c ∉ [':', '/', '?', '#', '@', '[', ']', '%', '\t', '\n', '\r'] :=
  notMem_of_all (by decide) h

/-- A scheme is read in lower case. -/
theorem splitScheme_of_contents (u : Contents) (rest : Text) :
    splitScheme (Text.ofChars u.scheme ++ .scalar ':' :: rest) =
      (Text.ofChars (u.scheme.map Char.toLower), rest) := by
  -- the first colon is the one behind the scheme
  have hcolon : ':' ∉ u.scheme := fun hm =>
    notMem_of_isSchemeChar (u.scheme_chars _ hm) List.mem_cons_self
  have hascii (c : Char) (hc : c ∈ u.scheme) : c.toNat < 128 :=
    toNat_lt_of_isSchemeChar (u.scheme_chars c hc)
  have hpoint : ∀ n < 128, isSchemeChar (Char.ofNat n) = true →
      isSchemePoint (.scalar (Char.ofNat n)) = true := by decide
  have hletter : ∀ n < 128, (Char.ofNat n).isAlpha = true →
      (CodePoint.scalar (Char.ofNat n)).isAsciiLetter = true := by decide
  have hlower := Text.lowercase_ofChars hascii
  rw [splitScheme, Text.cut_append (is_eq_false_of_notMem hcolon) (by simp)]
  obtain ⟨c, cs, hscheme, hc⟩ := u.scheme_first
  have hfirst := ascii_induction (P := fun c => c.isAlpha = true →
    (CodePoint.scalar c).isAsciiLetter = true) hletter (toNat_lt_of_isAlpha hc) hc
  have hall : (Text.ofChars cs).all isSchemePoint = true := by
    refine List.all_eq_true.2 fun q hq => ?_
    obtain ⟨d, hd, rfl⟩ := List.mem_map.1 hq
    have hd : d ∈ u.scheme := hscheme ▸ List.mem_cons_of_mem c hd
    exact ascii_induction (P := fun c => isSchemeChar c = true → isSchemePoint (.scalar c) = true)
      hpoint (hascii d hd) (u.scheme_chars d hd)
  rw [hscheme] at hlower ⊢
  change (if (CodePoint.scalar c).isAsciiLetter && (Text.ofChars cs).all isSchemePoint then
    ((Text.ofChars (c :: cs)).lowercase, rest) else _) = _
  rw [hfirst, hall, hlower]
  rfl

/-- Behind a colon and two slashes stands the authority, up to a path or a query. -/
theorem splitAuthority_append {rest : Text} (hcs : ∀ c ∈ cs, c ∉ ['/', '?', '#'])
    (hrest : rest.head?.all endsAuthority = true) :
    splitAuthority (.scalar '/' :: .scalar '/' :: (Text.ofChars cs ++ rest)) =
      (Text.ofChars cs, rest) := by
  have hpos : ∀ q ∈ Text.ofChars cs, (!endsAuthority q) = true := by
    intro q hq
    obtain ⟨c, hc, rfl⟩ := List.mem_map.1 hq
    simpa [endsAuthority, and_assoc] using hcs c hc
  rw [splitAuthority, List.takeWhile_append_of_pos hpos, List.dropWhile_append_of_pos hpos]
  cases rest with
  | nil => simp
  | cons q rest =>
    have hq : endsAuthority q = true := by simpa using hrest
    simp [hq]

namespace Contents

theorem authority_chars (u : Contents) : ∀ c ∈ u.authority, isHostChar c = true ∨ c = ':' := by
  intro c hc
  rcases List.mem_append.1 hc with hc | hc
  · exact .inl (u.host_chars c hc)
  · cases hp : u.port with
    | none =>
      rw [hp] at hc
      cases hc
    | some n =>
      rw [hp] at hc
      rcases List.mem_cons.1 hc with rfl | hc
      · exact .inr rfl
      · exact .inl (by simp [isHostChar, isDigit_of_mem_decimalNat hc])

/-- The characters that an authority does not have. -/
theorem notMem_of_mem_authority (u : Contents) (h : c ∈ u.authority) :
    c ∉ ['/', '?', '#', '@', '[', ']', '%', '\t', '\n', '\r'] := by
  rcases u.authority_chars c h with h | rfl
  · exact fun hm => notMem_of_isHostChar h (List.mem_cons_of_mem _ hm)
  · decide

theorem is_eq_false_of_mem_authority (u : Contents)
    (hc : c ∈ ['/', '?', '#', '@', '[', ']', '%', '\t', '\n', '\r']) :
    ∀ q ∈ Text.ofChars u.authority, CodePoint.is c q = false :=
  is_eq_false_of_notMem fun hm => u.notMem_of_mem_authority hm hc

/-- An authority without brackets is not malformed. -/
theorem isSoundAuthority (u : Contents) : isSoundAuthority (Text.ofChars u.authority) = true := by
  have hnone {d : Char} (hd : d ∈ ['/', '?', '#', '@', '[', ']', '%', '\t', '\n', '\r']) :
      (Text.ofChars u.authority).any (·.is d) = false :=
    List.any_eq_false.2 fun q hq => by
      rw [u.is_eq_false_of_mem_authority hd q hq]
      exact Bool.false_ne_true
  -- the forms of separators are all beyond ASCII
  have hforms : ∀ n < 128, separatorForms.contains n = false := by decide
  have hseparators : ((Text.ofChars u.authority).any fun p => separatorForms.contains p.toNat) = false := by
    refine List.any_eq_false.2 fun q hq => ?_
    obtain ⟨c, hc, rfl⟩ := List.mem_map.1 hq
    have hlow : c.toNat < 128 := by
      rcases u.authority_chars c hc with h | rfl
      · exact toNat_lt_of_isHostChar h
      · decide
    rw [CodePoint.toNat, hforms _ hlow]
    exact Bool.false_ne_true
  rw [Url.isSoundAuthority, hasSoundBrackets, hnone (d := '[') (by decide), hnone (d := ']') (by decide),
    hseparators]
  rfl

theorem notMem_of_mem_pathText (u : Contents) (h : c ∈ u.pathText) :
    c ∉ ['?', '#', '\t', '\n', '\r'] := by
  unfold pathText at h
  split at h
  · cases h
  · next cs hpath =>
    rcases List.mem_cons.1 h with rfl | h
    · decide
    · simpa [isPathChar, and_assoc] using u.path_chars cs hpath c h

theorem mem_queryPart (hw : List.Forall₂ WritesParameter params ws) {q : CodePoint}
    (h : q ∈ queryPart ws) : ∃ c, q = .scalar c ∧ c ∉ ['#', '\t', '\n', '\r'] := by
  unfold queryPart at h
  split at h
  · cases h
  · rcases List.mem_cons.1 h with rfl | h
    · exact ⟨'?', rfl, by decide⟩
    · rcases mem_queryText h with rfl | ⟨w, hm, c, hc, rfl⟩
      · exact ⟨'&', rfl, by decide⟩
      · obtain ⟨p, -, hpw⟩ := exists_writes_of_mem hw hm
        refine ⟨c, rfl, ?_⟩
        rcases hpw.chars c hc with h | rfl
        · exact notMem_of_all (by decide) h
        · decide

/-- Behind the authority stands a slash, a question mark, or nothing. -/
theorem endsAuthority_path (u : Contents) (ws : List (List Char)) :
    (Text.ofChars u.pathText ++ queryPart ws).head?.all endsAuthority = true := by
  unfold pathText queryPart
  cases u.path with
  | some cs => rfl
  | none => by_cases hws : ws = [] <;> simp [hws, endsAuthority]

/-- No hash stands in the path or the query, so nothing is cut off as a fragment. -/
theorem cut_fragment (hw : List.Forall₂ WritesParameter params ws) :
    Text.cut (·.is '#') (Text.ofChars u.pathText ++ queryPart ws) =
      (Text.ofChars u.pathText ++ queryPart ws, none) := by
  refine Text.cut_eq_self fun q hq => ?_
  rcases List.mem_append.1 hq with hq | hq
  · exact is_eq_false_of_notMem (fun hm => u.notMem_of_mem_pathText hm (by decide)) q hq
  · obtain ⟨c, rfl, hc⟩ := mem_queryPart hw hq
    have hne : c ≠ '#' := fun he => hc (he ▸ List.mem_cons_self)
    simpa using hne

/-- The first question mark is the one between the path and the query. -/
theorem cut_query (u : Contents) (ws : List (List Char)) :
    ∃ query, Text.cut (·.is '?') (Text.ofChars u.pathText ++ queryPart ws) =
      (Text.ofChars u.pathText, query) ∧ query.getD [] = queryText ws := by
  have hpath : ∀ q ∈ Text.ofChars u.pathText, CodePoint.is '?' q = false :=
    is_eq_false_of_notMem fun hm => u.notMem_of_mem_pathText hm List.mem_cons_self
  unfold queryPart
  split
  · next hws =>
    subst hws
    rw [List.append_nil]
    exact ⟨none, Text.cut_eq_self hpath, rfl⟩
  · exact ⟨_, Text.cut_append hpath (by simp) _, rfl⟩

end Contents

theorem strip_eq_self (hfirst : t.head?.all (fun p => 0x20 < p.toNat) = true)
    (hkept : ∀ q ∈ t, ∃ c, q = .scalar c ∧ c ∉ ['\t', '\n', '\r']) : strip t = t := by
  have hdrop : (t.dropWhile fun p => p.toNat ≤ 0x20) = t := by
    cases t with
    | nil => rfl
    | cons p t =>
      have hp : 0x20 < p.toNat := by simpa using hfirst
      exact List.dropWhile_cons_of_neg (by simpa using hp)
  rw [strip, hdrop, List.filter_eq_self]
  intro q hq
  obtain ⟨c, rfl, hc⟩ := hkept q hq
  simpa [and_assoc] using hc

/-- Nothing of a written URL is stripped off. -/
theorem strip_of_writes (hw : List.Forall₂ WritesParameter u.parameters ws) :
    let t := Text.ofChars (u.scheme ++ ':' :: '/' :: '/' :: (u.authority ++ u.pathText)) ++
      Contents.queryPart ws
    strip t = t := by
  intro t
  refine strip_eq_self ?_ fun q hq => ?_
  · -- a letter comes first, so that there is nothing to strip in front
    obtain ⟨c, cs, hscheme, hc⟩ := u.scheme_first
    have hletter : ∀ n < 128, (Char.ofNat n).isAlpha = true → 0x20 < (Char.ofNat n).toNat := by decide
    have hlow := ascii_induction (P := fun c => c.isAlpha = true → 0x20 < c.toNat) hletter
      (toNat_lt_of_isAlpha hc) hc
    have hhead : t.head? = some (.scalar c) := by
      simp only [t, hscheme]
      rfl
    rw [hhead]
    exact decide_eq_true hlow
  · -- and no tab or line end stands anywhere
    have hscalar {cs : List Char} (hcs : ∀ c ∈ cs, c ∉ ['\t', '\n', '\r'])
        (hm : q ∈ Text.ofChars cs) : ∃ c, q = .scalar c ∧ c ∉ ['\t', '\n', '\r'] := by
      obtain ⟨c, hc, rfl⟩ := List.mem_map.1 hm
      exact ⟨c, rfl, hcs c hc⟩
    rcases List.mem_append.1 hq with hq | hq
    · refine hscalar (fun c hc hbad => ?_) hq
      simp only [List.mem_append, List.mem_cons] at hc
      rcases hc with hc | rfl | rfl | rfl | hc | hc
      · exact notMem_of_isSchemeChar (u.scheme_chars c hc) (List.mem_cons_of_mem _ hbad)
      · revert hbad; decide
      · revert hbad; decide
      · revert hbad; decide
      · exact u.notMem_of_mem_authority hc (List.mem_of_mem_drop (i := 7) hbad)
      · exact u.notMem_of_mem_pathText hc (List.mem_of_mem_drop (i := 2) hbad)
    · obtain ⟨c, rfl, hc⟩ := Contents.mem_queryPart hw hq
      exact ⟨c, rfl, fun hbad => hc (List.mem_cons_of_mem _ hbad)⟩

/-- A written URL is taken apart into its scheme in lower case, its authority, its path, and the
text of its parameters. -/
theorem ofText_of_writes (ht : u.Writes t) :
    ∃ ws, List.Forall₂ WritesParameter u.parameters ws ∧
      Url.ofText t = .ok ⟨Text.ofChars (u.scheme.map Char.toLower), Text.ofChars u.authority,
        Text.ofChars u.pathText, Contents.queryText ws⟩ := by
  obtain ⟨ws, hw, rfl⟩ := ht
  refine ⟨ws, hw, ?_⟩
  have hsplit : Text.ofChars (u.scheme ++ ':' :: '/' :: '/' :: (u.authority ++ u.pathText)) ++
      Contents.queryPart ws = Text.ofChars u.scheme ++ .scalar ':' :: .scalar '/' :: .scalar '/' ::
        (Text.ofChars u.authority ++ (Text.ofChars u.pathText ++ Contents.queryPart ws)) := by
    simp [Text.ofChars]
  have henders : ∀ c ∈ u.authority, c ∉ ['/', '?', '#'] := fun c hc hbad =>
    u.notMem_of_mem_authority hc (List.mem_of_mem_take (i := 3) hbad)
  obtain ⟨query, hcut, hget⟩ := u.cut_query ws
  -- from the left: scheme, authority, fragment, query
  rw [Url.ofText, strip_of_writes hw, hsplit, splitScheme_of_contents]
  dsimp only
  rw [splitAuthority_append henders (u.endsAuthority_path ws)]
  dsimp only
  rw [u.isSoundAuthority, Contents.cut_fragment hw]
  dsimp only
  rw [hcut]
  dsimp only
  rw [hget]
  rfl

/-- The parameters of a written URL come back decoded, in their order. -/
theorem parameters_of_writes (hw : List.Forall₂ WritesParameter u.parameters ws)
    (scheme authority path : Text) :
    (Url.mk scheme authority path (Contents.queryText ws)).parameters =
      u.parameters.map fun p => (Text.ofChars p.1, Text.ofChars p.2) :=
  read_queryText hw u.name_ne_nil

/-! ## Host and port -/

section HostAndPort

variable (u) (scheme path query : Text)

/-- The host and the port of the authority, nothing of which is a user's name or a bracket. -/
theorem hostAndPort_of_contents :
    (Url.mk scheme (Text.ofChars u.authority) path query).hostAndPort =
      (Text.ofChars u.host, Text.ofChars ((u.port.map decimalNat).getD [])) := by
  have hcolon : ∀ q ∈ Text.ofChars u.host, CodePoint.is ':' q = false :=
    is_eq_false_of_notMem fun hm => notMem_of_isHostChar (u.host_chars _ hm) List.mem_cons_self
  rw [hostAndPort, hostPart, Text.afterLast_eq_self (u.is_eq_false_of_mem_authority (by decide))]
  dsimp only
  rw [Text.cut_eq_self (u.is_eq_false_of_mem_authority (by decide))]
  dsimp only
  unfold Contents.authority
  -- the first colon is the one in front of the port, if there is one
  cases u.port with
  | none =>
    rw [List.append_nil, Text.cut_eq_self hcolon]
    rfl
  | some n =>
    have hport : Text.cut (·.is ':') (Text.ofChars (u.host ++ ':' :: decimalNat n)) =
        (Text.ofChars u.host, some (Text.ofChars (decimalNat n))) := by
      rw [Text.ofChars_append]
      exact Text.cut_append hcolon (by simp) _
    dsimp only
    rw [hport]
    rfl

/-- A host in lower case stays as it is. -/
theorem host?_of_contents :
    (Url.mk scheme (Text.ofChars u.authority) path query).host? = some (Text.ofChars u.host) := by
  have hpercent : ∀ q ∈ Text.ofChars u.host, CodePoint.is '%' q = false :=
    is_eq_false_of_notMem fun hm => notMem_of_isHostChar (u.host_chars _ hm) (by decide)
  have hlower : u.host.map Char.toLower = u.host := by
    refine (List.map_congr_left fun c hc => ?_).trans (List.map_id u.host)
    have hall : ∀ n < 128, isHostChar (Char.ofNat n) = true →
        (Char.ofNat n).toLower = Char.ofNat n := by decide
    exact ascii_induction (P := fun c => isHostChar c = true → c.toLower = c) hall
      (toNat_lt_of_isHostChar (u.host_chars c hc)) (u.host_chars c hc)
  rw [host?, hostAndPort_of_contents]
  split
  · next hnil => exact absurd (Text.ofChars_eq_nil_iff.1 hnil) u.host_ne_nil
  · rw [Text.cut_eq_self hpercent]
    dsimp only
    rw [Text.lowercase_ofChars fun c hc => toNat_lt_of_isHostChar (u.host_chars c hc), hlower]

end HostAndPort

/-- Digits are read as the number that they write. -/
theorem asciiNumber?_of_digits (hne : cs ≠ []) (hcs : ∀ c ∈ cs, c.isDigit = true) :
    Text.asciiNumber? (Text.ofChars cs) = some (digitsValue cs) := by
  have hfold (n : Nat) : (Text.ofChars cs).foldlM (fun n p => p.asciiDigit?.map (10 * n + ·)) n =
      some (Nat.ofDigitChars 10 cs n) := by
    clear hne
    induction cs generalizing n with
    | nil => rfl
    | cons c cs ih =>
      have hdigit : (CodePoint.scalar c).asciiDigit? = some (c.toNat - '0'.toNat) :=
        if_pos (Char.isDigit_iff_toNat.1 (hcs c List.mem_cons_self))
      change (((CodePoint.scalar c).asciiDigit?.map (10 * n + ·)).bind fun n =>
        (Text.ofChars cs).foldlM (fun n p => p.asciiDigit?.map (10 * n + ·)) n) = _
      rw [hdigit, Nat.ofDigitChars_cons]
      exact ih (fun d hd => hcs d (List.mem_cons_of_mem c hd)) _
  rw [Text.asciiNumber?, if_neg (by simpa using hne), hfold, digitsValue]

theorem port_of_contents (u : Contents) (scheme path query : Text) :
    (Url.mk scheme (Text.ofChars u.authority) path query).port = .ok u.port := by
  rw [port, hostAndPort_of_contents]
  cases hport : u.port with
  | none => rfl
  | some n =>
    have hread : Text.asciiNumber? (Text.ofChars (decimalNat n)) = some n :=
      (asciiNumber?_of_digits (decimalNat_ne_nil n) fun c => isDigit_of_mem_decimalNat).trans
        (congrArg some (digitsValue_decimalNat n))
    dsimp only [Option.map_some, Option.getD_some]
    split
    · next hnil => exact absurd (Text.ofChars_eq_nil_iff.1 hnil) (decimalNat_ne_nil n)
    · rw [hread]
      exact if_pos (u.port_range n hport).2

end Url

end SortedSets

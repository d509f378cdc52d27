import Mathlib.Data.List.Nodup
import SortedSets.Proofs.Number.Notation
import SortedSets.Proofs.Url.Written
import SortedSets.Url.Target

/-!
# The target of a written URL

A URL that gives its database and its timeout at most once each, among other parameters in any
order, is read as the host, the port, the database and the timeout that it was written from. A URL
that says something twice, has a blank parameter, writes its database in another way than the usual
one, or is of another scheme is refused.

## Main definitions

* `Target.IsMisspelled`: the texts that write no database
* `Target.ofContents`: the target of the parts that a URL is written from
* `Target.Gives`: a database, a timeout and other parameters are all that is written
* `Target.IsRefused`: what makes a URL refused

## Main results

* `Target.checkParameters_eq_ok`, `Target.checkParameters_error`: names are distinct and values are
  not blank, or the parameters are refused
* `Target.databaseNumber_decimalNat`, `Target.databaseNumber_error`: how the number of a database is
  written
* `Target.readScore?_numeral`: every timeout is read back from its text
* `Target.ofText_of_writes`: a written URL is read part by part
* `Target.written_url_read`: the target of a written URL
-/

namespace SortedSets.Target

variable {params seen : List (Text × Text)} {name : String} {value : Text} {cs : List Char}

/-! ## Parameters -/

/-- Distinct parameters that are not blank are all accepted. -/
theorem checkParameters_eq_ok (hnames : ((seen ++ params).map Prod.fst).Nodup)
    (hvalues : ∀ p ∈ params, p.2 ≠ []) : checkParameters seen params = .ok (seen ++ params) := by
  induction params generalizing seen with
  | nil => rw [List.append_nil]; rfl
  | cons p params ih =>
    obtain ⟨name, value⟩ := p
    have hnew : (seen.any fun p => p.1 = name) = false := by
      refine List.any_eq_false.2 fun q hq he => ?_
      rw [List.map_append, List.nodup_append] at hnames
      exact hnames.2.2 q.1 (List.mem_map_of_mem hq) name List.mem_cons_self (of_decide_eq_true he)
    rw [checkParameters, hnew, if_neg Bool.false_ne_true, if_neg (hvalues _ List.mem_cons_self),
      ih (by rwa [List.append_assoc]) fun q hq => hvalues q (List.mem_cons_of_mem _ hq),
      List.append_assoc]
    rfl

/-- A name that comes again is refused, and so is a blank value. -/
theorem checkParameters_error (hseen : (seen.map Prod.fst).Nodup)
    (h : ¬ ((seen ++ params).map Prod.fst).Nodup ∨ ∃ p ∈ params, p.2 = []) :
    ∃ a, checkParameters seen params = .error (.assertion a) := by
  induction params generalizing seen with
  | nil =>
    rw [List.append_nil] at h
    rcases h with h | ⟨p, hp, -⟩
    · exact absurd hseen h
    · cases hp
  | cons p params ih =>
    obtain ⟨name, value⟩ := p
    rw [checkParameters]
    split
    · exact ⟨_, rfl⟩
    · next hnew =>
      split
      · exact ⟨_, rfl⟩
      · next hvalue =>
        -- this one is accepted, so the names seen are still distinct, and what is wrong comes later
        refine ih ?_ ?_
        · have hname : ∀ x ∈ seen.map Prod.fst, x ≠ name := by
            intro x hx he
            obtain ⟨q, hq, rfl⟩ := List.mem_map.1 hx
            exact hnew (List.any_eq_true.2 ⟨q, hq, decide_eq_true he⟩)
          rw [List.map_append, List.nodup_append]
          exact ⟨hseen, List.nodup_singleton _, fun x hx y hy => List.mem_singleton.1 hy ▸ hname x hx⟩
        · refine h.imp (fun h => by rwa [List.append_assoc]) fun ⟨q, hq, hblank⟩ => ?_
          rcases List.mem_cons.1 hq with rfl | hq
          · exact absurd hblank hvalue
          · exact ⟨q, hq, hblank⟩

theorem parameter?_eq_some (hnames : (params.map Prod.fst).Nodup)
    (h : (Text.ofString name, value) ∈ params) : parameter? params name = some value := by
  induction params with
  | nil => cases h
  | cons p params ih =>
    rw [List.map_cons, List.nodup_cons] at hnames
    rcases List.mem_cons.1 h with rfl | h
    · simp [parameter?]
    · have hne : p.1 ≠ Text.ofString name := fun he =>
        hnames.1 (he ▸ List.mem_map_of_mem (f := Prod.fst) h)
      simpa [parameter?, hne] using ih hnames.2 h

theorem parameter?_eq_none (h : ∀ p ∈ params, p.1 ≠ Text.ofString name) :
    parameter? params name = none := by
  have hfind : params.find? (fun p => p.1 = Text.ofString name) = none :=
    List.find?_eq_none.2 fun p hp => by simpa using h p hp
  rw [parameter?, hfind]
  rfl

/-! ## Databases -/

/-- Of the ASCII characters the digits have a decimal value, and no others. -/
theorem decimal?_of_ascii {c : Char} (hc : c.toNat < 128) :
    (CodePoint.scalar c).decimal? = if c.isDigit then some (c.toNat - '0'.toNat) else none := by
  have hall : ∀ n < 128, (CodePoint.scalar (Char.ofNat n)).decimal? =
      if (Char.ofNat n).isDigit then some ((Char.ofNat n).toNat - '0'.toNat) else none := by decide
  exact ascii_induction (P := fun c => (CodePoint.scalar c).decimal? =
    if c.isDigit then some (c.toNat - '0'.toNat) else none) hall hc

theorem isDecimal_ofChars (hne : cs ≠ []) (hascii : ∀ c ∈ cs, c.toNat < 128) :
    (Text.ofChars cs).isDecimal = cs.all Char.isDigit := by
  have hempty : (Text.ofChars cs).isEmpty = false := by simpa [Text.ofChars] using hne
  rw [Text.isDecimal, hempty, Text.ofChars, List.all_map]
  refine Bool.eq_iff_iff.2 ?_
  simp only [Bool.not_false, Bool.true_and, List.all_eq_true, Function.comp]
  refine forall₂_congr fun c hc => ?_
  rw [decimal?_of_ascii (hascii c hc)]
  split
  · next h => simp [h]
  · next h => simp [h]

theorem foldl_decimal? (hcs : ∀ c ∈ cs, c.isDigit = true) :
    (Text.ofChars cs).foldl (fun n p => 10 * n + p.decimal?.getD 0) 0 = digitsValue cs := by
  have hfold (n : Nat) : (Text.ofChars cs).foldl (fun n p => 10 * n + p.decimal?.getD 0) n =
      Nat.ofDigitChars 10 cs n := by
    induction cs generalizing n with
    | nil => rfl
    | cons c cs ih =>
      have hc := hcs c List.mem_cons_self
      rw [Nat.ofDigitChars_cons, ← ih fun d hd => hcs d (List.mem_cons_of_mem c hd)]
      change List.foldl _ (10 * n + (CodePoint.scalar c).decimal?.getD 0) _ = _
      rw [decimal?_of_ascii (toNat_lt_of_isDigit hc), if_pos hc]
      rfl
  exact hfold 0

/-- A number begins with a zero only if it is zero. -/
theorem head?_decimalNat {n : Nat} (hn : n ≠ 0) : (decimalNat n).head? ≠ some '0' := by
  have hdigit : ∀ d < 10, d ≠ 0 → d.digitChar ≠ '0' := by decide
  induction n using Nat.strongRecOn with
  | _ n ih =>
    by_cases hlow : n < 10
    · rw [decimalNat, Nat.toDigits_of_lt_base hlow]
      simpa using hdigit n hlow hn
    · have hsplit : decimalNat n = decimalNat (n / 10) ++ [(n % 10).digitChar] :=
        Nat.toDigits_of_base_le (by decide) (Nat.le_of_not_lt hlow)
      rw [hsplit, List.head?_append_of_ne_nil _ (decimalNat_ne_nil _)]
      exact ih (n / 10) (by omega) (by omega)

/-- The decimal notation of a number is read as that number, zero included. -/
theorem databaseNumber_decimalNat (n : Nat) :
    databaseNumber (Text.ofChars (decimalNat n)) = .ok (some n) := by
  have hdigits : ∀ c ∈ decimalNat n, c.isDigit = true := fun c => isDigit_of_mem_decimalNat
  have hne : Text.ofChars (decimalNat n) ≠ [] := by simpa using decimalNat_ne_nil n
  have hdecimal : (Text.ofChars (decimalNat n)).isDecimal = true := by
    rw [isDecimal_ofChars (decimalNat_ne_nil n) fun c hc => toNat_lt_of_isDigit (hdigits c hc)]
    exact List.all_eq_true.2 hdigits
  -- a number has no leading zero, unless it is zero
  have hzero : ¬ (Text.ofChars (decimalNat n) ≠ [.scalar '0'] ∧
      (Text.ofChars (decimalNat n)).head? = some (.scalar '0')) := by
    rintro ⟨hother, hhead⟩
    have hn : n ≠ 0 := by
      rintro rfl
      exact hother rfl
    have hfirst := head?_decimalNat hn
    rw [Text.ofChars, List.head?_map, Option.map_eq_some_iff] at hhead
    obtain ⟨c, hc, hc0⟩ := hhead
    cases hc0
    exact hfirst hc
  rw [databaseNumber, if_neg hne, hdecimal, if_neg (by simp), if_neg hzero, foldl_decimal? hdigits,
    digitsValue_decimalNat]

/-- The texts that write no database: not all digits, or with a leading zero. -/
def IsMisspelled (cs : List Char) : Prop :=
  (∃ c ∈ cs, c.isDigit = false) ∨ ∃ rest, rest ≠ [] ∧ cs = '0' :: rest

theorem databaseNumber_error (hascii : ∀ c ∈ cs, c.toNat < 128) (h : IsMisspelled cs) :
    ∃ a, databaseNumber (Text.ofChars cs) = .error (.assertion a) := by
  have hcs : cs ≠ [] := by
    rcases h with ⟨c, hc, -⟩ | ⟨rest, -, rfl⟩
    · exact List.ne_nil_of_mem hc
    · exact List.cons_ne_nil _ _
  rw [databaseNumber, if_neg (by simpa using hcs), isDecimal_ofChars hcs hascii]
  split
  · exact ⟨_, rfl⟩
  · next hall =>
    have hdigits : cs.all Char.isDigit = true := by simpa using hall
    -- all characters are digits, so that it is the leading zero that is refused
    have hall : ¬ ∃ c ∈ cs, c.isDigit = false := by
      rintro ⟨c, hc, hdigit⟩
      cases (List.all_eq_true.1 hdigits c hc).symm.trans hdigit
    obtain ⟨rest, hrest, rfl⟩ := h.resolve_left hall
    rw [if_pos ⟨by simpa [Text.ofChars] using hrest, rfl⟩]
    exact ⟨_, rfl⟩

/-- A text is empty, or a number, or is refused. -/
theorem databaseNumber_cases (t : Text) :
    (t = [] ∧ databaseNumber t = .ok none) ∨ (∃ n, databaseNumber t = .ok (some n)) ∨
      ∃ a, databaseNumber t = .error (.assertion a) := by
  rw [databaseNumber]
  split
  · next ht => exact .inl ⟨ht, rfl⟩
  · split
    · exact .inr (.inr ⟨_, rfl⟩)
    · split
      · exact .inr (.inr ⟨_, rfl⟩)
      · exact .inr (.inl ⟨_, rfl⟩)

/-! ## Timeouts -/

theorem numeral?_ofChars (hascii : ∀ c ∈ cs, c.toNat < 128) :
    (Text.ofChars cs).numeral? = some cs := by
  induction cs with
  | nil => rfl
  | cons c cs ih =>
    have hc : (CodePoint.scalar c).numeralChar? = some c :=
      if_pos (decide_eq_true (hascii c List.mem_cons_self))
    have hrest := ih fun d hd => hascii d (List.mem_cons_of_mem c hd)
    rw [Text.numeral?] at hrest ⊢
    change List.mapM _ (.scalar c :: Text.ofChars cs) = _
    rw [List.mapM_cons, hc, hrest]
    rfl

/-- Every score is read back from its text, the infinities and the value that is not a number too.
-/
theorem readScore?_numeral (x : Binary64) :
    (Text.ofChars x.text).numeral?.bind readScore? = some x := by
  cases x with
  | nan => rfl
  | infinity negative => cases negative <;> rfl
  | finite negative m =>
    have hascii : ∀ c ∈ (Binary64.finite negative m).text, c.toNat < 128 := fun c hc =>
      toNat_lt_of_isNotationChar (m.isNotation_text.chars_signed negative c hc)
    rw [numeral?_ofChars hascii]
    exact readScore?_text negative m

/-! ## Written URLs -/

open Url (Contents)

variable {u : Contents} {t : Text}

/-- The names and values of parameters, as texts. -/
def parameterTexts (ps : List (List Char × List Char)) : List (Text × Text) :=
  ps.map fun p => (Text.ofChars p.1, Text.ofChars p.2)

/-- What the parts of a written URL mean, if its scheme is the right one. -/
def ofContents (u : Contents) : Except Error Target := do
  let params ← checkParameters [] (parameterTexts u.parameters)
  let db ← databaseOf (Text.ofChars u.pathText) params
  return ⟨Text.ofChars u.host, u.port.getD defaultPort, db, ← timeoutOf params⟩

/-- A written URL is read part by part; the scheme comes first. -/
theorem ofText_of_writes (ht : u.Writes t) :
    ofText t = if u.scheme.map Char.toLower = "redis".toList then ofContents u
      else .error (.assertion (.urlScheme (.text (Text.ofChars (u.scheme.map Char.toLower))))) := by
  obtain ⟨ws, hw, hurl⟩ := Url.ofText_of_writes ht
  have hscheme : Text.ofChars (u.scheme.map Char.toLower) = scheme ↔
      u.scheme.map Char.toLower = "redis".toList :=
    ⟨fun h => Text.ofChars_injective h, congrArg Text.ofChars⟩
  have hport : ¬ u.port = some 0 := fun h => absurd (u.port_range 0 h).1 (by decide)
  -- a port that was written is not zero, and counts as given
  have hparts : ofParts ⟨Text.ofChars (u.scheme.map Char.toLower), Text.ofChars u.authority,
      Text.ofChars u.pathText, Contents.queryText ws⟩ = ofContents u := by
    rw [ofParts, Url.parameters_of_writes hw, Url.host?_of_contents, Url.port_of_contents, ofContents]
    simp only [Option.getD_some, bind, Except.bind, hport, if_false]
    rfl
  rw [ofText, hurl, ← hparts]
  by_cases h : u.scheme.map Char.toLower = "redis".toList
  · rw [if_pos h]
    exact if_neg (not_not.2 (hscheme.2 h))
  · rw [if_neg h]
    exact if_pos fun he => h (hscheme.1 he)

/-- The database of the path comes first, then that of the parameters. -/
theorem databaseOf_pathText (u : Contents) (params : List (Text × Text)) :
    databaseOf (Text.ofChars u.pathText) params = (do
      let fromPath ← databaseNumber (Text.ofChars (u.path.getD []))
      let fromQuery ← databaseNumber ((parameter? params "db").getD [])
      match fromPath, fromQuery with
      | some a, some b => throw (.assertion (.twoDatabases a b))
      | some a, none => return some a
      | none, b => return b) := by
  unfold Contents.pathText
  cases u.path with
  | none => rfl
  | some cs => rfl

/-- One database that is misspelled is refused, and so are two, however they are spelled. -/
theorem databaseOf_error {params : List (Text × Text)}
    (h : (∃ a, databaseNumber (Text.ofChars (u.path.getD [])) = .error (.assertion a)) ∨
      (∃ a, databaseNumber ((parameter? params "db").getD []) = .error (.assertion a)) ∨
      Text.ofChars (u.path.getD []) ≠ [] ∧ (parameter? params "db").getD [] ≠ []) :
    ∃ a, databaseOf (Text.ofChars u.pathText) params = .error (.assertion a) := by
  rw [databaseOf_pathText]
  rcases databaseNumber_cases (Text.ofChars (u.path.getD [])) with
    ⟨hempty, hpath⟩ | ⟨n, hpath⟩ | ⟨a, hpath⟩
  · -- no database in the path, so that of the parameters is misspelled
    rcases h with ⟨a, ha⟩ | ⟨a, ha⟩ | ⟨hne, -⟩
    · cases hpath.symm.trans ha
    · rw [hpath, ha]
      exact ⟨a, rfl⟩
    · exact absurd hempty hne
  · rw [hpath]
    rcases databaseNumber_cases ((parameter? params "db").getD []) with
      ⟨hempty, hquery⟩ | ⟨m, hquery⟩ | ⟨a, hquery⟩
    · rcases h with ⟨a, ha⟩ | ⟨a, ha⟩ | ⟨-, hne⟩
      · cases hpath.symm.trans ha
      · cases hquery.symm.trans ha
      · exact absurd hempty hne
    · rw [hquery]
      exact ⟨_, rfl⟩
    · rw [hquery]
      exact ⟨a, rfl⟩
  · rw [hpath]
    exact ⟨a, rfl⟩

/-! ## What is given -/

/-- A database in the path or as a parameter, a timeout, and other parameters are all that a URL is
written from. The parameters stand in any order; no name comes twice, and none is blank. -/
structure Gives (u : Contents) (inPath inQuery : Option Nat) (timeout : Option Binary64)
    (others : List (List Char × List Char)) : Prop where
  scheme : u.scheme.map Char.toLower = "redis".toList
  path : u.path.getD [] = (inPath.map decimalNat).getD []
  parameters : u.parameters.Perm
    ((inQuery.map fun n => ("db".toList, decimalNat n)).toList ++
      ((timeout.map fun x => ("timeout".toList, x.text)).toList ++ others))
  once : inPath = none ∨ inQuery = none
  others_nodup : (others.map Prod.fst).Nodup
  others_name : ∀ p ∈ others, p.1 ≠ "db".toList ∧ p.1 ≠ "timeout".toList
  others_value : ∀ p ∈ others, p.2 ≠ []

/-- What makes a URL refused. -/
inductive IsRefused (u : Contents) : Prop where
  | scheme (h : u.scheme.map Char.toLower ≠ "redis".toList)
  | repeatedName (h : ¬ (u.parameters.map Prod.fst).Nodup)
  | blankValue {name : List Char} (h : (name, []) ∈ u.parameters)
  | twoDatabases {path value : List Char} (hpath : u.path = some path) (hne : path ≠ [])
    (h : ("db".toList, value) ∈ u.parameters)
  | databaseInPath {path : List Char} (hpath : u.path = some path)
    (hascii : ∀ c ∈ path, c.toNat < 128) (h : IsMisspelled path)
  | databaseInQuery {value : List Char} (hvalue : ("db".toList, value) ∈ u.parameters)
    (hascii : ∀ c ∈ value, c.toNat < 128) (h : IsMisspelled value)

section Given

variable {ps : List (List Char × List Char)} {inPath inQuery : Option Nat} {timeout : Option Binary64}
  {others : List (List Char × List Char)}

theorem nodup_parameterTexts :
    ((parameterTexts ps).map Prod.fst).Nodup ↔ (ps.map Prod.fst).Nodup := by
  have hnames : (parameterTexts ps).map Prod.fst = (ps.map Prod.fst).map Text.ofChars := by
    simp [parameterTexts]
  rw [hnames, List.nodup_map_iff Text.ofChars_injective]

theorem value_parameterTexts :
    (∀ p ∈ parameterTexts ps, p.2 ≠ []) ↔ ∀ p ∈ ps, p.2 ≠ [] := by
  simp only [parameterTexts, List.forall_mem_map, ne_eq, Text.ofChars_eq_nil_iff]

theorem parameter?_of_mem (hnames : (ps.map Prod.fst).Nodup) (h : (name.toList, cs) ∈ ps) :
    parameter? (parameterTexts ps) name = some (Text.ofChars cs) :=
  parameter?_eq_some (nodup_parameterTexts.2 hnames) (List.mem_map.2 ⟨_, h, rfl⟩)

theorem parameter?_of_notMem (h : ∀ p ∈ ps, p.1 ≠ name.toList) :
    parameter? (parameterTexts ps) name = none := by
  refine parameter?_eq_none fun p hp he => ?_
  obtain ⟨q, hq, rfl⟩ := List.mem_map.1 hp
  exact h q hq (Text.ofChars_injective he)

theorem text_ne_nil (x : Binary64) : x.text ≠ [] := by
  intro h
  have hread := readScore?_numeral x
  rw [h] at hread
  cases hread

theorem Gives.nodup (h : Gives u inPath inQuery timeout others) :
    (u.parameters.map Prod.fst).Nodup := by
  have hdb : "db".toList ∉ others.map Prod.fst := fun hm => by
    obtain ⟨p, hp, hname⟩ := List.mem_map.1 hm
    exact (h.others_name p hp).1 hname
  have htimeout : "timeout".toList ∉ others.map Prod.fst := fun hm => by
    obtain ⟨p, hp, hname⟩ := List.mem_map.1 hm
    exact (h.others_name p hp).2 hname
  rw [(h.parameters.map Prod.fst).nodup_iff]
  cases inQuery <;> cases timeout <;> simp_all [h.others_nodup]

theorem Gives.mem_parameters (h : Gives u inPath inQuery timeout others) {p : List Char × List Char} :
    p ∈ u.parameters ↔ (∃ n, inQuery = some n ∧ p = ("db".toList, decimalNat n)) ∨
      (∃ x, timeout = some x ∧ p = ("timeout".toList, x.text)) ∨ p ∈ others := by
  rw [h.parameters.mem_iff, List.mem_append, List.mem_append]
  cases inQuery <;> cases timeout <;> simp

theorem Gives.value_ne_nil (h : Gives u inPath inQuery timeout others) :
    ∀ p ∈ u.parameters, p.2 ≠ [] := by
  intro p hp
  rcases h.mem_parameters.1 hp with ⟨n, -, rfl⟩ | ⟨x, -, rfl⟩ | hp
  · exact decimalNat_ne_nil n
  · exact text_ne_nil x
  · exact h.others_value p hp

theorem Gives.parameter?_db (h : Gives u inPath inQuery timeout others) :
    parameter? (parameterTexts u.parameters) "db" =
      inQuery.map fun n => Text.ofChars (decimalNat n) := by
  have hne : "db".toList ≠ "timeout".toList := by decide
  cases hq : inQuery with
  | some n => exact parameter?_of_mem h.nodup (h.mem_parameters.2 (.inl ⟨n, hq, rfl⟩))
  | none =>
    refine parameter?_of_notMem fun p hp => ?_
    rcases h.mem_parameters.1 hp with ⟨n, hn, -⟩ | ⟨x, -, rfl⟩ | hp
    · cases hq.symm.trans hn
    · exact hne.symm
    · exact (h.others_name p hp).1

theorem Gives.parameter?_timeout (h : Gives u inPath inQuery timeout others) :
    parameter? (parameterTexts u.parameters) "timeout" =
      timeout.map fun x => Text.ofChars x.text := by
  have hne : "db".toList ≠ "timeout".toList := by decide
  cases ht : timeout with
  | some x => exact parameter?_of_mem h.nodup (h.mem_parameters.2 (.inr (.inl ⟨x, ht, rfl⟩)))
  | none =>
    refine parameter?_of_notMem fun p hp => ?_
    rcases h.mem_parameters.1 hp with ⟨n, -, rfl⟩ | ⟨x, hx, -⟩ | hp
    · exact hne
    · cases ht.symm.trans hx
    · exact (h.others_name p hp).2

/-- A number of a database that may be missing is read as it is. -/
theorem databaseNumber_getD (db : Option Nat) :
    databaseNumber (Text.ofChars ((db.map decimalNat).getD [])) = .ok db := by
  cases db with
  | none => rfl
  | some n => exact databaseNumber_decimalNat n

theorem Gives.databaseOf (h : Gives u inPath inQuery timeout others) :
    databaseOf (Text.ofChars u.pathText) (parameterTexts u.parameters) =
      .ok (inPath.or inQuery) := by
  have hquery : databaseNumber ((parameter? (parameterTexts u.parameters) "db").getD []) =
      .ok inQuery := by
    rw [h.parameter?_db, ← databaseNumber_getD inQuery]
    cases inQuery <;> rfl
  rw [databaseOf_pathText, h.path, databaseNumber_getD, hquery]
  rcases h.once with rfl | rfl
  · rfl
  · cases inPath <;> rfl

theorem Gives.timeoutOf (h : Gives u inPath inQuery timeout others) :
    timeoutOf (parameterTexts u.parameters) = .ok timeout := by
  rw [Target.timeoutOf, h.parameter?_timeout]
  cases timeout with
  | none => rfl
  | some x =>
    simp only [Option.map_some]
    rw [readScore?_numeral x]

/-- What is given once is read. -/
theorem Gives.ofContents (h : Gives u inPath inQuery timeout others) :
    ofContents u = .ok ⟨Text.ofChars u.host, u.port.getD 6379, inPath.or inQuery, timeout⟩ := by
  have hparams : checkParameters [] (parameterTexts u.parameters) =
      .ok (parameterTexts u.parameters) :=
    checkParameters_eq_ok (nodup_parameterTexts.2 h.nodup) (value_parameterTexts.2 h.value_ne_nil)
  rw [Target.ofContents, hparams]
  change (Target.databaseOf _ _ >>= fun db => Target.timeoutOf _ >>= fun timeout => _) = _
  rw [h.databaseOf, h.timeoutOf]
  rfl

end Given

/-! ## What is refused -/

/-- A URL whose scheme is the right one is refused for a name, a value, or its database. -/
theorem IsRefused.ofContents (h : IsRefused u)
    (hscheme : u.scheme.map Char.toLower = "redis".toList) :
    ∃ a, ofContents u = .error (.assertion a) := by
  -- the parameters are checked before the database is
  by_cases hok : (u.parameters.map Prod.fst).Nodup ∧ ∀ p ∈ u.parameters, p.2 ≠ []
  · obtain ⟨hnames, hvalues⟩ := hok
    have hparams : checkParameters [] (parameterTexts u.parameters) =
        .ok (parameterTexts u.parameters) :=
      checkParameters_eq_ok (nodup_parameterTexts.2 hnames) (value_parameterTexts.2 hvalues)
    obtain ⟨a, ha⟩ : ∃ a, Target.databaseOf (Text.ofChars u.pathText) (parameterTexts u.parameters) =
        .error (.assertion a) := by
      refine databaseOf_error ?_
      cases h with
      | scheme h => exact absurd hscheme h
      | repeatedName h => exact absurd hnames h
      | blankValue h => exact absurd rfl (hvalues _ h)
      | twoDatabases hpath hne hmem =>
        rw [hpath, parameter?_of_mem hnames hmem]
        exact .inr (.inr ⟨by simpa using hne, by simpa using hvalues _ hmem⟩)
      | databaseInPath hpath hascii h =>
        rw [hpath]
        exact .inl (databaseNumber_error hascii h)
      | databaseInQuery hmem hascii h =>
        rw [parameter?_of_mem hnames hmem]
        exact .inr (.inl (databaseNumber_error hascii h))
    refine ⟨a, ?_⟩
    rw [Target.ofContents, hparams]
    change (Target.databaseOf _ _ >>= _) = _
    rw [ha]
    rfl
  · have hbad : ¬ ((parameterTexts u.parameters).map Prod.fst).Nodup ∨
        ∃ p ∈ parameterTexts u.parameters, p.2 = [] := by
      rw [nodup_parameterTexts]
      by_contra hnot
      rw [not_or, not_not] at hnot
      refine hok ⟨hnot.1, value_parameterTexts.1 fun p hp hblank => hnot.2 ⟨p, hp, hblank⟩⟩
    obtain ⟨a, ha⟩ : ∃ a, checkParameters [] (parameterTexts u.parameters) = .error (.assertion a) :=
      checkParameters_error List.nodup_nil hbad
    refine ⟨a, ?_⟩
    rw [Target.ofContents, ha]
    rfl

/-- A URL that gives a database at most once, in its path or as a parameter, a timeout at most once,
and any other parameters, in any order and however they are escaped, is read as exactly what it was
written from. One that repeats a name, leaves a value blank, gives two databases, writes its
database in ASCII other than as a decimal number without leading zeros, or is of another scheme, is
refused. -/
theorem written_url_read (ht : u.Writes t) :
    (∀ inPath inQuery timeout others, Gives u inPath inQuery timeout others →
      ofText t = .ok ⟨Text.ofChars u.host, u.port.getD 6379, inPath.or inQuery, timeout⟩) ∧
    (IsRefused u → ∃ a, ofText t = .error (.assertion a)) := by
  rw [ofText_of_writes ht]
  constructor
  · intro inPath inQuery timeout others h
    rw [if_pos h.scheme, h.ofContents]
  · intro h
    split
    · next hscheme => exact h.ofContents hscheme
    · exact ⟨_, rfl⟩

/-- The database zero and a negative zero as the timeout, around a parameter that has to be escaped.
-/
def zeroContents : Contents where
  scheme := "redis".toList
  host := "h-1.x".toList
  port := some 65535
  path := some []
  parameters := [("timeout".toList, "-0.0".toList), ("a b".toList, ['\u00E9']), ("db".toList, ['0'])]
  scheme_first := ⟨'r', "edis".toList, rfl, rfl⟩
  scheme_chars := List.all_eq_true.1 rfl
  host_ne_nil := by decide
  host_chars := List.all_eq_true.1 rfl
  port_range := by rintro n ⟨⟩; decide
  path_chars := by rintro cs ⟨⟩; exact List.all_eq_true.1 rfl
  name_ne_nil := by decide

/-- The database zero in the path, and again as a parameter. -/
def twiceContents : Contents where
  scheme := "redis".toList
  host := "h".toList
  port := none
  path := some ['0']
  parameters := [("db".toList, ['0'])]
  scheme_first := ⟨'r', "edis".toList, rfl, rfl⟩
  scheme_chars := List.all_eq_true.1 rfl
  host_ne_nil := by decide
  host_chars := List.all_eq_true.1 rfl
  port_range := by rintro n ⟨⟩
  path_chars := by rintro cs ⟨⟩; exact List.all_eq_true.1 rfl
  name_ne_nil := by decide

/-- A database that is zero is one: it is read, and given twice it is refused. -/
theorem written_url_read_zero :
    let t := Text.ofString "redis://h-1.x:65535/?timeout=-0.0&a+b=%C3%a9&db=0"
    let t' := Text.ofString "redis://h/0?db=0"
    zeroContents.Writes t ∧
      Gives zeroContents none (some 0) (some (.finite true Magnitude.zero))
        [("a b".toList, ['\u00E9'])] ∧
      ofText t = .ok ⟨Text.ofString "h-1.x", 65535, some 0, some (.finite true Magnitude.zero)⟩ ∧
      twiceContents.Writes t' ∧ IsRefused twiceContents ∧ ∃ a, ofText t' = .error (.assertion a) := by
  intro t t'
  have hescaped : Url.Escapes ['\u00E9'] "%C3%a9".toList :=
    .percent (v := "%C3%a9".toList) (w := [])
      (.cons (v := "%C3".toList) ⟨'C', by decide, '3', by decide, rfl⟩
        (.cons (v := "%a9".toList) ⟨'a', by decide, '9', by decide, rfl⟩ .nil)) .nil
  have hwritten : zeroContents.Writes t := by
    refine ⟨["timeout=-0.0".toList, "a+b=%C3%a9".toList, "db=0".toList], ?_, by decide +kernel⟩
    refine .cons (.named (n := "timeout".toList) (v := "-0.0".toList) ?_ ?_)
      (.cons (.named (n := "a+b".toList) ?_ hescaped)
        (.cons (.named (n := "db".toList) (v := ['0']) ?_ ?_) .nil))
    · exact Url.escapes_self (List.all_eq_true.1 rfl)
    · exact Url.escapes_self (List.all_eq_true.1 rfl)
    · exact .plain (by decide) (.plus (.plain (by decide) .nil))
    · exact Url.escapes_self (List.all_eq_true.1 rfl)
    · exact Url.escapes_self (List.all_eq_true.1 rfl)
  have hgives : Gives zeroContents none (some 0) (some (.finite true Magnitude.zero))
      [("a b".toList, ['\u00E9'])] := {
    scheme := by decide
    path := rfl
    parameters := by decide +kernel
    once := .inl rfl
    others_nodup := by decide
    others_name := by decide
    others_value := by decide }
  have htwice : twiceContents.Writes t' :=
    ⟨["db=0".toList], .cons (.named (n := "db".toList) (v := ['0']) (Url.escapes_self (List.all_eq_true.1 rfl))
      (Url.escapes_self (List.all_eq_true.1 rfl))) .nil, by decide +kernel⟩
  have hagain : ("db".toList, ['0']) ∈ twiceContents.parameters := List.mem_cons_self
  have hrefused : IsRefused twiceContents := .twoDatabases rfl (List.cons_ne_nil _ _) hagain
  exact ⟨hwritten, hgives, (written_url_read hwritten).1 _ _ _ _ hgives, htwice, hrefused,
    (written_url_read htwice).2 hrefused⟩

end SortedSets.Target

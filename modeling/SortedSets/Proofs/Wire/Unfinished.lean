import SortedSets.Proofs.Wire.RoundTrip

/-!
# Requests broken off

A request is appended to what was written before while its arguments are converted, one after the
other. At the first argument that has no bytes the writing ends with an error, and what was appended
until then stays: the header, which counts all arguments, and the arguments in front. To a server the
missing arguments are still to come, so that nothing behind them is read as the request that it is.
The buffer is assumed to be none of the arguments.

## Main definitions

* `Value.Fails`: how an argument fails
* `Wire.brokenOff`: a request of which some arguments are missing
* `Wire.AllOrNothing`: the whole request is appended, or nothing is

## Main results

* `Wire.argument_eq_error_iff`: which arguments fail, and how
* `Wire.sendable_or_fails`: all arguments can be sent, or there is a first that fails
* `Wire.write_of_fails`, `Wire.exists_fails_of_encode`: what is written up to an argument that fails,
  and that nothing else can go wrong
* `Wire.readRequests_brokenOff`: no stream is read past a request that was broken off
* `Wire.buffer_after_write`: what a buffer holds once a request was written into it
-/

namespace SortedSets

/-! ## Arguments that fail -/

namespace Value

/-- How an argument fails: a score that is no number has no text, a text with a surrogate has no
encoding, and what is no byte string, no text, no integer and no score is no argument. -/
inductive Fails : Value → Error → Prop where
  | score : Fails (.float .nan) (.invalid .scoreNaN)
  | text {v : Value} {t : Text} {i : Fin 0x800} (h : v.text? = some t)
      (hi : CodePoint.surrogate i ∈ t) : Fails v .textEncoding
  | kind {v : Value} (ht : v.text? = .none) (hb : v.bytes? = .none) (hn : ∀ n, v ≠ .int n)
      (hx : ∀ x, v ≠ .float x) : Fails v (.notEncodable v)

/-- A text fails to be encoded if it holds a surrogate, and only then. -/
theorem encodeText_eq_error_iff {t : Text} {e : Error} :
    encodeText t = .error e ↔ e = .textEncoding ∧ ∃ i, CodePoint.surrogate i ∈ t := by
  have hnone : t.utf8? = .none ↔ ∃ i, CodePoint.surrogate i ∈ t := by
    rw [Option.eq_none_iff_forall_ne_some, ← not_exists, Text.exists_utf8?_iff]
    push Not
    rfl
  rw [encodeText, ← hnone]
  cases t.utf8? <;> simp [eq_comm]

end Value

namespace Wire

variable {v bad : Value} {e : Error} {args before after : List Value} {bss : List Bytes} {n : Nat}

/-- An argument that has no bytes fails in the way that its kind says. -/
theorem argument_eq_error_iff : argument v = .error e ↔ v.Fails e := by
  constructor
  · intro h
    unfold argument at h
    split at h
    · cases h
    · cases h
    · cases h
    · next x =>
      -- of the scores only the one that is no number
      cases x with
      | nan => cases h; exact .score
      | infinity | finite => cases h
    · next hbytes hbuffer hint hfloat =>
      split at h
      · next t ht =>
        obtain ⟨rfl, i, hi⟩ := Value.encodeText_eq_error_iff.1 h
        exact .text ht hi
      · next ht =>
        cases h
        refine .kind ht ?_ hint hfloat
        cases v with
        | bytes bs => exact absurd rfl (hbytes bs)
        | buffer bs => exact absurd rfl (hbuffer bs)
        | _ => rfl
  · intro h
    cases h with
    | score => rfl
    | text ht hi =>
      have henc := Value.encodeText_eq_error_iff.2 ⟨rfl, _, hi⟩
      unfold argument
      split
      all_goals simp_all [Value.text?]
    | kind ht hb hn hx =>
      unfold argument
      split
      all_goals simp_all [Value.bytes?]

/-- All arguments can be sent, or there is a first that fails. -/
theorem sendable_or_fails (args : List Value) :
    (∀ v ∈ args, v.Sendable) ∨
      ∃ before bad after bss e, args = before ++ bad :: after ∧
        List.Forall₂ Value.Converts before bss ∧ bad.Fails e := by
  induction args with
  | nil => exact .inl nofun
  | cons v args ih =>
    cases hv : argument v with
    | error e => exact .inr ⟨[], v, args, [], e, rfl, .nil, argument_eq_error_iff.1 hv⟩
    | ok bs =>
      have hv := argument_eq_ok_iff.1 hv
      rcases ih with hs | ⟨before, bad, after, bss, e, rfl, hf, hb⟩
      · exact .inl (List.forall_mem_cons.2 ⟨Value.sendable_iff.2 ⟨bs, hv⟩, hs⟩)
      · exact .inr ⟨v :: before, bad, after, bs :: bss, e, rfl, .cons hv hf, hb⟩

/-! ## What was appended -/

/-- A request of so many arguments of which only these follow. -/
def brokenOff (n : Nat) (bss : List Bytes) : Bytes :=
  header .array n ++ bss.flatMap bulk

theorem writeArguments_of_fails (hf : List.Forall₂ Value.Converts before bss) (hb : bad.Fails e)
    (out : Bytes) :
    writeArguments out (before ++ bad :: after) = (out ++ bss.flatMap bulk, .error e) := by
  induction hf generalizing out with
  | nil => simp [writeArguments, argument_eq_error_iff.2 hb]
  | cons hv _ ih =>
    rw [List.cons_append, writeArguments, argument_eq_ok_iff.2 hv]
    simp [ih]

/-- What was appended when an argument fails stays: the header and the arguments in front. -/
theorem write_of_fails (hf : List.Forall₂ Value.Converts before bss) (hb : bad.Fails e)
    (out : Bytes) :
    write out (before ++ bad :: after) =
      (out ++ brokenOff (before ++ bad :: after).length bss, .error e) := by
  rw [write, writeArguments_of_fails hf hb, brokenOff, List.append_assoc]

theorem encode_of_fails (hf : List.Forall₂ Value.Converts before bss) (hb : bad.Fails e) :
    encode (before ++ bad :: after) = .error e := by
  rw [encode, write_of_fails hf hb]

/-- A request that cannot be made has an argument that fails. -/
theorem exists_fails_of_encode (h : encode args = .error e) : ∃ v ∈ args, v.Fails e := by
  rcases sendable_or_fails args with hs | ⟨before, bad, after, bss, e', rfl, hf, hb⟩
  · obtain ⟨bss, hf⟩ := exists_converted hs
    cases h.symm.trans (encode_eq_ok_iff.2 ⟨bss, hf, rfl⟩)
  · cases h.symm.trans (encode_of_fails hf hb)
    exact ⟨bad, by simp, hb⟩

/-! ## What a server reads -/

theorem readRequests_append (sent : List (List Bytes)) (rest : Bytes) :
    readRequests (sent.flatMap request ++ rest) = (readRequests rest).map (sent ++ ·) := by
  induction sent with
  | nil => simp
  | cons args sent ih =>
    rw [List.flatMap_cons, List.append_assoc, readRequests_request_append, ih, Option.map_map]
    rfl

/-- A request begins with another mark than a byte string. -/
theorem readBulk_flatMap_request (later : List (List Bytes)) :
    readBulk (later.flatMap request) = none := by
  cases later with
  | nil => rfl
  | cons args later => simp [request, header, readBulk, readHeader, Mark.byte]

/-- Byte strings are not read past the end of those that are there. -/
theorem readBulks_of_missing {rest : Bytes} (h : bss.length < n) (hrest : readBulk rest = none) :
    readBulks n (bss.flatMap bulk ++ rest) = none := by
  -- each byte string that is there takes one off the count, which does not reach zero
  induction bss generalizing n with
  | nil =>
    cases n with
    | zero => cases h
    | succ n => simp [readBulks, hrest]
  | cons bs bss ih =>
    cases n with
    | zero => cases h
    | succ n =>
      have hbulk : readBulk (bulk bs ++ (bss.flatMap bulk ++ rest)) =
          some (bs, bss.flatMap bulk ++ rest) := readBulk_iff.2 rfl
      simp [readBulks, hbulk, ih (Nat.lt_of_succ_lt_succ h)]

/-- No stream is read past a request that was broken off, whichever requests follow. -/
theorem readRequests_brokenOff (h : bss.length < n) (sent later : List (List Bytes)) :
    readRequests (sent.flatMap request ++ brokenOff n bss ++ later.flatMap request) = none := by
  have hheader : readHeader .array (brokenOff n bss ++ later.flatMap request) =
      some (n, bss.flatMap bulk ++ later.flatMap request) :=
    readHeader_iff.2 (by simp [brokenOff])
  have hrequest : readRequest (brokenOff n bss ++ later.flatMap request) = none := by
    simp [readRequest, hheader, readBulks_of_missing h (readBulk_flatMap_request later)]
  have hne : brokenOff n bss ++ later.flatMap request ≠ [] := by simp [brokenOff, header]
  rw [List.append_assoc, readRequests_append, readRequests, if_neg hne]
  split
  · rfl
  · next hsome => cases hrequest.symm.trans hsome

/-! ## All or nothing -/

/-- The whole request is appended, or the buffer stays as it was. -/
def AllOrNothing (out : Bytes) (args : List Value) : Prop :=
  match encode args with
  | .ok data => write out args = (out ++ data, .ok ())
  | .error e => write out args = (out, .error e)

/-- A request that is written into a buffer is appended whole if all of its arguments can be sent. If
one cannot, the first such argument is the error, and behind what the buffer held stay the header and
the arguments in front of it: the buffer is never as it was. If it held whole requests, the stream is
not read to its end, whichever requests follow.

It is assumed that the buffer is none of the arguments. An argument is a value, which stays as it is
while the buffer grows; a buffer that is written into itself is not covered. -/
theorem buffer_after_write (out : Bytes) (args : List Value) :
    (AllOrNothing out args ↔ ∀ v ∈ args, v.Sendable) ∧
      ((∃ data, encode args = .ok data ∧ write out args = (out ++ data, .ok ())) ∨
        ∃ before bad after bss e, args = before ++ bad :: after ∧
          List.Forall₂ Value.Converts before bss ∧ bad.Fails e ∧ encode args = .error e ∧
          write out args = (out ++ brokenOff args.length bss, .error e) ∧
          ∀ sent later : List (List Bytes), out = sent.flatMap request →
            readRequests ((write out args).1 ++ later.flatMap request) = none) := by
  rcases sendable_or_fails args with hs | ⟨before, bad, after, bss, e, rfl, hf, hb⟩
  · -- the whole request is appended
    obtain ⟨bss, hf⟩ := exists_converted hs
    have hencode : encode args = .ok (request bss) := encode_eq_ok_iff.2 ⟨bss, hf, rfl⟩
    have hwrite := write_of_converts hf out
    refine ⟨iff_of_true ?_ hs, .inl ⟨_, hencode, hwrite⟩⟩
    rw [AllOrNothing, hencode]
    exact hwrite
  · -- the header at least is appended, and it counts the argument that failed
    have hencode : encode (before ++ bad :: after) = .error e := encode_of_fails hf hb
    have hwrite : write out (before ++ bad :: after) = _ := write_of_fails hf hb out
    refine ⟨iff_of_false ?_ ?_, .inr ⟨before, bad, after, bss, e, rfl, hf, hb, hencode, hwrite, ?_⟩⟩
    · rw [AllOrNothing, hencode]
      intro h
      have hout := congrArg Prod.fst (hwrite.symm.trans h)
      simp [brokenOff, header] at hout
    · intro h
      obtain ⟨bs, hbs⟩ := Value.sendable_iff.1 (h bad (by simp))
      cases (argument_eq_ok_iff.2 hbs).symm.trans (argument_eq_error_iff.2 hb)
    · rintro sent later rfl
      rw [hwrite]
      refine readRequests_brokenOff ?_ sent later
      simp [hf.length_eq]

/-- An absent value behind a byte string leaves the header and the byte string in the buffer. -/
theorem not_all_or_nothing : ¬ ∀ out args, AllOrNothing out args := by
  intro h
  have hencode : encode [.bytes (Bytes.ascii "A"), .none] = .error (.notEncodable .none) :=
    encode_of_fails (.cons (.bytes _) .nil) (.kind rfl rfl nofun nofun)
  have hkept := h (request []) [.bytes (Bytes.ascii "A"), .none]
  rw [AllOrNothing, hencode] at hkept
  exact absurd (congrArg (fun r => r.1.length) hkept) (by decide)

end Wire

end SortedSets

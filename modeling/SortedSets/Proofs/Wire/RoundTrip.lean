import Mathlib.Data.List.Forall2
import SortedSets.Proofs.Wire.Requests

/-!
# Arguments read back

An argument is converted to bytes by its type alone: byte strings stay as they are, texts become
UTF-8, integers decimal text and scores the text of a score. A server that reads requests off the
wire gets these bytes back, argument by argument and command by command.

## Main definitions

* `Value.Sendable`: the values that may be arguments
* `Value.Converts`: the bytes that a value is converted to

## Main results

* `Wire.argument_eq_ok_iff`, `Value.sendable_iff`: which values have bytes, and which bytes
* `Wire.encode_eq_ok_iff`: the request of a list of arguments
* `Wire.requests_read_back`: commands are read back from the concatenation of their requests
-/

namespace SortedSets

/-! ## Conversion -/

/-- A text has an encoding exactly if it holds no surrogate. -/
theorem Text.exists_utf8?_iff {t : Text} :
    (∃ bs, t.utf8? = some bs) ↔ ∀ i, CodePoint.surrogate i ∉ t := by
  induction t with
  | nil => simp
  | cons p t ih =>
    cases p with
    | scalar c =>
      rw [utf8?_scalar_cons]
      cases ht : utf8? t <;> simp_all
    | surrogate i =>
      rw [utf8?_surrogate_cons]
      exact iff_of_false nofun fun h => h i List.mem_cons_self

namespace Value

/-- The values that may be arguments: byte strings, texts without surrogates, integers, and scores
that are numbers. -/
inductive Sendable : Value → Prop where
  | bytes (bs : Bytes) : Sendable (.bytes bs)
  | buffer (bs : Bytes) : Sendable (.buffer bs)
  | int (n : Int) : Sendable (.int n)
  | float {x : Binary64} (h : x ≠ .nan) : Sendable (.float x)
  | text {v : Value} {t : Text} (h : v.text? = some t) (hs : ∀ i, CodePoint.surrogate i ∉ t) :
      Sendable v

/-- The bytes that a value is converted to: those of a byte string, the UTF-8 of a text, the
decimal text of an integer, the text of a score. -/
inductive Converts : Value → Bytes → Prop where
  | bytes (bs : Bytes) : Converts (.bytes bs) bs
  | buffer (bs : Bytes) : Converts (.buffer bs) bs
  | int (n : Int) : Converts (.int n) (Bytes.ofInt n)
  | float {x : Binary64} {bs : Bytes} (h : formatScore (.float x) = .ok bs) : Converts (.float x) bs
  | text {v : Value} {t : Text} {bs : Bytes} (h : v.text? = some t) (hu : t.utf8? = some bs) :
      Converts v bs

/-- The values that may be arguments are those that have bytes. -/
theorem sendable_iff {v : Value} : v.Sendable ↔ ∃ bs, v.Converts bs := by
  constructor
  · intro h
    cases h with
    | bytes bs => exact ⟨bs, .bytes bs⟩
    | buffer bs => exact ⟨bs, .buffer bs⟩
    | int n => exact ⟨_, .int n⟩
    | float hx =>
      -- only the score that is no number has no text
      rename_i x
      cases x with
      | nan => exact absurd rfl hx
      | infinity s => exact ⟨_, .float rfl⟩
      | finite s m => exact ⟨_, .float rfl⟩
    | text h hs =>
      obtain ⟨bs, hu⟩ := Text.exists_utf8?_iff.2 hs
      exact ⟨bs, .text h hu⟩
  · rintro ⟨bs, h⟩
    cases h with
    | bytes | buffer | int => constructor
    | float h =>
      refine .float ?_
      rintro rfl
      cases h
    | text h hu => exact .text h (Text.exists_utf8?_iff.1 ⟨bs, hu⟩)

end Value

namespace Wire

/-- An argument has the bytes that its value is converted to, and no others. -/
theorem argument_eq_ok_iff {v : Value} {bs : Bytes} : argument v = .ok bs ↔ v.Converts bs := by
  constructor
  · intro h
    unfold argument at h
    split at h
    · cases h; exact .bytes _
    · cases h; exact .buffer _
    · cases h; exact .int _
    · exact .float h
    · split at h
      · next t ht =>
        rw [Value.encodeText] at h
        split at h
        · next hu => cases h; exact .text ht hu
        · cases h
      · cases h
  · intro h
    cases h with
    | bytes | buffer | int => rfl
    | float h => exact h
    | text h hu =>
      -- a byte string and a number have no text, so that they are not meant here
      unfold argument
      split
      all_goals simp_all [Value.text?, Value.encodeText]

/-! ## Requests -/

theorem writeArguments_eq_ok_iff {args : List Value} {out out' : Bytes} :
    writeArguments out args = (out', .ok ()) ↔
      ∃ bss, List.Forall₂ Value.Converts args bss ∧ out ++ bss.flatMap bulk = out' := by
  induction args generalizing out with
  | nil => simp [writeArguments]
  | cons v args ih =>
    rw [writeArguments]
    constructor
    · intro h
      split at h
      · next bs hv =>
        obtain ⟨bss, hf, ho⟩ := ih.1 h
        exact ⟨bs :: bss, .cons (argument_eq_ok_iff.1 hv) hf, by simpa using ho⟩
      · -- the first argument without bytes ends the writing with an error
        cases h
    · rintro ⟨_, hf, ho⟩
      cases hf with
      | cons hv hf =>
        rw [argument_eq_ok_iff.2 hv]
        exact ih.2 ⟨_, hf, by simpa using ho⟩

/-- A request is written whole, behind what was written before, if each argument has bytes. -/
theorem write_of_converts {args : List Value} {bss : List Bytes}
    (h : List.Forall₂ Value.Converts args bss) (out : Bytes) :
    write out args = (out ++ request bss, .ok ()) := by
  rw [write, writeArguments_eq_ok_iff]
  refine ⟨bss, h, ?_⟩
  rw [request, h.length_eq, List.append_assoc]

/-- The request of a list of arguments is that of the bytes they are converted to. -/
theorem encode_eq_ok_iff {args : List Value} {data : Bytes} :
    encode args = .ok data ↔ ∃ bss, List.Forall₂ Value.Converts args bss ∧ request bss = data := by
  -- the writer appends to what is there, and begins with nothing
  have hw : encode args = .ok data ↔ write [] args = (data, .ok ()) := by
    rw [encode]
    rcases write [] args with ⟨out, r⟩
    cases r <;> simp
  rw [hw, write, writeArguments_eq_ok_iff]
  refine exists_congr fun bss => and_congr_right fun hf => ?_
  rw [request, hf.length_eq, List.nil_append]

/-- Requests that were made one after the other are those of lists of converted arguments. -/
theorem forall_encode_iff {commands : List (List Value)} {sent : List Bytes} :
    List.Forall₂ (fun args data => encode args = .ok data) commands sent ↔
      ∃ converted, List.Forall₂ (List.Forall₂ Value.Converts) commands converted ∧
        converted.map request = sent := by
  induction commands generalizing sent with
  | nil => cases sent <;> simp
  | cons args commands ih =>
    constructor
    · rintro (_ | ⟨ha, hc⟩)
      obtain ⟨bss, hf, rfl⟩ := encode_eq_ok_iff.1 ha
      obtain ⟨converted, hfs, rfl⟩ := ih.1 hc
      exact ⟨bss :: converted, .cons hf hfs, rfl⟩
    · rintro ⟨_, hf, rfl⟩
      cases hf with
      | cons hf hfs => exact .cons (encode_eq_ok_iff.2 ⟨_, hf, rfl⟩) (ih.2 ⟨_, hfs, rfl⟩)

/-- A list of arguments has bytes if each of them may be one. -/
theorem exists_converted {args : List Value} (h : ∀ v ∈ args, v.Sendable) :
    ∃ bss, List.Forall₂ Value.Converts args bss := by
  induction args with
  | nil => exact ⟨[], .nil⟩
  | cons v args ih =>
    obtain ⟨bs, hv⟩ := Value.sendable_iff.1 (h v List.mem_cons_self)
    obtain ⟨bss, hs⟩ := ih fun w hw => h w (List.mem_cons_of_mem v hw)
    exact ⟨bs :: bss, .cons hv hs⟩

theorem exists_all_converted {commands : List (List Value)}
    (h : ∀ args ∈ commands, ∀ v ∈ args, v.Sendable) :
    ∃ converted, List.Forall₂ (List.Forall₂ Value.Converts) commands converted := by
  induction commands with
  | nil => exact ⟨[], .nil⟩
  | cons args commands ih =>
    obtain ⟨bss, ha⟩ := exists_converted (h args List.mem_cons_self)
    obtain ⟨converted, hs⟩ := ih fun others ho => h others (List.mem_cons_of_mem args ho)
    exact ⟨bss :: converted, .cons ha hs⟩

/-! ## What a server reads -/

/-- How the bytes that are sent for commands stand to what a server reads off them. -/
structure ReadBack (commands : List (List Value)) (sent : List Bytes)
    (received : List (List Bytes)) : Prop where
  /-- Each command was encoded. -/
  encoded : List.Forall₂ (fun args data => encode args = .ok data) commands sent
  /-- The server gets the arguments of each command as the bytes they are converted to. -/
  converted : List.Forall₂ (List.Forall₂ Value.Converts) commands received
  /-- It reads them off the concatenation, up to its end. -/
  whole : readRequests sent.flatten = some received
  /-- It reads each command where that begins and ends there, whatever follows. -/
  single : List.Forall₂ (fun data args => ∀ rest, readRequest (data ++ rest) = some (args, rest))
    sent received
  /-- Other commands with the same bytes are converted to the same. -/
  unique : ∀ {others : List (List Value)} {data : List Bytes},
    List.Forall₂ (fun args data => encode args = .ok data) others data →
      data.flatten = sent.flatten → List.Forall₂ (List.Forall₂ Value.Converts) others received

/-- Commands are read back from the concatenation of their requests. -/
theorem requests_read_back (commands : List (List Value))
    (h : ∀ args ∈ commands, ∀ v ∈ args, v.Sendable) :
    ∃ sent received, ReadBack commands sent received := by
  obtain ⟨received, hconv⟩ := exists_all_converted h
  have hsent : List.Forall₂ (fun args data => encode args = .ok data) commands
      (received.map request) := forall_encode_iff.2 ⟨received, hconv, rfl⟩
  have hwhole : readRequests (received.map request).flatten = some received :=
    readRequests_iff.2 List.flatMap_def.symm
  refine ⟨received.map request, received, hsent, hconv, hwhole, ?_, ?_⟩
  · rw [List.forall₂_map_left_iff, List.forall₂_same]
    intro args _ rest
    exact readRequest_iff.2 rfl
  · intro others data hd hf
    -- the other commands are converted too, and the reader cannot tell the two apart
    obtain ⟨others', hothers, rfl⟩ := forall_encode_iff.1 hd
    have he : others'.flatMap request = received.flatMap request := by
      simpa only [List.flatMap_def] using hf
    exact eq_of_flatMap_request he ▸ hothers

/-- Two commands with marks and line ends in their arguments, and an empty one between them. -/
def marked : List (List Value) :=
  [[.bytes [13, 10, 42, 50, 13, 10], .int (-12)], [], [.text (.ofString "é$1"), .buffer []]]

/-- Marks and line ends in arguments do not matter. -/
theorem requests_read_back_marked :
    (∀ args ∈ marked, ∀ v ∈ args, v.Sendable) ∧
      ∃ sent received, ReadBack marked sent received ∧ received.map List.length = [2, 0, 2] := by
  have h : ∀ args ∈ marked, ∀ v ∈ args, v.Sendable := by
    simp only [marked, List.forall_mem_cons, List.not_mem_nil, false_implies, implies_true,
      and_true, true_and]
    exact ⟨⟨.bytes _, .int _⟩, .text rfl (by simp [Text.ofString, Text.ofChars]), .buffer _⟩
  obtain ⟨sent, received, hr⟩ := requests_read_back marked h
  refine ⟨h, sent, received, hr, ?_⟩
  -- as many arguments are read as there were
  have hl : marked.map List.length = received.map List.length := by
    refine List.forall₂_eq_eq_eq ▸ ?_
    rw [List.forall₂_map_left_iff, List.forall₂_map_right_iff]
    exact hr.converted.imp fun _ _ hf => hf.length_eq
  exact hl.symm

end Wire

end SortedSets

import SortedSets.Proofs.Connection.Closed
import SortedSets.Proofs.Connection.Enrolment
import SortedSets.Proofs.Connection.Word
import SortedSets.Proofs.Wire.RoundTrip

/-!
# The transaction of the server

A server knows the commands of a connection by the wire alone: it reads them off the bytes and
compares their first words by the ASCII letters, of any case. The mode of the connection follows the
server as long as client and server take each name for the same word. A disguised name is a word for
the client only, and the two part where it changes the mode.

## Main definitions

* `Server.after`, `Server.inside`: a server that may be inside of a transaction
* `Uncut`: no block of gathered commands is cut short in a run
* `Connection.Mirrors`: the mode of a connection is that of a server that reads its wire
* `Connection.Simulates`: what more commands do to it

## Main results

* `sentBytes_run`: the bytes of a run are those of its commands
* `mirrors_run`: the mode of a connection follows the server
* `simulates_server`: it does so exactly as long as no disguised name changes it
-/

namespace SortedSets

variable {Listener : Type}

/-! ## The server -/

namespace Server

/-- A server compares words by their ASCII letters, of any case. -/
def isWord (w : String) (name : Bytes) : Bool :=
  name.upper = Bytes.ascii w

/-- Whether a server is inside of a transaction after a command. -/
def after (inside : Bool) : List Bytes → Bool
  | [] => inside
  | name :: _ =>
    if isWord "MULTI" name then true
    else if isWord "EXEC" name || isWord "DISCARD" name then false
    else inside

/-- Whether a server is inside of a transaction after commands. -/
def inside (commands : List (List Bytes)) : Bool :=
  commands.foldl after false

end Server

/-- Whether a transaction is open after a word. -/
def Verb.opens (inside : Bool) : Verb → Bool
  | multi => true
  | exec | discard => false
  | other => inside

theorem Server.after_cons (inside : Bool) (name : Bytes) (args : List Bytes) :
    Server.after inside (name :: args) = (Verb.ofBytes name).opens inside := by
  simp only [Server.after, Server.isWord, Verb.ofBytes, Bool.or_eq_true, decide_eq_true_eq]
  split
  · rfl
  · split
    · next h =>
      by_cases he : name.upper = Bytes.ascii "EXEC"
      · rw [if_pos he]
        rfl
      · rw [if_neg he, if_pos (h.resolve_left he)]
        rfl
    · next h =>
      rw [if_neg fun he => h (.inl he), if_neg fun hd => h (.inr hd)]
      rfl

theorem Server.inside_snoc (commands : List (List Bytes)) (command : List Bytes) :
    Server.inside (commands ++ [command]) = Server.after (Server.inside commands) command := by
  simp [Server.inside]

/-- A transaction of the client is open after a word if it was opened, or was open and is not
ended. -/
theorem isSome_classify (verb : Verb) (transaction : Option (List Ticket)) (t : Ticket) :
    (Connection.classify verb transaction t).2.isSome = verb.opens transaction.isSome := by
  cases transaction <;> cases verb <;> rfl

/-- A word that is no text changes no transaction. -/
theorem isSome_enrolWord (s : List Role × Option (List Ticket)) (w : Option Verb) :
    (enrolWord s w).2.isSome = (w.getD .other).opens s.2.isSome := by
  cases w with
  | none => rfl
  | some verb => exact isSome_classify verb s.2 s.1.length

/-- Client and server take a name that is not disguised for the same word. -/
theorem Verb.ofWord_of_converts {name : Value} {bs : Bytes} (hc : name.Converts bs)
    (hw : name.text?.isSome = true ∨ name.bytes?.isSome = true) (hn : ¬ name.Disguised) :
    (Verb.ofWord name).toOption.getD .other = Verb.ofBytes bs := by
  cases hc with
  | bytes | buffer =>
    simp only [Verb.ofWord, Value.bytes?]
    split
    · rfl
    · next hv =>
      -- bytes that are no text are no word for the server either
      exact (Decidable.byContradiction fun ho => hv (Verb.isValid_of_ofBytes (Ne.symm ho)))
  | int | float => simp [Value.text?, Value.bytes?] at hw
  | text ht hu =>
    rename_i t
    have hb : name.bytes? = none := by cases name <;> first | rfl | cases ht
    simp only [Verb.ofWord, hb, ht]
    exact Verb.ofText_eq_of_not_disguised hn ht hu

/-- A server takes a disguised name for no word. -/
theorem Verb.ofBytes_of_disguised {name : Value} {bs : Bytes} (hc : name.Converts bs)
    (hn : name.Disguised) : Verb.ofBytes bs = .other := by
  obtain ⟨t, ht, hd, -⟩ := hn
  cases hc with
  | bytes | buffer | int | float => cases ht
  | text ht' hu =>
    obtain rfl := Option.some.inj (ht.symm.trans ht')
    exact Verb.ofBytes_of_disguise hu hd

/-! ## The wire of a run

Bytes that are gathered when another block begins, or when the connection ends, are never written.
The client has enrolled their commands and the server does not see them, so a run whose mode is to
follow the server cuts no block short. -/

/-- A block of gathered commands does not go on after the event. -/
def Event.cuts : Event Listener → Bool
  | .enterBuffer | .close | .drop _ => true
  | _ => false

/-- No block of gathered commands is cut short in a run: none is open when another one begins, or
when the connection ends. -/
def Uncut (c : Connection Listener) : List (Event Listener) → Prop
  | [] => True
  | e :: es => (e.cuts = true → c.buffer = none) ∧ Uncut (c.step e) es

instance decidableUncut (c : Connection Listener) :
    (es : List (Event Listener)) → Decidable (Uncut c es)
  | [] => .isTrue trivial
  | e :: es =>
    have := decidableUncut (c.step e) es
    inferInstanceAs (Decidable (_ ∧ _))

theorem uncut_append {c : Connection Listener} {es fs : List (Event Listener)} :
    Uncut c (es ++ fs) ↔ Uncut c es ∧ Uncut (c.run es) fs := by
  induction es generalizing c with
  | nil => simp [Uncut]
  | cons e es ih => simp [Uncut, ih, and_assoc]

namespace Connection

variable {c : Connection Listener}

/-- An event that cuts no block adds its command to the bytes, and a closed connection gathers
nothing. -/
theorem sentBytes_step {e : Event Listener} (hcut : e.cuts = true → c.buffer = none)
    (hcl : c.isClosed = true → c.buffer.getD [] = []) :
    (c.step e).sentBytes = c.sentBytes ++ (e.request? c).toList.flatten ∧
      ((c.step e).isClosed = true → (c.step e).buffer.getD [] = []) := by
  have ho := step_outside c e
  rw [ho.sentBytes_eq, ho.isClosed_eq, ho.buffer_eq]
  have hnone {bs : Bytes} : bs = bs ++ (none : Option Bytes).toList.flatten :=
    (List.append_nil bs).symm
  cases e with
  | submit name args l =>
    cases hd : c.requestOf name args with
    | error x =>
      simp only [outside, Event.request?, hd]
      exact ⟨hnone, hcl⟩
    | ok data =>
      -- a command that is sent was sent over an open connection
      have hopen := isClosed_of_requestOf hd
      simp only [outside, Event.request?, hd, Except.toOption, Option.toList_some,
        List.flatten_singleton]
      refine ⟨sentBytes_emit data c, fun h => ?_⟩
      rw [emit_frame] at h
      cases hopen.symm.trans h
  | leaveBuffer =>
    refine ⟨?_, fun _ => by rw [outside, leaveBuffer_frame]; rfl⟩
    cases hc : c.isClosed with
    | true =>
      -- nothing was gathered, so nothing is lost
      rw [outside, sentBytes, sentBytes, writes_leaveBuffer hc, leaveBuffer_frame, hcl hc]
      exact hnone
    | false => exact (sentBytes_leaveBuffer hc).trans hnone
  | enterBuffer =>
    refine ⟨?_, fun _ => rfl⟩
    rw [outside, sentBytes, sentBytes, hcut rfl]
    exact hnone
  | close =>
    rw [outside, close_frame]
    refine ⟨hnone, fun _ => ?_⟩
    simp only [hcut rfl]
    rfl
  | drop x =>
    refine ⟨hnone, fun _ => ?_⟩
    simp only [outside, hcut rfl]
    rfl
  | giveUp | abandon | expire | deliver | follow => exact ⟨hnone, hcl⟩

/-- The bytes of a run are those of its commands. -/
theorem sentBytes_run {es : List (Event Listener)} (h : Uncut c es)
    (hcl : c.isClosed = true → c.buffer.getD [] = []) :
    (c.run es).sentBytes = c.sentBytes ++ (requests c es).flatten ∧
      ((c.run es).isClosed = true → (c.run es).buffer.getD [] = []) := by
  -- that a closed connection gathers nothing goes along, since what it gathers is dropped
  induction es generalizing c with
  | nil => exact ⟨(List.append_nil _).symm, hcl⟩
  | cons e es ih =>
    obtain ⟨hs, hcl'⟩ := sentBytes_step h.1 hcl
    obtain ⟨hr, hcl''⟩ := ih h.2 hcl'
    refine ⟨?_, hcl''⟩
    rw [run_cons, hr, hs, requests, List.flatten_append, List.append_assoc]

/-! ## The mode of a connection -/

theorem mode_eq_mode_iff {d : Connection Listener} :
    c.mode = d.mode ↔ (c.mode = .transactional ↔ d.mode = .transactional) := by
  unfold mode
  split <;> split <;> simp

/-- The mode of a connection is that of a server that reads the commands off its wire. -/
structure Mirrors (c : Connection Listener) (commands : List (List Bytes)) : Prop where
  wire : Wire.readRequests c.sentBytes = some commands
  mode : c.mode = .transactional ↔ Server.inside commands = true

/-- A command that is sent: its bytes, and what it does to the transactions of client and server. -/
theorem exists_command {given : Ticket → Outcome → Prop} (hcourse : Course given c)
    {commands : List (List Bytes)} (hwire : Wire.readRequests c.sentBytes = some commands)
    {name : Value} {args : List Value} {data : Bytes} (hd : c.requestOf name args = .ok data)
    (l : Listener) : ∃ bs more, name.Converts bs ∧
      Wire.readRequests (c.submit name args l).connection.sentBytes =
        some (commands ++ [bs :: more]) ∧
      (c.submit name args l).connection.transaction.isSome =
        ((Verb.ofWord name).toOption.getD .other).opens c.transaction.isSome := by
  obtain ⟨-, hopen, henc⟩ := requestOf_eq_ok_iff.1 hd
  obtain ⟨bss, hconv, rfl⟩ := Wire.encode_eq_ok_iff.1 henc
  cases hconv with
  | @cons _ bs _ more hname hargs =>
    refine ⟨bs, more, hname, ?_, ?_⟩
    · have hs := (step_outside c (.submit name args l)).sentBytes_eq
      simp only [outside, hd] at hs
      rw [Wire.readRequests_iff] at hwire ⊢
      refine hs.trans ?_
      change (c.emit _).sentBytes = _
      rw [sentBytes_emit, hwire]
      simp
    · -- the commands of client and server are enrolled by the same word
      have hatt : (c.step (.submit name args l)).attached = true := by
        rw [(step_outside c (.submit name args l)).attached_eq]
        simp only [outside, hd]
        rw [emit_frame]
        exact attached_of_requestOf hd
      have hen := congrArg Prod.snd (enrolment_step hcourse hatt)
      have hv : Event.verb? c (.submit name args l) = some (Verb.ofWord name).toOption := by
        simp only [Event.verb?, hd]
      rw [hv] at hen
      exact (congrArg Option.isSome hen).trans (isSome_enrolWord _ _)

/-- A command whose name is not disguised keeps the mode in step with the server. -/
theorem exists_mirrors_submit {given : Ticket → Outcome → Prop} (hcourse : Course given c)
    {commands : List (List Bytes)} (h : c.Mirrors commands) {name : Value} {args : List Value}
    {data : Bytes} (hd : c.requestOf name args = .ok data) (hn : ¬ name.Disguised) (l : Listener) :
    ∃ command, (c.submit name args l).connection.Mirrors (commands ++ [command]) := by
  obtain ⟨bs, more, hconv, hwire, ht⟩ := exists_command hcourse h.wire hd l
  refine ⟨bs :: more, hwire, ?_⟩
  have hmode := mode_eq_iff.symm.trans h.mode
  rw [mode_eq_iff, ht, Server.inside_snoc, Server.after_cons,
    Verb.ofWord_of_converts hconv (requestOf_eq_ok_iff.1 hd).1 hn, Bool.eq_iff_iff.2 hmode]

/-- A disguised name keeps the mode in step with the server if it does not change it, and only
then. -/
theorem exists_mirrors_iff_of_disguised {given : Ticket → Outcome → Prop}
    (hcourse : Course given c) {commands : List (List Bytes)} (h : c.Mirrors commands)
    {name : Value} {args : List Value} {data : Bytes} (hd : c.requestOf name args = .ok data)
    (hn : name.Disguised) (l : Listener) :
    ∃ command,
      Wire.readRequests (c.submit name args l).connection.sentBytes =
        some (commands ++ [command]) ∧
      ((c.submit name args l).connection.Mirrors (commands ++ [command]) ↔
        (c.submit name args l).connection.mode = c.mode) := by
  obtain ⟨bs, more, hconv, hwire, -⟩ := exists_command hcourse h.wire hd l
  refine ⟨bs :: more, hwire, ?_⟩
  -- the server stays where it is, and so must the client
  have hserver : Server.inside (commands ++ [bs :: more]) = Server.inside commands := by
    rw [Server.inside_snoc, Server.after_cons, Verb.ofBytes_of_disguised hconv hn]
    rfl
  rw [mode_eq_mode_iff, h.mode, ← hserver]
  exact ⟨fun hm => hm.mode, fun hm => ⟨hwire, hm⟩⟩

/-- An event by which no disguised name is sent keeps the mode in step with the server. -/
theorem exists_mirrors_step {given : Ticket → Outcome → Prop} (hcourse : Course given c)
    {commands : List (List Bytes)} (h : c.Mirrors commands) {e : Event Listener}
    (hl : (c.step e).attached = true) (hcut : e.cuts = true → c.buffer = none)
    (hcl : c.isClosed = true → c.buffer.getD [] = [])
    (hn : ∀ name args l, e = .submit name args l → ¬ name.Disguised) :
    ∃ commands', (c.step e).Mirrors commands' := by
  by_cases hsub : ∃ name args l data, e = .submit name args l ∧ c.requestOf name args = .ok data
  · obtain ⟨name, args, l, data, rfl, hd⟩ := hsub
    obtain ⟨command, hm⟩ := exists_mirrors_submit hcourse h hd (hn name args l rfl) l
    exact ⟨_, hm⟩
  · -- nothing is sent, so neither side changes
    have hr : e.request? c = none ∧ e.verb? c = none := by
      cases e with
      | submit name args l =>
        cases hd : c.requestOf name args with
        | error x => exact ⟨by simp only [Event.request?, hd]; rfl, by simp only [Event.verb?, hd]⟩
        | ok data => exact absurd ⟨name, args, l, data, rfl, hd⟩ hsub
      | _ => exact ⟨rfl, rfl⟩
    have hs := (sentBytes_step hcut hcl).1
    have ht := congrArg Prod.snd (enrolment_step hcourse hl)
    rw [hr.1, Option.toList_none, List.flatten_nil, List.append_nil] at hs
    rw [hr.2] at ht
    refine ⟨commands, hs ▸ h.wire, ?_⟩
    rw [mode_eq_iff, show (c.step e).transaction = c.transaction from ht, ← mode_eq_iff]
    exact h.mode

/-- What more commands do to a connection whose mode follows the server. -/
structure Simulates (c : Connection Listener) (commands : List (List Bytes)) : Prop
    extends Mirrors c commands where
  /-- One more command keeps the mode in step with the server, unless its name is disguised. -/
  goesOn : ∀ (name : Value) (args : List Value) (l : Listener) (data : Bytes),
    c.requestOf name args = .ok data → ¬ name.Disguised →
      ∃ command, (c.submit name args l).connection.Mirrors (commands ++ [command])
  /-- A disguised name is sent too, and the two are still in step exactly if it did not change the
  mode. -/
  parts : ∀ (name : Value) (args : List Value) (l : Listener) (data : Bytes),
    c.requestOf name args = .ok data → name.Disguised →
      ∃ command,
        Wire.readRequests (c.submit name args l).connection.sentBytes =
          some (commands ++ [command]) ∧
        ((c.submit name args l).connection.Mirrors (commands ++ [command]) ↔
          (c.submit name args l).connection.mode = c.mode)
  /-- A text and its bytes are sent alike. -/
  sentAlike : ∀ (t : Text) (bs : Bytes) (args : List Value) (l : Listener), t.utf8? = some bs →
    (c.submit (.text t) args l).connection.sentBytes =
      (c.submit (.bytes bs) args l).connection.sentBytes
  /-- If the text is not disguised, they are the same name. -/
  alike : ∀ (t : Text) (bs : Bytes) (args : List Value) (l : Listener), t.utf8? = some bs →
    ¬ (Value.text t).Disguised → c.submit (.text t) args l = c.submit (.bytes bs) args l

/-- A text and its bytes have the same request. -/
theorem requestOf_text {t : Text} {bs : Bytes} (hu : Text.utf8? t = some bs) (args : List Value)
    (c : Connection Listener) : c.requestOf (.text t) args = c.requestOf (.bytes bs) args := by
  have henc : Wire.encode (.text t :: args) = Wire.encode (.bytes bs :: args) := by
    simp only [Wire.encode, Wire.write, Wire.writeArguments, Wire.argument, Value.text?,
      Value.encodeText, hu, List.length_cons]
  simp only [requestOf, henc]
  rfl

theorem sentBytes_submit_text {t : Text} {bs : Bytes} (hu : Text.utf8? t = some bs)
    (args : List Value) (l : Listener) (c : Connection Listener) :
    (c.submit (.text t) args l).connection.sentBytes =
      (c.submit (.bytes bs) args l).connection.sentBytes := by
  refine (step_outside c (.submit (.text t) args l)).sentBytes_eq.trans ?_
  refine Eq.trans ?_ (step_outside c (.submit (.bytes bs) args l)).sentBytes_eq.symm
  simp only [outside, requestOf_text hu args c]

theorem submit_text {t : Text} {bs : Bytes} (hu : Text.utf8? t = some bs)
    (hn : ¬ (Value.text t).Disguised) (args : List Value) (l : Listener)
    (c : Connection Listener) : c.submit (.text t) args l = c.submit (.bytes bs) args l := by
  have hword : Verb.ofWord (.text t) = Verb.ofWord (.bytes bs) := by
    simp only [Verb.ofWord, Value.bytes?, Value.text?, Option.getD_some,
      Utf8.isValid_of_utf8? hu, if_true, Verb.ofText_eq_of_not_disguised hn rfl hu]
  simp only [submit, requestOf_text hu args c, hword]

end Connection

variable {address : Value × Value} {timeout : Timeout} {es : List (Event Listener)}

/-- The mode of a connection follows the server in a run in which no disguised name is sent. -/
theorem mirrors_run
    (hl : ((Connection.start address timeout : Connection Listener).run es).attached = true)
    (hu : Uncut (.start address timeout) es)
    (hn : ∀ name args l, .submit name args l ∈ es → ¬ name.Disguised) :
    ∃ commands, ((Connection.start address timeout).run es).Mirrors commands := by
  induction es using List.reverseRec with
  | nil => exact ⟨[], Wire.readRequests_nil, nofun, nofun⟩
  | append_singleton es e ih =>
    obtain ⟨hu, hcut, -⟩ := uncut_append.1 hu
    rw [Connection.run_append] at hl ⊢
    obtain ⟨commands, h⟩ := ih (Connection.attached_of_step hl) hu
      fun name args l hm => hn name args l (List.mem_append_left _ hm)
    refine Connection.exists_mirrors_step (sound_run address timeout es).course h hl hcut ?_ ?_
    · exact (Connection.sentBytes_run hu nofun).2
    · rintro name args l rfl
      exact hn name args l (by simp)

/-- In a run in which no disguised name is sent, the mode of the connection is that of a server that
reads its commands off the wire, and goes on to be as long as no disguised name changes it. -/
theorem simulates_server (address : Value × Value) (timeout : Timeout)
    (es : List (Event Listener))
    (hl : ((Connection.start address timeout).run es).attached = true)
    (hu : Uncut (.start address timeout) es)
    (hn : ∀ name args l, .submit name args l ∈ es → ¬ name.Disguised) :
    ∃ commands, ((Connection.start address timeout).run es).Simulates commands := by
  obtain ⟨commands, h⟩ := mirrors_run hl hu hn
  have hcourse := (sound_run address timeout es).course
  exact ⟨commands, h,
    fun _ _ l _ hd hname => Connection.exists_mirrors_submit hcourse h hd hname l,
    fun _ _ l _ hd hname => Connection.exists_mirrors_iff_of_disguised hcourse h hd hname l,
    fun _ _ args l hu => Connection.sentBytes_submit_text hu args l _,
    fun _ _ args l hu hname => Connection.submit_text hu hname args l _⟩

/-- A transaction with words of all forms and cases, and the beginning of another one. -/
def anyCase : List (Event Unit) :=
  [.submit (.text (.ofString "multi")) [] (), .submit (.bytes (Bytes.ascii "zCard")) [.int 1] (),
    .submit (.text (.ofString "dısc")) [] (), .submit (.buffer (Bytes.ascii "Exec")) [] (),
    .submit (.bytes (Bytes.ascii "MULTI")) [] ()]

/-- The mode follows the server, which is inside of the second transaction. -/
theorem simulates_server_anyCase :
    ∃ commands, ((Connection.start (.none, .none) .none).run anyCase).Simulates commands ∧
      Server.inside commands = true := by
  obtain ⟨commands, h⟩ := simulates_server (.none, .none) .none anyCase (by decide +kernel)
    (by decide +kernel) (by
      intro name args l hm
      simp only [anyCase, List.mem_cons, Event.submit.injEq, List.not_mem_nil, or_false] at hm
      rcases hm with ⟨rfl, -⟩ | ⟨rfl, -⟩ | ⟨rfl, -⟩ | ⟨rfl, -⟩ | ⟨rfl, -⟩
      all_goals decide +kernel)
  exact ⟨commands, h, h.mode.1 (by decide +kernel)⟩

/-- A text that the client takes for the opening of a transaction, and the server does not. -/
def disguised : List (Event Unit) :=
  [.submit (.text (.ofString "multı")) [] ()]

/-- The client is inside of a transaction, and the server is not. -/
theorem not_simulates_server_disguised :
    let c := (Connection.start (.none, .none) .none).run disguised
    c.attached = true ∧ Uncut (.start (.none, .none) .none) disguised ∧
      c.mode = .transactional ∧
      Wire.readRequests c.writes.flatten = some [[Bytes.ascii "mult" ++ [0xC4, 0xB1]]] ∧
      Server.inside [[Bytes.ascii "mult" ++ [0xC4, 0xB1]]] = false ∧
      ¬ ∃ commands, c.Mirrors commands := by
  have hmode : ((Connection.start (.none, .none) .none).run disguised).mode = .transactional := by
    decide +kernel
  have hwire : Wire.readRequests
      ((Connection.start (.none, .none) .none).run disguised).writes.flatten =
        some [[Bytes.ascii "mult" ++ [0xC4, 0xB1]]] := Wire.readRequests_iff.2 (by decide +kernel)
  refine ⟨by decide +kernel, by decide +kernel, hmode, hwire, by decide +kernel, ?_⟩
  rintro ⟨commands, h⟩
  -- nothing is gathered, so the server reads all that was written
  have hsent : ((Connection.start (.none, .none) .none).run disguised).sentBytes =
      ((Connection.start (.none, .none) .none).run disguised).writes.flatten := by
    decide +kernel
  obtain rfl := Option.some.inj ((hsent ▸ h.wire).symm.trans hwire)
  exact absurd (h.mode.1 hmode) (by decide +kernel)

end SortedSets

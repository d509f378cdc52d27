import Mathlib.Data.List.Perm.Subperm
import SortedSets.Proofs.Session.Judged

/-!
# Rejected calls

A batch queues the command of a call and hands out the handle of its reply, or it refuses the call
and does neither. So a run may be told without the calls that a batch refused: the batch sends the
same commands, and every handle ends as it does. Which calls are refused depends on the batch and on
the arguments alone. A call whose arguments cannot be put into the parameters of its method is
refused, and so is a call that scans, since a scan needs its pages at once.

## Main definitions

* `Mode.Bars`: what is allowed in direct mode only
* `Signature.Miscounted`: too many arguments, or too few
* `Session.refuses`: a batch refuses a call
* `Session.accepted`: a run without the calls that a batch refused

## Main results

* `Method.bars_call`, `Signature.bind_of_miscounted`: calls that are refused
* `Session.act_of_refuses`, `Session.after_accepted`: a refused call changes nothing, nor does it
  matter to a run that it was made
* `Session.refused_calls_removed`: the batch and the handles of a run without the refused calls
-/

namespace SortedSets

/-! ## Scans are barred -/

/-- In the mode something fails, because it needs an answer of its own or because it fails in direct
mode too. -/
def Mode.Bars {α : Type} (mode : Mode) (r : Mode → Except Error α) : Prop :=
  ∃ e, r mode = .error e ∧
    (e = .unsupported (.text (.ofString "ZSCAN")) mode ∨ r .direct = .error e)

namespace Mode.Bars

variable {α β : Type} {mode : Mode}

theorem of_requireDirect (hq : mode.isQueueing = true) (f : Unit → Except Error α) :
    mode.Bars fun m => m.requireDirect (.text (.ofString "ZSCAN")) >>= f := by
  refine ⟨.unsupported (.text (.ofString "ZSCAN")) mode, ?_, .inl rfl⟩
  simp only [Mode.requireDirect, hq, if_true]
  rfl

/-- What comes first is the same in every mode. -/
theorem bind (x : Except Error α) {f : α → Mode → Except Error β} (h : ∀ a, mode.Bars (f a)) :
    mode.Bars fun m => x >>= fun a => f a m := by
  cases x with
  | error e => exact ⟨e, rfl, .inr rfl⟩
  | ok a => exact h a

theorem map {r : Mode → Except Error α} (h : mode.Bars r) (f : α → β) :
    mode.Bars fun m => (r m).map f := by
  obtain ⟨e, he, hwhy⟩ := h
  exact ⟨e, congrArg (Except.map f) he, hwhy.imp_right (congrArg (Except.map f))⟩

end Mode.Bars

/-- A scan is refused where commands are queued. -/
theorem Method.bars_call {m : Method} {mode : Mode} (hm : m.scans = true)
    (hq : mode.isQueueing = true) (args : List Value) (named : List (String × Value)) :
    mode.Bars fun mode => m.call mode args named := by
  refine .bind _ fun a => ?_
  cases m with
  | zscan =>
    -- the key, the cursor and the options are checked before the mode
    refine .map (.bind _ fun _ => .bind _ fun _ => .bind _ fun _ => ?_) _
    exact .of_requireDirect hq _
  | zscanIter =>
    refine .map (.bind _ fun _ => .bind _ fun _ => ?_) _
    exact .of_requireDirect hq _
  | izscan =>
    refine .map (.bind _ fun _ => .bind _ fun _ => .bind _ fun _ => ?_) _
    exact .of_requireDirect hq _
  | _ => cases hm

/-! ## Arguments that do not fit -/

namespace Signature

variable {s : Signature} {args : List Value} {named : List (String × Value)}

/-- More arguments by position than there are parameters, or fewer arguments than are required. -/
def Miscounted (s : Signature) (args : List Value) (named : List (String × Value)) : Prop :=
  (s.variadic = false ∧ s.positional.length < args.length) ∨
    args.length + named.length < s.required.length

/-- Arguments that are too many or too few are refused. -/
theorem bind_of_miscounted (hr : s.required.Nodup) (h : s.Miscounted args named) :
    s.bind args named = .error .badType := by
  unfold bind
  dsimp only
  rcases h with ⟨hv, hlt⟩ | hlt
  · have hfurther : (args.drop s.positional.length).isEmpty = false := by
      rw [List.isEmpty_eq_false_iff]
      intro hnil
      exact absurd (List.drop_eq_nil_iff.1 hnil) (Nat.not_le.2 hlt)
    rw [hv, hfurther]
    rfl
  · -- different parameters that are all given would be as many arguments
    have hmissing : (s.required.all fun r =>
        (s.positional.zip args ++ named).any fun p => p.1 = r) = false := by
      rw [Bool.eq_false_iff]
      intro hall
      have hsub : s.required ⊆ (s.positional.zip args ++ named).map Prod.fst := by
        intro r hmem
        obtain ⟨p, hp, hpr⟩ := List.any_eq_true.1 (List.all_eq_true.1 hall r hmem)
        exact List.mem_map.2 ⟨p, hp, of_decide_eq_true hpr⟩
      have hle := (List.subperm_of_subset hr hsub).length_le
      simp only [List.length_map, List.length_append, List.length_zip] at hle
      omega
    rw [hmissing]
    split
    · rfl
    · split <;> rfl

end Signature

theorem Method.nodup_required (m : Method) : m.signature.required.Nodup := by
  cases m <;> decide

namespace MethodCall

variable {k : MethodCall} {mode : Mode}

/-- The arguments of a call are too many or too few for its method. -/
def Miscounted (k : MethodCall) : Prop :=
  ∃ m, Method.named? k.method = some m ∧ m.signature.Miscounted k.args k.named

/-- A scan is refused where commands are queued. -/
theorem judged_of_scans (hk : k.scans = true) (hq : mode.isQueueing = true) :
    ∃ e, k.judged mode = .error e := by
  obtain ⟨m, hm, hscans⟩ := (Option.any_eq_true _ _).1 hk
  obtain ⟨e, he, -⟩ := Method.bars_call hscans hq k.args k.named
  refine ⟨e, ?_⟩
  simp only [judged, hm, he]

theorem judged_of_miscounted (hk : k.Miscounted) (mode : Mode) :
    k.judged mode = .error .badType := by
  obtain ⟨m, hm, hcount⟩ := hk
  have hbind := Signature.bind_of_miscounted m.nodup_required hcount
  have hcall : m.call mode k.args k.named = .error .badType := by
    rw [Method.call, hbind]
    rfl
  simp only [judged, hm, hcall]

end MethodCall

@[simp] theorem Batch.isQueueing_mode (x : Batch) : x.mode.isQueueing = true := by
  unfold Batch.mode
  split <;> rfl

namespace Session

variable {s : Session} {b : BatchId} {a : Act}

/-! ## Refused calls -/

/-- The batch `b` refuses a call. -/
def refuses (s : Session) (b : BatchId) : Act → Bool
  | .enqueue d method args named => d == b && !(s.enqueue d method args named).2.isOk
  | _ => false

/-- The acts of a run without the calls that the batch `b` refused. -/
def accepted (b : BatchId) : Session → List Act → List Act
  | _, [] => []
  | s, a :: acts =>
    if s.refuses b a then accepted b (s.act a) acts else a :: accepted b (s.act a) acts

/-- A scan and a call without a key are left out. -/
example :
    accepted 0 (connected (.none, .none) .none) [.newBatch false,
        .enqueue 0 "zcard" [.bytes [107]] [], .enqueue 0 "zscan" [.bytes [107]] [],
        .enqueue 0 "zcard" [] [], .run 0 false] =
      [.newBatch false, .enqueue 0 "zcard" [.bytes [107]] [], .run 0 false] := by
  with_unfolding_all rfl

/-- The call that an act makes on the batch `b`. -/
def callOn? (b : BatchId) : Act → Option MethodCall
  | .enqueue d method args named => if d = b then some ⟨method, args, named⟩ else none
  | _ => none

theorem callOn?_eq_some_iff {k : MethodCall} :
    callOn? b a = some k ↔ a = .enqueue b k.method k.args k.named := by
  constructor
  · intro h
    cases a with
    | enqueue d method args named =>
      obtain ⟨rfl, hk⟩ := Option.ite_none_right_eq_some.1 h
      obtain rfl := Option.some.inj hk
      rfl
    | _ => cases h
  · rintro rfl
    exact if_pos rfl

/-- A batch refuses a call if it was sent already, or else if the method does. -/
theorem refuses_enqueue_iff {x : Batch} (hx : s.batches[b]? = some x) (k : MethodCall) :
    s.refuses b (.enqueue b k.method k.args k.named) = true ↔
      x.spent = true ∨ ∃ e, k.judged x.mode = .error e := by
  simp only [refuses, beq_self_eq_true, Bool.true_and, Bool.not_eq_true']
  cases hsp : x.spent with
  | true => simp [enqueue, hx, hsp, Except.isOk, Except.toBool]
  | false =>
    rw [enqueue_of_unspent hx hsp]
    cases k.judged x.mode <;> simp [Except.map, Except.isOk, Except.toBool]

/-- Scans are refused, and calls with the wrong number of arguments. -/
theorem refuses_of_unfit {k : MethodCall} (hk : k.scans = true ∨ k.Miscounted) :
    s.refuses b (.enqueue b k.method k.args k.named) = true := by
  cases hx : s.batches[b]? with
  | none => simp [refuses, enqueue, hx, Except.isOk, Except.toBool]
  | some x =>
    refine (refuses_enqueue_iff hx k).2 (.inr ?_)
    rcases hk with hscans | hcount
    · exact k.judged_of_scans hscans x.isQueueing_mode
    · exact ⟨_, k.judged_of_miscounted hcount x.mode⟩

/-- A refused call leaves the session as it is, and is taken by nobody. -/
theorem act_of_refuses (h : s.refuses b a = true) :
    s.act a = s ∧ ∀ on, s.taken? on a = none := by
  cases a with
  | enqueue d method args named =>
    rcases enqueue_cases d method args named s with ⟨e, heq⟩ | ⟨x, c, source, -, -, heq⟩
    · refine ⟨by rw [act, heq], ?_⟩
      intro on
      rw [taken?, heq]
      split <;> rfl
    · -- a call that is taken is not refused
      simp [refuses, heq, Except.isOk, Except.toBool] at h
  | _ => cases h

theorem taken?_of_not_refuses (h : s.refuses b a = false) :
    (s.taken? (some b) a).map Prod.fst = callOn? b a := by
  cases a with
  | enqueue d method args named =>
    rw [taken?, callOn?]
    by_cases hd : d = b
    · subst hd
      rw [if_pos rfl, if_pos rfl]
      -- a call that is not refused adds its slot
      rcases enqueue_cases d method args named s with ⟨e, heq⟩ | ⟨x, c, source, -, -, heq⟩
      · simp [refuses, heq, Except.isOk, Except.toBool] at h
      · rw [heq]
        rfl
    · rw [if_neg (by simpa using Ne.symm hd), if_neg hd]
      rfl
  | call =>
    rw [taken?, if_neg (by simp)]
    rfl
  | _ => rfl

/-! ## Runs without the refused calls -/

theorem accepted_of_refuses (h : s.refuses b a = true) (acts : List Act) :
    accepted b s (a :: acts) = accepted b s acts := by
  rw [accepted, if_pos h, (act_of_refuses h).1]

theorem accepted_of_not_refuses (h : s.refuses b a = false) (acts : List Act) :
    accepted b s (a :: acts) = a :: accepted b (s.act a) acts := by
  rw [accepted, h]
  rfl

/-- It does not matter to a run that the refused calls were made. -/
theorem after_accepted (b : BatchId) (s : Session) (acts : List Act) :
    s.after (accepted b s acts) = s.after acts := by
  induction acts generalizing s with
  | nil => rfl
  | cons a acts ih =>
    cases h : s.refuses b a with
    | true => rw [accepted_of_refuses h, ih, after_cons, (act_of_refuses h).1]
    | false => rw [accepted_of_not_refuses h, after_cons, after_cons, ih]

/-- The calls that are taken, by the batch or by anyone else, are the same without the refused ones,
and they return the same handles. -/
theorem calls_accepted (on : Option BatchId) (b : BatchId) (s : Session) (acts : List Act) :
    calls on s (accepted b s acts) = calls on s acts := by
  induction acts generalizing s with
  | nil => rfl
  | cons a acts ih =>
    cases h : s.refuses b a with
    | true =>
      obtain ⟨hsame, htaken⟩ := act_of_refuses h
      rw [accepted_of_refuses h, ih, calls, htaken, hsame]
      rfl
    | false => rw [accepted_of_not_refuses h, calls, calls, ih]

/-- Each call on the batch that is left is taken. -/
theorem callsOn_accepted (b : BatchId) (s : Session) (acts : List Act) :
    (accepted b s acts).filterMap (callOn? b) = (calls (some b) s acts).map Prod.fst := by
  induction acts generalizing s with
  | nil => rfl
  | cons a acts ih =>
    cases h : s.refuses b a with
    | true =>
      obtain ⟨hsame, htaken⟩ := act_of_refuses h
      rw [accepted_of_refuses h, ih, calls, htaken, hsame]
      rfl
    | false =>
      rw [accepted_of_not_refuses h, calls, List.map_append, List.filterMap_cons, ih,
        ← taken?_of_not_refuses h]
      cases s.taken? (some b) a <;> rfl

/-- A batch, a run, and the same run without the calls that the batch refused. After both runs
everything is the same: what was written, what is still to come, how each handle has ended, and with
them the results of the batch. The calls that are left are taken, by the batch or by the client, for
the same handles as before; and the batch holds their commands and no others, in the order of the
calls. A refused call leaves the session as it is. Scans are refused, and so are calls with too many
or too few arguments. -/
theorem refused_calls_removed (address : Value × Value) (timeout : Timeout) (b : BatchId)
    (acts : List Act) :
    let s := connected address timeout
    s.after (accepted b s acts) = s.after acts ∧
      (∀ on, calls on s (accepted b s acts) = calls on s acts) ∧
      (∀ x, (s.after acts).batches[b]? = some x →
        ((accepted b s acts).filterMap (callOn? b)).map (fun k => k.command? x.mode) =
          x.slots.map fun slot => some slot.command) ∧
      ∀ before a more, acts = before ++ a :: more →
        (((s.after before).refuses b a = true → s.after (before ++ [a]) = s.after before) ∧
          ∀ k, callOn? b a = some k → k.scans = true ∨ k.Miscounted →
            (s.after before).refuses b a = true) := by
  intro s
  refine ⟨after_accepted b s acts, fun on => calls_accepted on b s acts, ?slots, ?refused⟩
  case slots =>
    intro x hx
    have hslots := congrArg (List.map Prod.fst) (slots_of_calls address timeout acts hx)
    simp only [List.map_map, Function.comp_def] at hslots
    rw [callsOn_accepted, List.map_map, ← hslots]
    rfl
  case refused =>
    rintro before a more -
    constructor
    · intro h
      rw [after_append, after_cons, after_nil, (act_of_refuses h).1]
    · intro k hk hunfit
      rw [callOn?_eq_some_iff.1 hk]
      exact refuses_of_unfit hunfit

end Session

end SortedSets

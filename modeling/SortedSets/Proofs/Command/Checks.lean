import SortedSets.Command.Update
import SortedSets.Proofs.Wire.RoundTrip

/-!
# Checks of arguments

A command is made by one check after the other, and the first that fails is the error of the call. The
checks of keys, members, scores and options complain about an invalid argument; they raise nothing
else.

## Main definitions

* `Complains`: what can fail with a complaint about an argument only
* `Value.IsKey`: the keys that can be sent

## Main results

* `Except.bind_eq_ok_iff`, `Except.map_eq_ok_iff`: what comes out of one check after the other
* `complains_checkKey`, `complains_checkMember`, `complains_checkScore`
* `checkKey_of_isKey`: a key that can be sent passes its check
-/

namespace Except

variable {ε α β : Type}

theorem bind_eq_ok_iff {r : Except ε α} {f : α → Except ε β} {b : β} :
    r >>= f = .ok b ↔ ∃ a, r = .ok a ∧ f a = .ok b := by
  cases r <;> simp [bind, Except.bind]

theorem map_eq_ok_iff {r : Except ε α} {f : α → β} {b : β} :
    r.map f = .ok b ↔ ∃ a, r = .ok a ∧ f a = b := by
  cases r <;> simp [Except.map]

end Except

namespace SortedSets

/-! ## Complaints -/

/-- Whatever goes wrong, it is an argument that is invalid. -/
def Complains {α : Type} (r : Except Error α) : Prop :=
  ∀ e, r = .error e → e.class? = some .invalidArgument

namespace Complains

variable {α β : Type}

@[simp] theorem of_ok (a : α) : Complains (.ok a : Except Error α) := by
  intro e he
  cases he

@[simp] theorem of_pure (a : α) : Complains (pure a : Except Error α) := of_ok a

@[simp] theorem of_invalid (c : Complaint) : Complains (.error (.invalid c) : Except Error α) := by
  intro e he
  cases he
  rfl

@[simp] theorem of_throw (c : Complaint) :
    Complains (throw (.invalid c) : Except Error α) := of_invalid c

@[simp] theorem ite_iff {p : Prop} [Decidable p] {r s : Except Error α} :
    Complains (if p then r else s) ↔ (p → Complains r) ∧ (¬ p → Complains s) := by
  by_cases hp : p <;> simp [hp]

@[simp] theorem bind_iff {r : Except Error α} {f : α → Except Error β} :
    Complains (r >>= f) ↔ Complains r ∧ ∀ a, r = .ok a → Complains (f a) := by
  cases r <;> simp [Complains, bind, Except.bind]

@[simp] theorem map_iff {r : Except Error α} {f : α → β} : Complains (f <$> r) ↔ Complains r := by
  cases r <;> simp [Complains, Functor.map, Except.map]

end Complains

@[simp] theorem complains_checkKey (name : String) (v : Value) : Complains (checkKey name v) := by
  simp [checkKey]

@[simp] theorem complains_checkMember (v : Value) : Complains (checkMember v) := by
  simp [checkMember]

@[simp] theorem complains_checkScore (name : String) (v : Value) : Complains (checkScore name v) := by
  unfold checkScore
  split <;> simp

/-! ## Keys -/

/-- The keys that can be sent: what can be an argument, and is not empty. -/
structure Value.IsKey (v : Value) : Prop where
  sendable : v.Sendable
  nonempty : isEmptyText v = false

theorem Value.IsKey.isNone_eq_false {v : Value} (h : v.IsKey) : v.isNone = false := by
  cases h.sendable with
  | bytes | buffer | int | float => rfl
  | text ht hs =>
    cases v with
    | none => cases ht
    | _ => rfl

theorem checkKey_of_isKey {v : Value} (h : v.IsKey) (name : String) : checkKey name v = .ok () := by
  simp [checkKey, h.isNone_eq_false, h.nonempty]

end SortedSets

import SortedSets.Error

/-!
# Replies

A reply is a byte string, an integer, nothing, an error, or an array of replies.

## Main definitions

* `Wire.Reply`: replies of the server
* `Wire.Reply.toValue`: what a caller sees of a reply
* `Wire.Reply.same`: whether two replies are the same
-/

namespace SortedSets.Wire

/-- A reply of the server. -/
inductive Reply where
  | bytes (bs : Bytes)
  | int (n : Int)
  | nil
  | error (message : Text)
  | array (rs : List Reply)

instance : Inhabited Reply := ⟨.nil⟩

mutual

/-- A reply as a value. -/
def Reply.toValue : Reply → Value
  | .bytes bs => .bytes bs
  | .int n => .int n
  | .nil => .none
  | .error message => .failure message
  | .array rs => .list (toValues rs)
termination_by structural r => r

/-- Replies as values. -/
def toValues : List Reply → List Value
  | [] => []
  | r :: rs => r.toValue :: toValues rs
termination_by structural rs => rs

end

/-! ## Equality -/

mutual

/-- Whether two replies are the same. -/
def Reply.same : Reply → Reply → Bool
  | .bytes bs, .bytes cs => bs = cs
  | .int m, .int n => m = n
  | .nil, .nil => true
  | .error s, .error t => s = t
  | .array rs, .array ss => sameAll rs ss
  | _, _ => false
termination_by structural r => r

/-- Whether two lists of replies are the same. -/
def sameAll : List Reply → List Reply → Bool
  | [], [] => true
  | r :: rs, s :: ss => r.same s && sameAll rs ss
  | [], _ :: _ | _ :: _, [] => false
termination_by structural rs => rs

end

mutual

theorem Reply.same_iff (r s : Reply) : r.same s = true ↔ r = s := by
  cases r with
  | array rs => cases s <;> simp [Reply.same, sameAll_iff rs]
  | bytes | int | nil | error => cases s <;> simp [Reply.same]
termination_by structural r

theorem sameAll_iff (rs ss : List Reply) : sameAll rs ss = true ↔ rs = ss := by
  cases rs with
  | nil => cases ss <;> simp [sameAll]
  | cons r rs => cases ss <;> simp [sameAll, Reply.same_iff r, sameAll_iff rs]
termination_by structural rs

end

instance : DecidableEq Reply := fun r s => decidable_of_iff _ (Reply.same_iff r s)

end SortedSets.Wire

import SortedSets.Range

/-!
# Scan options

A scan goes on from a cursor, a non-negative integer that the server hands out, and may ask for
a pattern and a page size.

## Main definitions

* `checkCursor`: a cursor as a caller gives it
* `ScanOptions.ofValues`: the checked constructor of options
* `ScanOptions.arguments`: the options as a command says them
-/

namespace SortedSets

/-- A text or a byte string of digits; a byte string knows ASCII digits only. -/
def isDigitText (v : Value) : Bool :=
  match v with
  | .bytes bs => !bs.isEmpty && bs.all fun b => 48 ≤ b ∧ b ≤ 57
  | v => (v.text?.map Text.isDigits).getD false

/-- A cursor as a caller gives it: a non-negative integer, or a text of digits that is one. -/
def checkCursor (v : Value) : Except Error Nat := do
  let v ← if isDigitText v then (v.toInt).map Value.int else .ok v
  match v with
  | .int n => if n < 0 then throw (.invalid (.cursorNegative n)) else return n.toNat
  | v => throw (.invalid (.cursorType v))

namespace ScanOptions

/-- A pattern as a caller gives it. -/
def checkPattern (v : Value) : Except Error (Option Pattern) :=
  match v with
  | .none => .ok none
  | .bytes bs => .ok (some (.bytes bs))
  | v =>
    match v.text? with
    | some t => .ok (some (.text t))
    | none => .error (.invalid .patternType)

theorem pos_of_some_toNat {n : Int} (h : 0 < n) (k : Nat) (hk : some n.toNat = some k) : 0 < k :=
  Option.some.inj hk ▸ Int.pos_iff_toNat_pos.1 h

/-- The options of a pattern and a count as a caller gives them. -/
def ofValues (pattern count : Value) : Except Error ScanOptions := do
  let pattern ← checkPattern pattern
  match count with
  | .none => return { unrestricted with pattern := pattern }
  | v =>
    let n ← checkInt "count" v
    if h : 0 < n then return ⟨pattern, some n.toNat, pos_of_some_toNat h⟩
    else throw (.invalid .countNotPositive)

/-- The options as a command says them. -/
def arguments (o : ScanOptions) : List Value :=
  (match o.pattern with
    | some p => [.bytes (Bytes.ascii "MATCH"), p.toValue]
    | none => []) ++
  (match o.count with
    | some n => [.bytes (Bytes.ascii "COUNT"), .int n]
    | none => [])

end ScanOptions

end SortedSets

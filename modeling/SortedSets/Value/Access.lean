import SortedSets.Number.Reading
import SortedSets.Value.Equality
import SortedSets.Error

/-!
# Parts of values

How values are taken apart: the items of a value that has items, the element at a position, and
the number that a value denotes.

## Main definitions

* `Value.items?`: the items of a value, in order
* `Value.element`: the element at a position
* `Value.toInt`, `Value.toFloat`: the integer and the score that a value denotes
* `readNumber`: the integer or the score a numeral denotes
-/

namespace SortedSets

namespace Value

/-- The items of a value that has items: the characters of a text, the numbers of a byte string,
the keys of a dictionary, the fields of a record. -/
def items? : Value → Option (List Value)
  | text t => some (t.map fun p => text [p])
  | condition c => some (c.text.map fun p => text [p])
  | bytes bs | buffer bs => some (bs.map fun b => int b.toNat)
  | list vs => some vs
  | dict es => some (es.map Prod.fst)
  | weights ws => some (ws.toList.map float)
  | v => v.fields?

/-- The items of a value, for a caller that needs them. -/
def items (v : Value) : Except Error (List Value) :=
  match v.items? with
  | some vs => .ok vs
  | .none => .error .badType

/-- The element of a value at a position; in a dictionary, the value of the key that equals the
position. -/
def element (v : Value) (i : Nat) : Except Error Value :=
  match v with
  | dict es =>
    match es.find? fun e => e.1.same (.int i) with
    | some e => .ok e.2
    | .none => .error .noKey
  | v => do
    match (← v.items)[i]? with
    | some x => .ok x
    | .none => .error .noIndex

/-- The two items of a value that is taken apart into two. -/
def both (v : Value) : Except Error (Value × Value) := do
  match ← v.items with
  | [x, y] => .ok (x, y)
  | _ => .error .badValue

/-- The characters of a text or a byte string, as far as they can be those of a number. -/
def numeral? : Value → Option (List Char)
  | bytes bs | buffer bs => bs.numeral?
  | v => v.text?.bind Text.numeral?

/-- The integer that a value denotes: a number without its fraction, or a numeral. -/
def toInt : Value → Except Error Int
  | bool b => .ok (if b then 1 else 0)
  | int n => .ok n
  | float .nan => .error .badValue
  | float (.infinity _) => .error .overflow
  | float (.finite s m) => .ok (((Binary64.finite s m).truncate?).getD 0)
  | v =>
    if v.text?.isSome || v.bytes?.isSome then
      match v.numeral?.bind readInt? with
      | some n => .ok n
      | .none => .error .badValue
    else .error .badType

/-- The score that a value denotes. -/
def toFloat : Value → Except Error Binary64
  | float x => .ok x
  | v =>
    match v.numeric? with
    | some (.float x) => .ok x
    | some (.int n) =>
      match Binary64.ofInt? n with
      | some x => .ok x
      | .none => .error .overflow
    | .none =>
      if v.text?.isSome || v.bytes?.isSome then
        match v.numeral?.bind readScore? with
        | some x => .ok x
        | .none => .error .badValue
      else .error .badType

/-- The bytes of a text; a text with a surrogate has none. -/
def encodeText (t : Text) : Except Error Bytes :=
  match t.utf8? with
  | some bs => .ok bs
  | .none => .error .textEncoding

end Value

/-- The number that a numeral denotes: an integer if it is written as one, else a score. -/
def readNumber (numeral : Option (List Char)) : Except Error Value :=
  match numeral.bind readInt? with
  | some n => .ok (.int n)
  | none =>
    match numeral.bind readScore? with
    | some x => .ok (.float x)
    | none => .error .badValue

end SortedSets

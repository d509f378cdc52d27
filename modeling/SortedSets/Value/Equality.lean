import SortedSets.Value.Basic

/-!
# Equality of values

Numbers are equal as numbers, whatever their type; mutable and immutable byte strings are equal
as bytes; a record equals the tuple of its fields. A command equals nothing but itself, and so
does an error. Values that can change have no hash, and neither has a record that holds one.

## Main definitions

* `Value.same`: equality of two values that were built apart
* `Value.sameAsItself`: equality of a value with itself
* `Value.isHashable`: the value may be a key of a dictionary
* `Value.dict?`: the dictionary of a list of entries
-/

namespace SortedSets

/-- A number, of any of the numeric types. -/
inductive Numeric where
  | int (n : Int)
  | float (x : Binary64)
deriving DecidableEq, Repr

namespace Numeric

/-- Equality as numbers. -/
def same : Numeric → Numeric → Bool
  | int n, int m => n == m
  | int n, float x | float x, int n => x.sameInt n
  | float x, float y => x.same y

end Numeric

namespace Value

/-- The number that a value is; truth values are the numbers zero and one. -/
def numeric? : Value → Option Numeric
  | bool b => some (.int (if b then 1 else 0))
  | int n => some (.int n)
  | float x => some (.float x)
  | _ => .none

/-- Two values are the same number, text or byte string, or have the same plain content. -/
def sameAtom : Value → Value → Bool
  | none, none => true
  | aggregate a, aggregate b => a == b
  | weights ws, weights ws' =>
    ws.toList.length == ws'.toList.length && (ws.toList.zip ws'.toList).all fun p => p.1.same p.2
  | v, w =>
    match v.numeric?, w.numeric?, v.text?, w.text?, v.bytes?, w.bytes? with
    | some x, some y, _, _, _, _ => x.same y
    | _, _, some s, some t, _, _ => s == t
    | _, _, _, _, some a, some b => a == b
    | _, _, _, _, _, _ => false

/-- The values are the same atoms, one by one. -/
def sameAtoms : List Value → List Value → Bool
  | [], [] => true
  | v :: vs, w :: ws => sameAtom v w && sameAtoms vs ws
  | _, _ => false

end Value

mutual

/-- Equality of two values that were built apart. -/
def Value.same : Value → Value → Bool
  | .list vs, .list ws => sameAll vs ws
  | .tuple vs, w =>
    match w.fields? with
    | some ws => sameAll vs ws
    | .none => false
  | .scored m s, w =>
    match w.fields? with
    | some [x, y] => m.same x && s.same y
    | _ => false
  | .boundary b, w => b.same w
  | .range r, w => r.same w
  | .weighted a v, w =>
    match w.fields? with
    | some [x, y] => Value.sameAtom (.aggregate a) x && v.same y
    | _ => false
  | .limit l, w =>
    match w.fields? with
    | some ws => Value.sameAtoms l.fields ws
    | .none => false
  | .options o, w =>
    match w.fields? with
    | some ws => Value.sameAtoms [o.patternValue, o.countValue] ws
    | .none => false
  | .dict es, .dict fs => es.length == fs.length && sameEntries es fs
  | v, w => v.sameAtom w
termination_by structural v => v

/-- A boundary equals a value. -/
def Boundary.same : Boundary → Value → Bool
  | ⟨value, included⟩, w =>
    match w.fields? with
    | some [x, y] => value.same x && included.same y
    | _ => false
termination_by structural b => b

/-- A range equals a value. -/
def Range.same : Range → Value → Bool
  | ⟨min, max⟩, w =>
    match w.fields? with
    | some [x, y] => min.same x && max.same y
    | _ => false
termination_by structural r => r

/-- The values are equal, one by one. -/
def sameAll : List Value → List Value → Bool
  | [], [] => true
  | v :: vs, w :: ws => v.same w && sameAll vs ws
  | _, _ => false
termination_by structural vs => vs

/-- Every entry of the first list is among those of the second. -/
def sameEntries : List (Value × Value) → List (Value × Value) → Bool
  | [], _ => true
  | e :: es, fs => (fs.any fun f => sameEntry e f) && sameEntries es fs
termination_by structural es => es

/-- The entries have equal keys and equal values. -/
def sameEntry : Value × Value → Value × Value → Bool
  | (k, v), f => k.same f.1 && v.same f.2
termination_by structural e => e

end

/-- Equality of a value with itself, parts and all: only what is not a number differs from itself,
and it does so alone, not as a part of another value. -/
def Value.sameAsItself : Value → Bool
  | .float .nan => false
  | _ => true

mutual

/-- The value cannot change, nor can a field of it. -/
def Value.isHashable : Value → Bool
  | .list _ | .dict _ | .buffer _ => false
  | .tuple vs => allHashable vs
  | .scored m s => m.isHashable && s.isHashable
  | .boundary b => b.isHashable
  | .range r => r.isHashable
  | .weighted _ v => v.isHashable
  | _ => true
termination_by structural v => v

/-- The fields of a boundary cannot change. -/
def Boundary.isHashable : Boundary → Bool
  | ⟨value, included⟩ => value.isHashable && included.isHashable
termination_by structural b => b

/-- The fields of a range cannot change. -/
def Range.isHashable : Range → Bool
  | ⟨min, max⟩ => min.isHashable && max.isHashable
termination_by structural r => r

/-- None of the values can change. -/
def allHashable : List Value → Bool
  | [] => true
  | v :: vs => v.isHashable && allHashable vs
termination_by structural vs => vs

end

/-- An entry put into a list of entries: it takes the place of the one with an equal key, whose
key stays. -/
def putEntry (key value : Value) : List (Value × Value) → List (Value × Value)
  | [] => [(key, value)]
  | (k, v) :: es => if k.same key then (k, value) :: es else (k, v) :: putEntry key value es

/-- The dictionary of a list of entries, unless one of the keys can change. -/
def Value.dict? (entries : List (Value × Value)) : Option Value :=
  if entries.all fun e => e.1.isHashable then
    some (.dict (entries.foldl (fun es e => putEntry e.1 e.2 es) []))
  else .none

example : (Value.tuple [.int 1, .bool true]).same
    (.boundary ⟨.float Binary64.one, .int 1⟩) = true := by decide +kernel

example : (Value.list [.float .nan]).same (.list [.float .nan]) = false ∧
    (Value.list [.float .nan]).sameAsItself = true := by decide

end SortedSets

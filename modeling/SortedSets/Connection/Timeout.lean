import SortedSets.Value.Access

/-!
# Timeouts

A timeout bounds every round trip of a connection. One that is not positive has expired before
any reply can arrive. Time itself is no part of this library: a positive timeout never expires.

## Main definitions

* `Timeout`, `Timeout.ofValue`
-/

namespace SortedSets

/-- The timeout of a connection. -/
inductive Timeout where
  | none
  /-- The timeout lies in the future. -/
  | ahead
  | expired
  /-- The timeout is no number, or none that a clock knows. -/
  | invalid (e : Error)

namespace Timeout

/-- The timeout of a number of seconds. -/
def ofScore (x : Binary64) : Timeout :=
  if x.isPositive then ahead else expired

/-- The timeout that a caller gives. -/
def ofValue (v : Value) : Timeout :=
  if v.isNone then none
  else
    match v.numeric? with
    | some (.float x) => ofScore x
    | some (.int n) =>
      match Binary64.ofInt? n with
      | some x => ofScore x
      | .none => invalid .overflow
    | .none => invalid .badType

end Timeout

end SortedSets

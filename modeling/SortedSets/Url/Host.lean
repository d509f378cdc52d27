import SortedSets.Url.Pieces

/-!
# Hosts in brackets

A host in brackets is a numeric address: eight groups of four hexadecimal digits between colons,
of which one run of zeros may be left out and the last two may be written as four decimal
octets, perhaps with a zone behind a percent sign; or, after a `v`, an address of a later version.

## Main definitions

* `Url.isOctets`: four decimal octets
* `Url.isGroups`: an address of eight groups
* `Url.isBracketHost`: what may stand in brackets
-/

namespace SortedSets.Url

/-- A number up to 255 without leading zeros. -/
def isOctet (t : Text) : Bool :=
  t.length ≤ 3 && (t.length = 1 || !t.head?.any (·.is '0')) &&
    t.asciiNumber?.any (· ≤ 255)

/-- Four octets between points. -/
def isOctets (t : Text) : Bool :=
  (t.pieces (·.is '.')).length = 4 && (t.pieces (·.is '.')).all isOctet

/-- Up to four hexadecimal digits. -/
def isGroup (t : Text) : Bool :=
  t ≠ [] && t.length ≤ 4 && t.all fun p => p.hexDigit?.isSome

/-- The groups of an address: octets at its end count as two groups. -/
def groups? (t : Text) : Option (List Text) :=
  let parts := t.pieces (·.is ':')
  match parts.getLast? with
  | none => none
  | some last =>
    if parts.length < 3 then none
    else if last.any (·.is '.') then
      if isOctets last then
        some (parts.dropLast ++ [Text.ofString "0", Text.ofString "0"])
      else none
    else some parts

/-- The groups on one side of a left out run; an empty one may only be the outermost, alone. -/
def isSide (ts : List Text) : Bool :=
  ts = [[]] || ts.all isGroup

/-- Eight groups, or fewer with one run left out. -/
def areGroups (ts : List Text) : Bool :=
  if ts.length > 9 then false
  else
    -- a run left out is an empty group within; at an end it empties the outermost group too
    let inner := ts.tail.dropLast
    match inner.countP (· = []) with
    | 0 => ts.length = 8 && ts.all isGroup
    | 1 =>
      let before := ts.take (1 + inner.idxOf [])
      let after := ts.drop (2 + inner.idxOf [])
      let count (side : List Text) := if side = [[]] then 0 else side.length
      isSide before && isSide after && count before + count after < 8
    | _ => false

/-- An address of eight groups, perhaps with a zone. -/
def isGroups (t : Text) : Bool :=
  let zoned :=
    match t.cut (·.is '%') with
    | (_, none) => true
    | (_, some zone) => zone ≠ [] && !zone.any (·.is '%')
  zoned && ((groups? (t.cut (·.is '%')).1).any areGroups)

/-- An address of a later version: its number in hexadecimal digits, a point, and the address. -/
def isFuture (t : Text) : Bool :=
  match t with
  | .scalar 'v' :: t =>
    match Text.cut (·.is '.') t with
    | (version, some address) =>
      version ≠ [] && version.all (fun p => (CodePoint.hexDigit? p).isSome) && address ≠ []
    | _ => false
  | _ => false

/-- What may stand in brackets. -/
def isBracketHost (t : Text) : Bool :=
  match t with
  | .scalar 'v' :: _ => isFuture t
  | _ => isGroups t

example : isBracketHost (Text.ofString "::1") = true ∧
    isBracketHost (Text.ofString "fe80::1:2%eth0") = true ∧
    isBracketHost (Text.ofString "::ffff:1.2.3.4") = true ∧
    isBracketHost (Text.ofString "1:2") = false ∧ isBracketHost (Text.ofString ":::") = false ∧
    isBracketHost (Text.ofString "::1::") = false := by decide

end SortedSets.Url

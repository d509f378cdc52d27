import SortedSets.Error
import SortedSets.Text.Lowercase
import SortedSets.Url.Host

/-!
# The parts of a URL

A URL is a scheme, an authority behind two slashes, a path, a query behind a question mark and a
fragment behind a hash; each but the path may be missing. Controls and blanks in front of a URL
do not count, and neither do tabs and line ends anywhere in it.

## Main definitions

* `Url`: the parts of a URL
* `Url.ofText`: a text taken apart, unless its authority is malformed
* `Url.host?`, `Url.port`: the host and the port of the authority
* `Url.parameters`: the names and values of the query
-/

namespace SortedSets

/-- The parts of a URL that matter for a connection. -/
structure Url where
  scheme : Text
  authority : Text
  path : Text
  query : Text
deriving DecidableEq, Repr

namespace Url

/-- A URL without what does not count: controls and blanks in front, tabs and line ends
anywhere. -/
def strip (t : Text) : Text :=
  (t.dropWhile fun p => p.toNat ≤ 0x20).filter fun p => !(p.is '\t' || p.is '\n' || p.is '\r')

/-- The characters that a scheme may have. -/
def isSchemePoint (p : CodePoint) : Bool :=
  p.isAsciiLetter || p.asciiDigit?.isSome || p.is '+' || p.is '-' || p.is '.'

/-- The scheme of a URL in lower case, and the rest. A colon ends a scheme only if the text in
front of it can be one. -/
def splitScheme (t : Text) : Text × Text :=
  match t.cut (·.is ':') with
  | (p :: s, some rest) =>
    if p.isAsciiLetter && s.all isSchemePoint then (Text.lowercase (p :: s), rest) else ([], t)
  | _ => ([], t)

/-- A character that ends an authority. -/
def endsAuthority (p : CodePoint) : Bool :=
  p.is '/' || p.is '?' || p.is '#'

/-- The authority behind two slashes, and the rest. -/
def splitAuthority : Text → Text × Text
  | .scalar '/' :: .scalar '/' :: t =>
    (t.takeWhile fun p => !endsAuthority p, t.dropWhile fun p => !endsAuthority p)
  | t => ([], t)

/-- The code points beyond ASCII that stand for a character which separates the parts of a
URL, alone or among others. -/
def separatorForms : List Nat :=
  [0x2047, 0x2048, 0x2049, 0x2100, 0x2101, 0x2105, 0x2106, 0x2A74, 0xFE13, 0xFE16, 0xFE55,
   0xFE56, 0xFE5F, 0xFE6B, 0xFF03, 0xFF0F, 0xFF1A, 0xFF1F, 0xFF20]

/-- What names a host and its port, behind what names a user. -/
def hostPart (authority : Text) : Text :=
  authority.afterLast (·.is '@')

/-- The host is one that may stand in brackets. If it does, nothing stands in front of them, and
nothing but a port behind them. -/
def hasBracketHost (authority : Text) : Bool :=
  let t := hostPart authority
  match t.cut (·.is '[') with
  | (before, some bracketed) =>
    let (host, rest) := bracketed.cut (·.is ']')
    before = [] && (rest.getD []).head?.all (·.is ':') && isBracketHost host
  | (_, none) => isBracketHost (t.cut (·.is ':')).1

/-- Brackets come in both kinds or not at all. An authority that has any, even in what names a
user, has a host that may stand in brackets. -/
def hasSoundBrackets (authority : Text) : Bool :=
  match authority.any (·.is '['), authority.any (·.is ']') with
  | false, false => true
  | true, true => hasBracketHost authority
  | _, _ => false

example : hasSoundBrackets (Text.ofString "[::1]:80") = true ∧
    hasSoundBrackets (Text.ofString "x[::1]") = false ∧
    hasSoundBrackets (Text.ofString "[::1]]") = false ∧
    hasSoundBrackets (Text.ofString "[p@[::1]") = true ∧
    hasSoundBrackets (Text.ofString "[p]@v1.a:80") = true ∧
    hasSoundBrackets (Text.ofString "[::1]@host") = false := by decide

/-- An authority is malformed if its brackets are, or if one of its characters stands for a
separator. -/
def isSoundAuthority (authority : Text) : Bool :=
  hasSoundBrackets authority && !authority.any fun p => separatorForms.contains p.toNat

/-- A text taken apart, unless its authority is malformed. -/
def ofText (t : Text) : Except Error Url := do
  let (scheme, rest) := splitScheme (strip t)
  let (authority, rest) := splitAuthority rest
  if !isSoundAuthority authority then throw .badValue
  let (path, query) := (rest.cut (·.is '#')).1.cut (·.is '?')
  return ⟨scheme, authority, path, query.getD []⟩

/-- The host and the port of the authority. -/
def hostAndPort (u : Url) : Text × Text :=
  let t := hostPart u.authority
  match t.cut (·.is '[') with
  | (_, some bracketed) =>
    let (host, rest) := bracketed.cut (·.is ']')
    (host, ((rest.getD []).cut (·.is ':')).2.getD [])
  | (_, none) =>
    let (host, port) := t.cut (·.is ':')
    (host, port.getD [])

/-- The host in lower case but for its zone, unless it is empty. -/
def host? (u : Url) : Option Text :=
  match u.hostAndPort.1 with
  | [] => none
  | t =>
    match t.cut (·.is '%') with
    | (name, none) => some name.lowercase
    | (name, some zone) => some (name.lowercase ++ .scalar '%' :: zone)

/-- The port, unless none is written. -/
def port (u : Url) : Except Error (Option Nat) :=
  match u.hostAndPort.2 with
  | [] => .ok none
  | t =>
    match t.asciiNumber? with
    | some n => if n ≤ 65535 then .ok (some n) else .error .badValue
    | none => .error .badValue

/-- The bytes of ASCII characters, those behind a percent sign decoded. -/
def percentBytes : Text → Bytes
  | [] => []
  | p :: t =>
    match p.is '%', t with
    | true, a :: b :: rest =>
      match a.hexDigit?, b.hexDigit? with
      | some x, some y => (16 * x + y).toUInt8 :: percentBytes rest
      | _, _ => p.toNat.toUInt8 :: percentBytes (a :: b :: rest)
    | _, t => p.toNat.toUInt8 :: percentBytes t

/-- A text with its percent signs decoded, given a run of ASCII characters in reverse. -/
def decodeRuns (run : Text) : Text → Text
  | [] => flush run
  | p :: t => if p.isAscii then decodeRuns (p :: run) t else flush run ++ p :: decodeRuns [] t
where
  /-- The text of a run of ASCII characters given in reverse. -/
  flush (run : Text) : Text := .ofChars (Utf8.decodeLossy (percentBytes run.reverse))

/-- A name or a value of a query: plus signs stand for blanks, and a percent sign stands in
front of the two hexadecimal digits of a byte. -/
def unescape (t : Text) : Text :=
  decodeRuns [] (t.map fun p => if p.is '+' then .scalar ' ' else p)

/-- The names and values of a query, in order; a name without an equals sign has an empty
value. -/
def parameters (u : Url) : List (Text × Text) :=
  ((u.query.pieces (·.is '&')).filter (· ≠ [])).map fun t =>
    let (name, value) := Text.cut (·.is '=') t
    (unescape name, unescape (value.getD []))

end Url

end SortedSets

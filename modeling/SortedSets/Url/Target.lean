import SortedSets.Number.Reading
import SortedSets.Url.Parts

/-!
# The target of a connection

The URL of a server names its host and port, the number of a database and a timeout. What is
ambiguous is refused: a parameter that is given twice or is blank, a database that is given as
path and as parameter, and a database that is not written in the usual way.

## Main definitions

* `Target`: host, port, database and timeout
* `Target.ofUrl`, `Target.ofText`, `Target.ofValue`: the target of a URL
-/

namespace SortedSets

/-- The server and the database of a connection. -/
structure Target where
  host : Text
  port : Nat
  database : Option Nat
  timeout : Option Binary64
deriving DecidableEq, Repr

namespace Target

/-- The host of a URL that names none. -/
def defaultHost : Text := .ofString "localhost"

/-- The port of a URL that names none. -/
def defaultPort : Nat := 6379

/-- Parameters by name, each given once and not blank. -/
def checkParameters : (seen : List (Text × Text)) → List (Text × Text) →
    Except Error (List (Text × Text))
  | seen, [] => .ok seen
  | seen, (name, value) :: rest =>
    if seen.any fun p => p.1 = name then .error (.assertion (.repeatedParameter name value))
    else if value = [] then .error (.assertion (.blankParameter name value))
    else checkParameters (seen ++ [(name, value)]) rest

/-- The value of a parameter. -/
def parameter? (params : List (Text × Text)) (name : String) : Option Text :=
  (params.find? fun p => p.1 = .ofString name).map Prod.snd

/-- The number of a database: decimal digits without leading zeros, as many as there are, or
nothing. -/
def databaseNumber (t : Text) : Except Error (Option Nat) :=
  if t = [] then .ok none
  else if !t.isDecimal then .error (.assertion (.databaseNotDecimal t))
  else if t ≠ [.scalar '0'] ∧ t.head? = some (.scalar '0') then
    .error (.assertion (.databaseLeadingZero t))
  else .ok (some (t.foldl (fun n p => 10 * n + p.decimal?.getD 0) 0))

/-- The database of a URL, given at most once. -/
def databaseOf (path : Text) (params : List (Text × Text)) : Except Error (Option Nat) := do
  let path :=
    match path with
    | .scalar '/' :: t => t
    | t => t
  let fromPath ← databaseNumber path
  let fromQuery ← databaseNumber ((parameter? params "db").getD [])
  match fromPath, fromQuery with
  | some a, some b => throw (.assertion (.twoDatabases a b))
  | some a, none => return some a
  | none, b => return b

/-- The timeout of a URL. -/
def timeoutOf (params : List (Text × Text)) : Except Error (Option Binary64) :=
  match parameter? params "timeout" with
  | none => .ok none
  | some t =>
    match (Text.numeral? t).bind readScore? with
    | some x => .ok (some x)
    | none => .error .badValue

/-- The target of a URL whose scheme is known to be right. -/
def ofParts (u : Url) : Except Error Target := do
  let params ← checkParameters [] u.parameters
  let host := u.host?.getD defaultHost
  let port ← u.port
  -- a port of zero counts as none
  let port := if port = some 0 then defaultPort else port.getD defaultPort
  let db ← databaseOf u.path params
  return ⟨host, port, db, ← timeoutOf params⟩

/-- The scheme of the URLs of a server. -/
def scheme : Text := .ofString "redis"

/-- The target of a URL. -/
def ofText (t : Text) : Except Error Target := do
  let u ← Url.ofText t
  if u.scheme ≠ scheme then throw (.assertion (.urlScheme (.text u.scheme)))
  ofParts u

/-- A URL in bytes: its scheme is bytes too and never the right one. -/
def ofBytes (bs : Bytes) : Except Error Target :=
  if bs.any (0x80 ≤ ·) then .error .textDecoding
  else do
    let u ← Url.ofText (bs.map fun b => .scalar (Bytes.charOf b))
    throw (.assertion (.urlScheme (.bytes (u.scheme.map fun p => p.toNat.toUInt8))))

/-- The target of a URL as a caller gives it. -/
def ofValue (v : Value) : Except Error Target :=
  match v.text?, v.bytes? with
  | some t, _ => ofText t
  | none, some bs => ofBytes bs
  | none, none => if v.isTruthy then .error .noAttribute else ofBytes []

end Target

end SortedSets

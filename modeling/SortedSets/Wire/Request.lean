import SortedSets.Boundary
import SortedSets.Wire.Mark

/-!
# Requests

A command and its arguments are sent as an array of byte strings, each with its length in front.
The length, not the content, says where an argument ends.

## Main definitions

* `Wire.argument`: the bytes of an argument
* `Wire.bulk`, `Wire.request`: a byte string, and an array of them, on the wire
* `Wire.write`: a request appended to what was written before
* `Wire.encode`: the request of a list of arguments
-/

namespace SortedSets.Wire

/-- The bytes of an argument: byte strings as they are, texts encoded, numbers in decimal. Other
values cannot be sent, truth values among them. -/
def argument (v : Value) : Except Error Bytes :=
  match v with
  | .bytes bs | .buffer bs => .ok bs
  | .int n => .ok (Bytes.ofInt n)
  | .float x => (scoreText x).map Bytes.ofChars
  | v =>
    match v.text? with
    | some t => Value.encodeText t
    | none => .error (.notEncodable v)

/-- A mark with a number behind it, on a line of its own. -/
def header (mark : Mark) (n : Nat) : Bytes :=
  mark.byte :: Bytes.ofNat n ++ lineEnd

/-- A byte string on the wire. -/
def bulk (bs : Bytes) : Bytes :=
  header .bulk bs.length ++ bs ++ lineEnd

/-- An array of byte strings on the wire. -/
def request (args : List Bytes) : Bytes :=
  header .array args.length ++ args.flatMap bulk

/-- Arguments appended to what was written before, up to the first that cannot be sent. -/
def writeArguments (out : Bytes) : List Value → Bytes × Except Error Unit
  | [] => (out, .ok ())
  | v :: vs =>
    match argument v with
    | .ok bs => writeArguments (out ++ bulk bs) vs
    | .error e => (out, .error e)

/-- A request appended to what was written before, up to the first argument that cannot be
sent. The arguments are values beside what was written: none of them grows with it. -/
def write (out : Bytes) (args : List Value) : Bytes × Except Error Unit :=
  writeArguments (out ++ header .array args.length) args

/-- The request of a list of arguments. -/
def encode (args : List Value) : Except Error Bytes :=
  match write [] args with
  | (out, .ok ()) => .ok out
  | (_, .error e) => .error e

end SortedSets.Wire

import SortedSets.Conversion

/-!
# Commands

A command is a name, the arguments to send and the conversion of the reply. Before there is a
command its arguments are checked: keys must be there and not be empty, members must be there,
scores and positions must be numbers.

## Main definitions

* `Command`: a command ready to be sent
* `Command.word`, `Command.ofWords`: how commands are built
* `checkKey`, `checkKeys`, `checkMember`, `checkScore`: the checks of arguments
-/

namespace SortedSets

/-- A command ready to be sent; without a conversion the reply is handed on as it is. -/
structure Command where
  name : Bytes
  args : List Value
  conversion : Option Conversion

/-- A word of a command, as an argument. -/
def word (s : String) : Value :=
  .bytes (Bytes.ascii s)

namespace Command

/-- A command whose reply is handed on as it is. -/
def plain (name : String) (args : List Value) : Command where
  name := Bytes.ascii name
  args := args
  conversion := none

/-- A command whose reply is converted. -/
def converted (name : String) (args : List Value) (c : Conversion) : Command where
  name := Bytes.ascii name
  args := args
  conversion := some c

end Command

/-- An empty text or byte string. -/
def isEmptyText (v : Value) : Bool :=
  v.text? = some [] || v.bytes? = some []

/-- A key is there and is not empty. -/
def checkKey (name : String) (v : Value) : Except Error Unit :=
  if v.isNone then .error (.invalid (.missing name))
  else if isEmptyText v then .error (.invalid (.empty name))
  else .ok ()

/-- Keys of source sets: first all are there, then none is empty. -/
def checkKeys (keys : List Value) : Except Error Unit :=
  if keys.any Value.isNone then .error (.invalid .missingSource)
  else keys.forM (checkKey "key")

/-- A member is there. -/
def checkMember (v : Value) : Except Error Unit :=
  if v.isNone then .error (.invalid (.missing "member")) else .ok ()

/-- A number, not a truth value. -/
def checkScore (name : String) : Value → Except Error Unit
  | .int _ | .float _ => .ok ()
  | _ => .error (.invalid (.notNumber name))

/-- A range argument; the absent value is the range of everything. -/
def checkRange : Value → Except Error Range
  | .none => .ok Range.unbounded
  | .range r => .ok r
  | v => .error (.invalid (.rangeType v))

/-- The clause that limits a query. -/
def limitArguments : Value → Except Error (List Value)
  | .none => .ok []
  | .limit .unlimited => .ok []
  | .limit (.window offset count) => do
    let offset ← checkInt32 "offset" (.int offset)
    let count ← checkInt32 "count" (.int count)
    return [word "LIMIT", .int offset, .int count]
  | v => .error (.invalid (.limitType v))

end SortedSets

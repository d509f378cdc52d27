import SortedSets.Value.Shown
import SortedSets.Wire.Fault

/-!
# Errors

An error is a cause. The library's own errors form a small tree of classes; beside them stand
the failures of plain operations on values, and failures of the transport.

## Main definitions

* `Complaint`: what is wrong with an argument
* `Assertion`: what a caller must not do
* `Error`: the causes of failure
* `Error.message?`: the message of an error, for those that have one
* `ErrorClass`: the tree of the library's error classes
* `Error.class?`: the class of an error
-/

namespace SortedSets

/-- What is wrong with an argument. -/
inductive Complaint where
  | boundaryNone
  | boundaryBool
  | boundaryNaN
  | boundaryType (v : Value)
  | rangeEnds
  | mixedRange (min max : String)
  | notInt (name : String)
  | notNumber (name : String)
  | scoreNaN
  | notScoreBoundary (b : Boundary)
  | notLexBoundary (b : Boundary)
  | weightType (v : Value)
  | aggregateType (v : Value)
  | cursorType (v : Value)
  | cursorNegative (n : Int)
  | patternType
  | countNotPositive
  | oddPairs
  | noTuples
  | compareWithNotExist
  | compareType
  | timeoutNegative
  | missing (name : String)
  | empty (name : String)
  | missingSource
  | rangeType (v : Value)
  | limitType (v : Value)
  | optionsType

/-- The message of a complaint. -/
def Complaint.message : Complaint → String
  | boundaryNone => "boundary value must not be None, use Boundary.unbounded()"
  | boundaryBool => "boundary value must be a number or bytes"
  | boundaryNaN => "score boundary must not be NaN"
  | boundaryType v => "boundary value must be int, float, bytes or str, got " ++ v.quoted
  | rangeEnds => "range ends must be Boundary instances"
  | mixedRange a b => "range mixes " ++ a ++ " and " ++ b ++ " boundaries"
  | notInt name => name ++ " argument must be int"
  | notNumber name => name ++ " argument must be int or float"
  | scoreNaN => "score must not be NaN"
  | notScoreBoundary b => "expected score boundary, got " ++ b.quoted
  | notLexBoundary b => "expected lexicographical boundary, got " ++ b.quoted
  | weightType v => "weight must be int or float, got " ++ v.quoted
  | aggregateType v => "aggregate must be Aggregate member, got " ++ v.quoted
  | cursorType v => "cursor argument must be int, got " ++ v.quoted
  | cursorNegative n => "cursor argument must not be negative, got " ++ showInt n
  | patternType => "match argument must be bytes or str"
  | countNotPositive => "count argument must be positive"
  | oddPairs => "length of pairs must be even number"
  | noTuples => "tuples must not be None or empty"
  | compareWithNotExist => "compare can not be combined with ZSET_IF_NOT_EXIST"
  | compareType => "compare must be ZSET_IF_GREATER or ZSET_IF_LESS"
  | timeoutNegative => "timeout must be greater equal 0"
  | missing name => name ++ " must not be None"
  | empty name => name ++ " must not be empty"
  | missingSource => "Source sets must not contain None elements"
  | rangeType v => "range argument must be Range, got " ++ v.quoted
  | limitType v => "limit argument must be Limit, got " ++ v.quoted
  | optionsType => "options argument must be ScanOptions"

/-- What a caller must not do. -/
inductive Assertion where
  | scoreNotText
  | batchSpent
  | commandName (v : Value)
  | addressType (v : Value)
  | urlScheme (scheme : Value)
  | repeatedParameter (name value : Text)
  | blankParameter (name value : Text)
  | databaseNotDecimal (text : Text)
  | databaseLeadingZero (text : Text)
  | twoDatabases (path query : Nat)

/-- A message with the values it is about, shown as a tuple. -/
def assertionTuple (message : String) (vs : List Value) : Text :=
  .ofString (Value.tuple (.text (.ofString message) :: vs)).quoted

/-- The message of an assertion. -/
def Assertion.message : Assertion → Text
  | scoreNotText => .ofString "raw_value must be bytes"
  | batchSpent => .ofString "Pipeline already executed. Create new one."
  | commandName v => v.plain
  | addressType v => assertionTuple "tuple or str expected" [v]
  | urlScheme scheme => assertionTuple "Unsupported URI scheme" [scheme]
  | repeatedParameter p v =>
    assertionTuple "Multiple parameters are not allowed" [.text p, .text v]
  | blankParameter p v => assertionTuple "Empty parameters are not allowed" [.text p, .text v]
  | databaseNotDecimal t => assertionTuple "Invalid decimal integer" [.text t]
  | databaseLeadingZero t => assertionTuple "Expected integer without leading zeroes" [.text t]
  | twoDatabases a b =>
    assertionTuple "Single DB value expected, got path and query" [.int a, .int b]

/-- Why a command was refused or given up for want of a connection. -/
inductive Closing where
  /-- The connection was closed before the command. -/
  | before
  | byServer
  | insideTransaction
  /-- The client closed the connection. -/
  | forced
deriving DecidableEq, Repr

/-- The message of a closing. -/
def Closing.message : Closing → String
  | before => "Connection closed or corrupted"
  | byServer => "Connection closed by server"
  | insideTransaction => "Connection closed inside transaction"
  | forced => ""

/-- A cause of failure. -/
inductive Error where
  | invalid (c : Complaint)
  /-- The number of weights is not the number of source sets. -/
  | weightCount (weights : Nat) (sets : Value)
  | notInt32 (name : String) (n : Int)
  | unsupported (command : Value) (mode : Mode)
  | cursorClosed (scanning : Bool)
  | protocol (f : Wire.Fault)
  | reply (message : Text)
  | batch (transactional : Bool) (errors : List Error)
  | closed (c : Closing)
  | assertion (a : Assertion)
  /-- An argument of a type that no command can carry. -/
  | notEncodable (v : Value)
  | databaseType (v : Value)
  | databaseNegative (n : Int)
  | transport (message : Text)
  /-- A text or a number that cannot be read, or a record of the wrong size. -/
  | badValue
  /-- An operation on a value of the wrong type, or a call with the wrong arguments. -/
  | badType
  | noIndex
  | noKey
  | noAttribute
  | overflow
  | outOfMemory
  | divisionByZero
  /-- A text with a surrogate, which has no encoding. -/
  | textEncoding
  /-- Bytes that are the encoding of no text. -/
  | textDecoding
  /-- A scan that has delivered its last item. -/
  | exhausted
  | timedOut
  /-- A result for a call that has one already. -/
  | invalidState

instance : Inhabited Error := ⟨.badValue⟩

/-- The message of a batch that failed. -/
def batchMessage (transactional : Bool) : String :=
  (if transactional then "MultiExecError" else "PipelineError") ++ " errors:"

/-- The message of an error, for the errors that have one. -/
def Error.message? : Error → Option Text
  | invalid c => some (.ofString c.message)
  | weightCount weights sets =>
    some (.ofString ("The number of weights (" ++ showInt weights ++
      ") must match the number of source sets (") ++ sets.plain ++ .ofString ")")
  | notInt32 name n =>
    some (.ofString (name ++ " must fit a signed 32-bit integer, got " ++ showInt n))
  | unsupported command mode =>
    some (.ofString (command.quoted ++ " cannot be called in " ++ mode.word ++ " mode"))
  | cursorClosed scanning =>
    some (.ofString (if scanning then "Cursor closed while scanning" else "Cursor already closed"))
  | protocol f => some (.ofString f.message)
  | reply message => some message
  | batch transactional _ => some (.ofString (batchMessage transactional))
  | closed c => some (.ofString c.message)
  | assertion a => some a.message
  | notEncodable v =>
    some (.ofString ("Argument " ++ v.quoted ++
      " expected to be of bytearray, bytes, float, int, or str type"))
  | databaseType v => some (.ofString ("DB must be of int type, not " ++ v.quoted))
  | databaseNegative n =>
    some (.ofString ("DB must be greater or equal 0, got " ++ showInt n))
  | transport message => some message
  | _ => none

/-- A command that needs an answer of its own is refused where commands are queued. -/
def Mode.requireDirect (m : Mode) (command : Value) : Except Error Unit :=
  if m.isQueueing then .error (.unsupported command m) else .ok ()

/-- The classes of the library's own errors. -/
inductive ErrorClass where
  | base
  | invalidArgument
  | argumentMismatch
  | argumentOutOfRange
  | unsupportedInMode
  | iteratorClosed
  | protocol
  | reply
  | pipeline
  | multiExec
  | connectionClosed
  | connectionForcedClose
deriving DecidableEq, Repr

namespace ErrorClass

/-- The name of a class. -/
def name : ErrorClass → String
  | base => "RedisError"
  | invalidArgument => "InvalidArgument"
  | argumentMismatch => "ArgumentMismatch"
  | argumentOutOfRange => "ArgumentOutOfRange"
  | unsupportedInMode => "UnsupportedInMode"
  | iteratorClosed => "IteratorClosed"
  | protocol => "ProtocolError"
  | reply => "ReplyError"
  | pipeline => "PipelineError"
  | multiExec => "MultiExecError"
  | connectionClosed => "ConnectionClosedError"
  | connectionForcedClose => "ConnectionForcedCloseError"

/-- All classes, in the order of their names. -/
def all : List ErrorClass :=
  [argumentMismatch, argumentOutOfRange, connectionClosed, connectionForcedClose,
   invalidArgument, iteratorClosed, multiExec, pipeline, protocol, base, reply,
   unsupportedInMode]

/-- The class of a name. -/
def named? (s : String) : Option ErrorClass :=
  all.find? fun c => c.name = s

/-- A class is the same as another or below it in the tree of classes. -/
def isBelow : ErrorClass → ErrorClass → Bool
  | _, base => true
  | argumentMismatch, invalidArgument => true
  | multiExec, pipeline => true
  | connectionForcedClose, connectionClosed => true
  | c, d => c = d

/-- A class and the classes above it, in the order of their names. -/
def lineage (c : ErrorClass) : List ErrorClass :=
  all.filter c.isBelow

/-- Errors of the class are about the value of an argument. -/
def isValueError (c : ErrorClass) : Bool :=
  c.isBelow invalidArgument || c = argumentOutOfRange

example : argumentMismatch.lineage = [argumentMismatch, invalidArgument, base] := by decide

end ErrorClass

/-- The class of an error, if it is one of the library's own. -/
def Error.class? : Error → Option ErrorClass
  | invalid _ => some .invalidArgument
  | weightCount _ _ => some .argumentMismatch
  | notInt32 _ _ => some .argumentOutOfRange
  | unsupported _ _ => some .unsupportedInMode
  | cursorClosed _ => some .iteratorClosed
  | protocol _ => some .protocol
  | reply _ => some .reply
  | batch transactional _ => some (if transactional then .multiExec else .pipeline)
  | closed .forced => some .connectionForcedClose
  | closed _ => some .connectionClosed
  | _ => none

end SortedSets

import Mdx.Fault.Structure
import Mdx.Node.Serial

/-!
# Failures

What may go wrong while a stage or a transform runs, besides the structural errors: a rendering may
be impossible, a value may not be what its place asks for, and a transform may fail in a way of its
own. `Failure.message` is the text that a report of the failure ends with.
-/

namespace Mdx

/-- Why a tree cannot be rendered. -/
inductive GenerationCause where
  /-- The tree's top is not a root node. -/
  | notRooted (found : String)
  /-- There are two default exports. -/
  | secondDefault
  /-- A statement stands below the top level. -/
  | misplacedStatement (kind : String)
  /-- A node's kind cannot be rendered. -/
  | unknownKind (kind : String)
  /-- An element has no tag name. -/
  | missingTagName
deriving DecidableEq, Repr

/-- The wording of a cause. -/
def GenerationCause.reason : GenerationCause → String
  | .notRooted found => "Expected a 'root' node, got '" ++ found ++ "'"
  | .secondDefault => "A document may contain only one default export"
  | .misplacedStatement kind => "'" ++ kind ++ "' statements are only allowed at the top level"
  | .unknownKind kind => "Cannot generate code for node kind '" ++ kind ++ "'"
  | .missingTagName => "Element node without a tagName"

/-- An error of code generation. -/
structure GenerationError where
  cause : GenerationCause
  position : Option Position
deriving DecidableEq, Repr

namespace GenerationError

/-- The wording of an error without its place. -/
def reason (e : GenerationError) : String :=
  e.cause.reason

/-- The text of an error. -/
def message (e : GenerationError) : String :=
  located e.reason e.position

end GenerationError

/-- Why a file cannot be read as a text. -/
inductive FileFault where
  | missing
  | directory
  /-- The path leads through a file. -/
  | notDirectory
  /-- The bytes are not the encoding of a text. -/
  | notText
deriving DecidableEq, Repr

/-- The wording of a file's fault. -/
def FileFault.reason : FileFault → String
  | .missing => "No such file or directory"
  | .directory => "Is a directory"
  | .notDirectory => "Not a directory"
  | .notText => "invalid start byte"

/-- What may go wrong while a stage or a transform runs. -/
inductive Failure where
  | structural (error : StructureError)
  | generation (error : GenerationError)
  /-- A value of the right kind is not acceptable. -/
  | badValue (message : String)
  /-- A value has the wrong kind. -/
  | badKind (message : String)
  /-- A number is too large. -/
  | tooLarge (message : String)
  /-- A member or a key is missing. -/
  | missingKey (key : String)
  /-- An index is out of range. -/
  | outOfRange (message : String)
  /-- A value lacks what is asked of it. -/
  | lacking (message : String)
  /-- A field of a configuration is not acceptable. -/
  | rejectedField (name : String)
  | unreadable (fault : FileFault)
  /-- A failure of a transform's own, under its own label. -/
  | raised (label message : String)
deriving Repr

namespace Failure

/-- The text of a failure. -/
def message : Failure → String
  | .structural e => e.message
  | .generation e => e.message
  | .badValue m => m
  | .badKind m => m
  | .tooLarge m => m
  | .missingKey key => Text.quotedString key
  | .outOfRange m => m
  | .lacking m => m
  | .rejectedField name => "Field '" ++ name ++ "' is not valid"
  | .unreadable fault => fault.reason
  | .raised _ m => m

/-- The most characters of a quoted number text that a message shows. -/
def maxNumberText : Nat := 200

/-- A malformed whole number as a failure. -/
def ofInteger : Json.IntegerFault → Failure
  | .badText text =>
      .badValue ("invalid literal for int() with base 10: " ++
        String.ofList ((Text.quotedString text).toList.take maxNumberText))
  | .tooManyDigits count =>
      .badValue ("Exceeds the limit (" ++ toString Json.maxDigits ++
        " digits) for integer string conversion: value has " ++ toString count ++
        " digits; use sys.set_int_max_str_digits() to increase the limit")
  | .notANumber => .badValue "cannot convert float NaN to integer"
  | .infinite => .tooLarge "cannot convert float infinity to integer"
  | .badKind kind =>
      .badKind ("int() argument must be a string, a bytes-like object or a real number, not '" ++
        kind ++ "'")

/-- A malformed node as a failure. -/
def ofSerial : SerialFault → Failure
  | .missingType shown => .badValue ("Serialized node is missing 'type': " ++ shown)
  | .integer fault => ofInteger fault
  | .missingMember key => .missingKey key
  | .wrongKind kind => .badKind ("'" ++ kind ++ "' object is not subscriptable")
  | .noMembers kind => .lacking ("'" ++ kind ++ "' object has no attribute 'get'")

end Failure

end Mdx

import StreamingTemplate.Path
import StreamingTemplate.Text.Duration

/-!
# Errors of a render

The causes for which loading a template or rendering it fails, and the wording of each. Two of them
are recoverable: a wait that has lasted too long stays registered, and a rejected write leaves the
variables alone. All others end the render.
-/

namespace StreamingTemplate

/-- What a value is, where an object was needed. -/
inductive ValueKind where
  | null
  | bool
  | number
  | string
  | object
  | stream
  deriving DecidableEq, Repr

/-- The kind with its article. -/
def ValueKind.phrase : ValueKind → String
  | .null => "null"
  | .bool => "a bool"
  | .number => "a number"
  | .string => "a string"
  | .object => "an object"
  | .stream => "a stream"

/-- Why a path cannot be written or waited for. -/
inductive PathFault where
  /-- the path has no segments -/
  | empty
  /-- nothing is stored where an object is needed -/
  | unset (segment : String)
  /-- something else is stored where an object is needed -/
  | holds (segment : String) (kind : ValueKind)
  deriving DecidableEq, Repr

def PathFault.message : PathFault → String
  | .empty => "empty path"
  | .unset segment => "'" ++ segment ++ "' is not set"
  | .holds segment kind => "'" ++ segment ++ "' holds " ++ kind.phrase ++ ", not an object"

/-- What is wrong with an instruction in compact form. -/
inductive InstructionFault where
  /-- neither a string nor an array -/
  | shape
  /-- an array that does not start with a string -/
  | unnamed
  /-- an argument of no known form -/
  | argument (position : Nat)
  deriving DecidableEq, Repr

def InstructionFault.message : InstructionFault → String
  | .shape => "expected a string or an array"
  | .unnamed => "directive must start with its name"
  | .argument position => "unsupported argument at position " ++ toString position

/-- The errors of loading and rendering a template. -/
inductive RenderError where
  | unknownDirective (name : String) (index : Nat)
  | unknownFilter (name : String)
  | malformedPath (path : Path) (fault : PathFault)
  /-- a wait has lasted for so many nanoseconds -/
  | unresolvedVariable (path : Path) (waited : Nat)
  | unbalancedBlock (index : Nat)
  | invalidFilterArgs (filter reason : String)
  /-- a directive lacks the path it expects at a position -/
  | missingArgument (directive : String) (position : Nat)
  | filterStalled
  | streamConsumed (path : Path)
  | invalidInstruction (index : Nat) (fault : InstructionFault)
  /-- the text of a template is not JSON of the right shape -/
  | templateJson
  /-- the output failed with a text of its own -/
  | sink (reason : String)
  deriving DecidableEq, Repr

namespace RenderError

/-- Whether the render can go on after the error. -/
def isRecoverable : RenderError → Bool
  | .unresolvedVariable .. | .malformedPath .. => true
  | _ => false

/-- The wording of an error. What is wrong inside a JSON text is not told. -/
def message : RenderError → String
  | .unknownDirective name index =>
    "unknown directive '" ++ name ++ "' at instruction " ++ toString index
  | .unknownFilter name => "unknown filter '" ++ name ++ "'"
  | .malformedPath path fault => "malformed path '" ++ path.text ++ "': " ++ fault.message
  | .unresolvedVariable path waited =>
    "variable '" ++ path.text ++ "' still unresolved after " ++ Duration.text waited
  | .unbalancedBlock index =>
    "block closed at instruction " ++ toString index ++ " without a matching open"
  | .invalidFilterArgs filter reason =>
    "invalid arguments for filter '" ++ filter ++ "': " ++ reason
  | .missingArgument directive position =>
    "directive '" ++ directive ++ "' expects a path argument at position " ++ toString position
  | .filterStalled => "filter chain did not signal end after finish"
  | .streamConsumed path => "stream at '" ++ path.text ++ "' was already consumed"
  | .invalidInstruction index fault =>
    "instruction " ++ toString index ++ " is invalid: " ++ fault.message
  | .templateJson => "template JSON is malformed"
  | .sink reason => "sink error: " ++ reason

end RenderError

end StreamingTemplate

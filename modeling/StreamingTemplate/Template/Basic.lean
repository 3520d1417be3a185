import StreamingTemplate.Path
import StreamingTemplate.Binary64.Text

/-!
# Templates

A template arrives compiled: a list of instructions, each a fragment of literal text or a directive
with arguments. An argument is a literal, the path of a variable, or a filter with the literals it
is constructed from. The interpreter addresses instructions by their index.
-/

namespace StreamingTemplate

/-- A literal argument. -/
inductive Literal where
  | bool (b : Bool)
  | num (x : Binary64)
  | str (s : String)
  deriving DecidableEq, Repr

namespace Literal

/-- The text of a literal for readers. -/
def text : Literal → String
  | .bool b => if b then "true" else "false"
  | .num x => x.display
  | .str s => s

/-- Equality of literals, numbers compared as numbers. -/
def same : Literal → Literal → Bool
  | .bool a, .bool b => a == b
  | .num x, .num y => x.numEq y
  | .str s, .str t => s == t
  | _, _ => false

end Literal

/-- A filter by name, with the literals it is constructed from. -/
structure FilterSpec where
  name : String
  args : List Literal
  deriving DecidableEq, Repr

/-- An argument of a directive. -/
inductive Argument where
  | lit (value : Literal)
  | path (path : Path)
  | filter (spec : FilterSpec)
  deriving DecidableEq, Repr

/-- One instruction of a template. -/
inductive Instruction where
  /-- text to emit as it stands -/
  | literal (text : String)
  /-- a named action -/
  | directive (name : String) (args : List Argument)
  deriving DecidableEq, Repr

/-- A compiled template. -/
structure Template where
  instructions : List Instruction
  deriving DecidableEq, Repr, Inhabited

namespace Template

/-- The number of instructions. -/
def size (t : Template) : Nat := t.instructions.length

/-- The instruction at an index. -/
def get? (t : Template) (index : Nat) : Option Instruction := t.instructions[index]?

end Template

/-! ## Equality with numbers compared as numbers -/

/-- Whether two lists agree item by item. -/
def sameItems {α : Type} (same : α → α → Bool) : List α → List α → Bool
  | [], [] => true
  | a :: as, b :: bs => same a b && sameItems same as bs
  | _, _ => false

def FilterSpec.same (f g : FilterSpec) : Bool :=
  f.name == g.name && sameItems Literal.same f.args g.args

def Argument.same : Argument → Argument → Bool
  | .lit a, .lit b => a.same b
  | .path p, .path q => p == q
  | .filter f, .filter g => f.same g
  | _, _ => false

def Instruction.same : Instruction → Instruction → Bool
  | .literal s, .literal t => s == t
  | .directive m as, .directive n bs => m == n && sameItems Argument.same as bs
  | _, _ => false

/-- Whether two templates have equal instructions. -/
def Template.same (t u : Template) : Bool :=
  sameItems Instruction.same t.instructions u.instructions

end StreamingTemplate

import StreamingTemplate.Template.Tagged

/-!
# The compact form of templates

In the compact form a string is literal text and an array is a directive that starts with its name.
The first argument of a directive is a path if it is a string or an array; later arrays are filters,
a name followed by literals; every other string, number or boolean is a literal. The first
instruction that has none of these forms is reported by its index, and a directive by its first
argument of no known form.
-/

namespace StreamingTemplate

/-- A filter: its name, then literals. -/
def FilterSpec.ofCompact? : List Json → Option FilterSpec
  | .string name :: rest => (rest.mapM Literal.ofJson?).map fun args => ⟨name, args⟩
  | _ => none

/-- The argument at a position. -/
def Argument.ofCompact? (position : Nat) (v : Json) : Option Argument :=
  match position, v with
  | 0, .string s => some (.path (.parse s))
  | 0, .array items => (items.mapM Json.string?).map fun segments => .path ⟨segments⟩
  | _, .array items => (FilterSpec.ofCompact? items).map .filter
  | _, v => (Literal.ofJson? v).map .lit

/-- The arguments from a position on; the position of the first one of no known form is the error.
-/
def Argument.listOfCompact : Nat → List Json → Except Nat (List Argument)
  | _, [] => .ok []
  | position, v :: rest =>
    match Argument.ofCompact? position v with
    | none => .error position
    | some arg => (listOfCompact (position + 1) rest).map (arg :: ·)

def Instruction.ofCompact : Json → Except InstructionFault Instruction
  | .string text => .ok (.literal text)
  | .array (.string name :: rest) =>
    match Argument.listOfCompact 0 rest with
    | .ok args => .ok (.directive name args)
    | .error position => .error (.argument position)
  | .array _ => .error .unnamed
  | _ => .error .shape

/-- The instructions from an index on. -/
def Instruction.listOfCompact : Nat → List Json → Except RenderError (List Instruction)
  | _, [] => .ok []
  | index, v :: rest =>
    match Instruction.ofCompact v with
    | .error fault => .error (.invalidInstruction index fault)
    | .ok i => (listOfCompact (index + 1) rest).map (i :: ·)

/-- Loads a text in compact form. -/
def Template.loadCompact (source : String) : Except RenderError Template :=
  match Json.parse? source with
  | some (.array items) => (Instruction.listOfCompact 0 items).map Template.mk
  | _ => .error .templateJson

/-- The two forms of template texts. -/
inductive Template.Form where
  | tagged
  | compact
  deriving DecidableEq, Repr

/-- Loads a text in a form. -/
def Template.load : Template.Form → String → Except RenderError Template
  | .tagged => loadTagged
  | .compact => loadCompact

end StreamingTemplate

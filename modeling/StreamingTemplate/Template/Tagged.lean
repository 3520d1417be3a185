import StreamingTemplate.Template.Basic
import StreamingTemplate.Error
import StreamingTemplate.Json.Read
import StreamingTemplate.Json.Print

/-!
# The tagged form of templates

In the tagged form an instruction, and likewise an argument, is an object whose field `t` names its
kind. `toTagged` prints it, `Template.ofTagged` reads it. The reader is more liberal than the
printer:

* unknown fields are ignored, a repeated known field is a mistake;
* a record may be listed: an array of the tag and the fields in order;
* missing `args` are no arguments;
* a path may be a dotted text;
* the tag of an argument may be the position of its kind.

A listed record must hold all fields but a missing `args` at the end, and nothing beyond them.
-/

namespace StreamingTemplate

/-! ## Records -/

namespace Json

/-- The content of a record: fields by name, or values in the order of the fields. -/
inductive Record where
  | named (fields : List (String × Json))
  | listed (values : List Json)

/-- The value as a record. -/
def record? : Json → Option Record
  | .array values => some (.listed values)
  | .object fields => some (.named fields)
  | _ => none

/-- The tag of a tagged record, and the rest of the record. -/
def tagged? : Json → Option (Json × Record)
  | .array (tag :: values) => some (tag, .listed values)
  | .object fields =>
    match fields.filter (·.1 == "t") with
    | [(_, tag)] => some (tag, .named (fields.filter (·.1 != "t")))
    | _ => none
  | _ => none

namespace Record

/-- A field by name and position: `some none` if it is missing, `none` if it is repeated. -/
def field? (name : String) (position : Nat) : Record → Option (Option Json)
  | .named fields =>
    match fields.filter (·.1 == name) with
    | [] => some none
    | [(_, v)] => some (some v)
    | _ => none
  | .listed values => some values[position]?

/-- A field that must be there. -/
def required? (name : String) (position : Nat) (r : Record) : Option Json := do
  ← r.field? name position

/-- Whether a listed record has no more values than it has fields. -/
def fits (size : Nat) : Record → Bool
  | .named _ => true
  | .listed values => values.length ≤ size

end Record

end Json

/-! ## Reading -/

/-- A literal is a boolean, a number or a string. -/
def Literal.ofJson? : Json → Option Literal
  | .bool b => some (.bool b)
  | .number n => some (.num n.toBinary64)
  | .string s => some (.str s)
  | _ => none

/-- A path is a dotted text or an array of segments. -/
def Path.ofJson? : Json → Option Path
  | .string s => some (.parse s)
  | .array items => (items.mapM Json.string?).map Path.mk
  | _ => none

/-- The items of a field `args`, none if it is missing. -/
def Json.Record.args? {α : Type} (position : Nat) (item? : Json → Option α) (r : Record) :
    Option (List α) := do
  match ← r.field? "args" position with
  | none => return []
  | some v => (← v.items?).mapM item?

/-- A filter with its arguments. -/
def FilterSpec.ofRecord? (r : Json.Record) : Option FilterSpec := do
  guard (r.fits 2)
  let name ← (← r.required? "name" 0).string?
  let args ← r.args? 1 Literal.ofJson?
  return ⟨name, args⟩

/-- The kinds of arguments, in the order of their positions. -/
def Argument.kinds : List String := ["Lit", "Path", "Filter"]

/-- The kind that the tag of an argument names. -/
def Argument.kind? : Json → Option String
  | .string s => if s ∈ kinds then some s else none
  | tag => tag.nat?.bind fun i => kinds[i]?

def Argument.ofTagged? (v : Json) : Option Argument := do
  let (tag, r) ← v.tagged?
  let kind ← kind? tag
  if kind == "Lit" then
    guard (r.fits 1)
    return .lit (← Literal.ofJson? (← r.required? "v" 0))
  else if kind == "Path" then
    guard (r.fits 1)
    return .path (← Path.ofJson? (← r.required? "path" 0))
  else
    return .filter (← FilterSpec.ofRecord? r)

def Instruction.ofTagged? (v : Json) : Option Instruction := do
  let (tag, r) ← v.tagged?
  let kind ← tag.string?
  if kind == "Literal" then
    guard (r.fits 1)
    return .literal (← (← r.required? "text" 0).string?)
  else if kind == "Directive" then
    guard (r.fits 2)
    let name ← (← r.required? "name" 0).string?
    let args ← r.args? 1 Argument.ofTagged?
    return .directive name args
  else none

/-- The template that a JSON value is in tagged form. -/
def Template.ofTagged? (v : Json) : Option Template := do
  return ⟨← (← v.items?).mapM Instruction.ofTagged?⟩

/-- Loads a text in tagged form. -/
def Template.loadTagged (source : String) : Except RenderError Template :=
  match (Json.parse? source).bind Template.ofTagged? with
  | some t => .ok t
  | none => .error .templateJson

/-! ## Printing -/

/-- A literal; numbers are always written as binary64 numbers. -/
def Literal.toJson : Literal → Json
  | .bool b => .bool b
  | .num x => .number (.float x)
  | .str s => .string s

/-- A path, always by its segments. -/
def Path.toJson (p : Path) : Json := .array (p.segments.map .string)

def Argument.toTagged : Argument → Json
  | .lit v => .object [("t", .string "Lit"), ("v", v.toJson)]
  | .path p => .object [("t", .string "Path"), ("path", p.toJson)]
  | .filter f =>
    .object [("t", .string "Filter"), ("name", .string f.name),
      ("args", .array (f.args.map Literal.toJson))]

def Instruction.toTagged : Instruction → Json
  | .literal text => .object [("t", .string "Literal"), ("text", .string text)]
  | .directive name args =>
    .object [("t", .string "Directive"), ("name", .string name),
      ("args", .array (args.map Argument.toTagged))]

/-- The tagged form of a template. -/
def Template.toTagged (t : Template) : Json := .array (t.instructions.map Instruction.toTagged)

end StreamingTemplate

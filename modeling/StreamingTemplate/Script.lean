import StreamingTemplate.Template.Tagged

/-!
# Data scripts

A data script feeds a render with data over time: a list of steps, each of which writes one variable
at a time counted from the start. `Script.load?` reads the JSON text of a script. A step is a record
with the fields `after_ms`, `path` and `value`, by name or listed; `after_ms` may be missing if the
fields are named, and unknown fields are skipped without asking what they denote.
-/

namespace StreamingTemplate

/-- One step of a data script. -/
structure DataStep where
  /-- the time of the step in milliseconds -/
  afterMs : Nat
  path : Path
  /-- the value as JSON -/
  value : Json
  deriving Repr

namespace DataStep

/-- The fields of a step. -/
def fieldNames : List String := ["after_ms", "path", "value"]

/-- The value of a tree two levels below the top of a document. -/
def innerValue? (t : Json.Syntax) : Option Json := t.value? (Json.depthLimit - 2)

/-- The fields of a named step that count, with their values. -/
def knownFields? : List (List Json.StringPiece × Json.Syntax) → Option (List (String × Json))
  | [] => some []
  | (key, t) :: rest => do
    let k ← Json.StringPiece.text? key
    let more ← knownFields? rest
    if k ∈ fieldNames then return (k, ← innerValue? t) :: more else return more

/-- The step as a record. -/
def record? : Json.Syntax → Option Json.Record
  | .array items => (items.mapM innerValue?).map .listed
  | .object fields => (knownFields? fields).map .named
  | _ => none

/-- The step that a record describes. -/
def ofRecord? (r : Json.Record) : Option DataStep := do
  guard (r.fits 3)
  let afterMs ← match ← r.field? "after_ms" 0 with
    | none => some 0
    | some v => v.nat?
  let path ← Path.ofJson? (← r.required? "path" 1)
  let value ← r.required? "value" 2
  return ⟨afterMs, path, value.canonical⟩

end DataStep

/-- Reads the text of a data script. -/
def Script.load? (source : String) : Option (List DataStep) := do
  match ← Json.Syntax.parse? source with
  | .array items => items.mapM fun t => (DataStep.record? t).bind DataStep.ofRecord?
  | _ => none

end StreamingTemplate

import StreamingTemplate.Filter.Chain
import StreamingTemplate.Template.Basic
import StreamingTemplate.Error

/-!
# Filters by name

A registry knows filters by name and constructs their stages from literal arguments. A chain is
built only if all its stages can be constructed; the first that cannot decides the error, and no
handle is kept.
-/

namespace StreamingTemplate

/-- The constructors of filter stages, by name. -/
structure FilterRegistry (σ : Type) where
  constructor? : String → Option (List Literal → Except RenderError σ)

namespace FilterRegistry

variable {σ : Type}

/-- The registry that knows no filter. -/
def empty : FilterRegistry σ := ⟨fun _ => none⟩

/-- The registry with one more filter, in place of one of the same name. -/
def register (r : FilterRegistry σ) (name : String)
    (constructor : List Literal → Except RenderError σ) : FilterRegistry σ :=
  ⟨fun n => if n = name then some constructor else r.constructor? n⟩

def contains (r : FilterRegistry σ) (name : String) : Bool := (r.constructor? name).isSome

/-- Constructs one stage. -/
def stage (r : FilterRegistry σ) (spec : FilterSpec) : Except RenderError σ :=
  match r.constructor? spec.name with
  | some constructor => constructor spec.args
  | none => .error (.unknownFilter spec.name)

/-- Constructs stages in order. -/
def stages (r : FilterRegistry σ) : List FilterSpec → Except RenderError (List σ)
  | [] => .ok []
  | spec :: rest =>
    match r.stage spec with
    | .error err => .error err
    | .ok s => (r.stages rest).map (s :: ·)

/-- Builds a chain. -/
def chain [FilterStage σ] (r : FilterRegistry σ) (handles : Handles) (specs : List FilterSpec) :
    Except RenderError (Chain σ × Handles) :=
  (r.stages specs).map (Chain.ofStages handles)

end FilterRegistry

end StreamingTemplate

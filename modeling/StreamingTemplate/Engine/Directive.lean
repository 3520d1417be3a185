import StreamingTemplate.Filter.Registry
import StreamingTemplate.Value.Basic

/-!
# Directives

A directive is a named action of a template. It may open or close a block, and it has a body that
runs when the directive is reached and again each time a value it asked for has been found. What a
body does is described by a tree, `Body`: a node is one effect on the render, its branches are
indexed by the answer, and a leaf says how the render moves on (`Flow`) or that it fails. The tree
type is a free monad on the effects; whatever a directive can do is one of its constructors.

`μ` is the type of what directives remember from one run to the next.
-/

namespace StreamingTemplate

/-- How a render moves on after a body. -/
inductive Flow (σ : Type) where
  /-- to the next instruction -/
  | advance
  /-- by running the body again with the value at a path, once it resolves -/
  | await (path : Path)
  /-- by piping a stream, known under a path, to the output -/
  | forward (stream : StreamId) (path : Path) (chain : Option (Chain σ))
  /-- by waiting for a chain whose input is over -/
  | drain (chain : Chain σ)

/-- The body of a directive. -/
inductive Body (σ μ : Type) where
  | done (flow : Flow σ)
  | fail (err : RenderError)
  /-- emit a chunk -/
  | emit (chunk : String) (next : Except RenderError Unit → Body σ μ)
  /-- suppress everything up to the close of the current block -/
  | skip (next : Body σ μ)
  /-- close the current block and go back to the directive that opened it -/
  | restart (next : Except RenderError Unit → Body σ μ)
  /-- close the current block -/
  | close (next : Except RenderError Unit → Body σ μ)
  /-- write a variable -/
  | set (path : Path) (value : Value) (next : Except RenderError Unit → Body σ μ)
  /-- build a filter chain -/
  | build (specs : List FilterSpec) (next : Except RenderError (Chain σ) → Body σ μ)
  /-- feed a chunk to a chain -/
  | feed (chain : Chain σ) (chunk : String) (next : List String → Chain σ → Body σ μ)
  /-- end the input of a chain -/
  | finish (chain : Chain σ) (next : List String → Chain σ → Body σ μ)
  /-- look up what the directives remember -/
  | recall (next : μ → Body σ μ)
  /-- change what the directives remember -/
  | remember (memory : μ) (next : Body σ μ)

namespace Body

variable {σ μ : Type}

/-- Goes on after a success, and fails with an error. -/
def orFail {α : Type} (next : α → Body σ μ) : Except RenderError α → Body σ μ
  | .ok a => next a
  | .error err => .fail err

/-- Emits chunks in order, then goes on. -/
def emitAll : List String → Body σ μ → Body σ μ
  | [], next => next
  | chunk :: rest, next => .emit chunk (orFail fun _ => emitAll rest next)

end Body

/-- A directive. -/
structure Directive (σ μ : Type) where
  opensBlock : Bool := false
  closesBlock : Bool := false
  /-- runs when the directive is reached -/
  call : List Argument → Body σ μ
  /-- runs with a value that was awaited -/
  resume : List Argument → Value → Body σ μ := fun _ _ => .done .advance

/-- The directives, by name. -/
structure DirectiveRegistry (σ μ : Type) where
  directive? : String → Option (Directive σ μ)

namespace DirectiveRegistry

variable {σ μ : Type}

/-- The registry that knows no directive. -/
def empty : DirectiveRegistry σ μ := ⟨fun _ => none⟩

/-- The registry with one more directive, in place of one of the same name. -/
def register (r : DirectiveRegistry σ μ) (name : String) (d : Directive σ μ) :
    DirectiveRegistry σ μ :=
  ⟨fun n => if n = name then some d else r.directive? n⟩

end DirectiveRegistry

/-! ## Arguments -/

/-- The path at a position; a path without segments is as good as none. -/
def pathArg (directive : String) (args : List Argument) (position : Nat) :
    Except RenderError Path :=
  match args[position]? with
  | some (.path path) =>
    if path.isEmpty then .error (.missingArgument directive position) else .ok path
  | _ => .error (.missingArgument directive position)

/-- The filters among the arguments, in order. -/
def filterSpecs (args : List Argument) : List FilterSpec :=
  args.filterMap fun
    | .filter spec => some spec
    | _ => none

/-! ## The built-in directives -/

namespace Directive

variable {σ μ : Type}

/-- `if(path)` opens a block that is skipped if the value is false as a condition. -/
def ifBlock : Directive σ μ where
  opensBlock := true
  call args := Body.orFail (fun path => .done (.await path)) (pathArg "if" args 0)
  resume _ value := if value.isTruthy then .done .advance else .skip (.done .advance)

/-- `endif()` closes a block. -/
def endIf : Directive σ μ where
  closesBlock := true
  call _ := .done .advance

/-- The body of `var` once its value is known: a stream is piped; another value is emitted as one
chunk, or sent through the filters and the output of the chain emitted. -/
def emitValue (path : Path) (value : Value) (chain : Option (Chain σ)) : Body σ μ :=
  match value, chain with
  | .stream id, chain => .done (.forward id path chain)
  | value, none => Body.emitAll [value.text] (.done .advance)
  | value, some chain =>
    .feed chain value.text fun fed chain =>
      .finish chain fun finished chain =>
        Body.emitAll (fed ++ finished) (.done (if chain.isEnded then .advance else .drain chain))

/-- `var(path, filters…)` emits a variable. The filters are constructed once before the value is
known, so that an unknown one fails at once. -/
def var : Directive σ μ where
  call args :=
    Body.orFail
      (fun path => .build (filterSpecs args) (Body.orFail fun _ => .done (.await path)))
      (pathArg "var" args 0)
  resume args value :=
    Body.orFail
      (fun path =>
        match filterSpecs args with
        | [] => emitValue path value none
        | specs => .build specs (Body.orFail fun chain => emitValue path value (some chain)))
      (pathArg "var" args 0)

/-- The registry of the built-in directives. -/
def builtins : DirectiveRegistry σ μ :=
  ((DirectiveRegistry.empty.register "if" ifBlock).register "endif" endIf).register "var" var

end Directive

end StreamingTemplate

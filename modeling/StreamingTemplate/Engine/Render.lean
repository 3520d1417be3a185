import StreamingTemplate.Engine.Directive
import StreamingTemplate.Engine.Status
import StreamingTemplate.Blocks
import StreamingTemplate.Pipe
import StreamingTemplate.Sink
import StreamingTemplate.Store

/-!
# The state of a render, and its elementary steps

`Setup` is what a render is given and never changes: the template, the directives and filters it may
use, and the settings. `Render` is everything that changes: the variables and the waits parked on
them, the open blocks, the cursor, the sink, the status and the pipe in use.

Each operation that can fail returns its outcome beside the state, because a failing operation may
have changed the state before it failed.
-/

namespace StreamingTemplate

/-- The settings of a render. -/
structure RenderSettings where
  /-- how long a directive may wait for a variable before the host is told, in milliseconds -/
  waitTimeoutMs : Option Nat := none
  /-- whether writing sinks flush after every chunk -/
  flushEachChunk : Bool := false
  deriving DecidableEq, Repr, Inhabited

/-- The timeout in nanoseconds. -/
def RenderSettings.waitTimeout (s : RenderSettings) : Option Nat :=
  s.waitTimeoutMs.map (· * 1000000)

/-- What a render is given. -/
structure Setup (σ μ : Type) where
  template : Template
  directives : DirectiveRegistry σ μ
  filters : FilterRegistry σ
  settings : RenderSettings := {}

/-- Who waits for a variable. -/
inductive Waiter where
  /-- the directive at which the render is suspended -/
  | engine
  /-- the host, which asked for the value at a path under a ticket of its own -/
  | host (path : Path) (ticket : String)
  deriving DecidableEq, Repr

/-- A render in progress. -/
structure Render (σ κ μ : Type) where
  store : Store Waiter := {}
  blocks : BlockStack := {}
  skip : SkipState := .notSkipping
  /-- the index of the next instruction -/
  cursor : Nat := 0
  sink : Option κ := none
  status : Status := .idle
  pipe : Option (Pipe σ) := none
  /-- the streams and the handles of filter stages -/
  lines : Lines := {}
  /-- what the directives remember -/
  memory : μ
  /-- the answers the host has been given, in order, with their tickets -/
  answers : List (String × Value) := []
  /-- the present -/
  clock : Instant := 0

namespace Render

variable {σ κ μ : Type}

/-- The outcome of an operation, and the state after it. -/
abbrev Outcome (σ κ μ α : Type) := Except RenderError α × Render σ κ μ

/-! ## Output -/

/-- Pushes a chunk to the sink; without a sink the chunk is dropped. -/
def emit [OutputSink κ] (chunk : String) (r : Render σ κ μ) : Outcome σ κ μ Unit :=
  match r.sink with
  | none => (.ok (), r)
  | some sink =>
    match OutputSink.accept sink chunk with
    | (sink, none) => (.ok (), { r with sink := some sink })
    | (sink, some reason) => (.error (.sink reason), { r with sink := some sink })

/-- Pushes chunks in order, up to the first failure. -/
def emitAll [OutputSink κ] : List String → Render σ κ μ → Outcome σ κ μ Unit
  | [], r => (.ok (), r)
  | chunk :: rest, r =>
    match r.emit chunk with
    | (.ok (), r) => emitAll rest r
    | (.error err, r) => (.error err, r)

/-! ## Blocks -/

/-- Suppresses everything up to the close of the current block. -/
def skipBlock (r : Render σ κ μ) : Render σ κ μ := { r with skip := .since r.blocks.depth }

/-- Closes the innermost block on behalf of the instruction at an index, and says which index opened
it. Leaving the block that is being skipped ends the skipping. -/
def closeBlock (index : Nat) (r : Render σ κ μ) : Outcome σ κ μ Nat :=
  match r.blocks.pop? with
  | none => (.error (.unbalancedBlock index), r)
  | some (frame, blocks) => (.ok frame, { r with blocks, skip := r.skip.afterClose blocks.depth })

/-- The instruction that was reached last. -/
def currentIndex (r : Render σ κ μ) : Nat := r.cursor - 1

/-- Closes the current block and goes back to the directive that opened it. -/
def restartBlock (r : Render σ κ μ) : Outcome σ κ μ Unit :=
  match r.closeBlock r.currentIndex with
  | (.ok frame, r) => (.ok (), { r with cursor := frame })
  | (.error err, r) => (.error err, r)

/-- Closes the current block. -/
def closeCurrent (r : Render σ κ μ) : Outcome σ κ μ Unit :=
  match r.closeBlock r.currentIndex with
  | (.ok _, r) => (.ok (), r)
  | (.error err, r) => (.error err, r)

/-! ## Waits of the host -/

/-- Answers a question of the host, or parks it until the next write under its first segment. -/
def ask (path : Path) (ticket : String) (r : Render σ κ μ) : Render σ κ μ :=
  match r.store.resolve path with
  | some value => { r with answers := r.answers ++ [(ticket, value)] }
  | none => { r with store := r.store.subscribe path (.host path ticket) }

/-- Wakes waits while a directive runs: the host asks again, and the render itself does not wait. -/
def wakeHosts : List Waiter → Render σ κ μ → Render σ κ μ
  | [], r => r
  | .host path ticket :: rest, r => wakeHosts rest (r.ask path ticket)
  | .engine :: rest, r => wakeHosts rest r

/-- Writes a variable while a directive runs. -/
def setWithin (path : Path) (value : Value) (r : Render σ κ μ) : Outcome σ κ μ Unit :=
  match r.store.set path value with
  | .error err => (.error err, r)
  | .ok (store, woken) => (.ok (), wakeHosts woken { r with store })

/-! ## Ends -/

/-- Gives the pipe up, if there is one. -/
def dropPipe (r : Render σ κ μ) : Render σ κ μ :=
  match r.pipe with
  | some pipe => { r with pipe := none, lines := pipe.drop r.lines }
  | none => r

/-- Ends the render with an error. -/
def fail (err : RenderError) (r : Render σ κ μ) : Outcome σ κ μ Unit :=
  (.error err, { r.dropPipe with status := .failed })

/-- Ends the render behind the last instruction, and closes the sink. -/
def complete [OutputSink κ] (r : Render σ κ μ) : Outcome σ κ μ Unit :=
  let r := { r with status := .done }
  match r.sink with
  | none => (.ok (), r)
  | some sink =>
    match OutputSink.close sink with
    | (sink, none) => (.ok (), { r with sink := some sink })
    | (sink, some reason) => fail (.sink reason) { r with sink := some sink }

end Render

end StreamingTemplate

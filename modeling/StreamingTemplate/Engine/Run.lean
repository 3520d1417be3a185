import StreamingTemplate.Engine.Render

/-!
# Running a render

`perform` runs the body of a directive. `turn` does one thing at a time: execute the instruction at
the cursor, carry out the flow of a directive, hand an awaited value back, or drain the pipe; it
says what is to be done next or that the render stops for now. `run` repeats turns.

A template with a restarting directive may run for ever, a body may await for ever what is already
there, and stages may send to each other for ever. So `run` has fuel, which also bounds the work of
filter chains; `none` means that it did not suffice. More fuel never changes an answer.
-/

namespace StreamingTemplate

namespace Setup

variable {σ μ : Type}

/-- The body that takes the awaited value of the directive at an index. -/
def resumption (setup : Setup σ μ) (index : Nat) (value : Value) :
    Except RenderError (Body σ μ) :=
  match setup.template.get? index with
  | some (.directive name args) =>
    match setup.directives.directive? name with
    | some d => .ok (d.resume args value)
    | none => .error (.unknownDirective name index)
  | _ => .error (.unknownDirective "" index)

end Setup

namespace Render

variable {σ κ μ : Type} [FilterStage σ] [OutputSink κ]

/-! ## Bodies -/

/-- Runs the body of a directive. -/
def perform (setup : Setup σ μ) (fuel : Nat) : Body σ μ → Render σ κ μ →
    Option (Outcome σ κ μ (Flow σ))
  | .done flow, r => some (.ok flow, r)
  | .fail err, r => some (.error err, r)
  | .emit chunk next, r => let (res, r) := r.emit chunk; perform setup fuel (next res) r
  | .skip next, r => perform setup fuel next r.skipBlock
  | .restart next, r => let (res, r) := r.restartBlock; perform setup fuel (next res) r
  | .close next, r => let (res, r) := r.closeCurrent; perform setup fuel (next res) r
  | .set path value next, r =>
    let (res, r) := r.setWithin path value
    perform setup fuel (next res) r
  | .build specs next, r =>
    match setup.filters.chain r.lines.handles specs with
    | .ok (chain, handles) =>
      perform setup fuel (next (.ok chain)) { r with lines := { r.lines with handles } }
    | .error err => perform setup fuel (next (.error err)) r
  | .feed chain chunk next, r =>
    match chain.accept fuel r.lines.handles chunk with
    | none => none
    | some res =>
      perform setup fuel (next res.chunks res.chain)
        { r with lines := { r.lines with handles := res.handles } }
  | .finish chain next, r =>
    match chain.finish fuel r.lines.handles with
    | none => none
    | some res =>
      perform setup fuel (next res.chunks res.chain)
        { r with lines := { r.lines with handles := res.handles } }
  | .recall next, r => perform setup fuel (next r.memory) r
  | .remember memory next, r => perform setup fuel next { r with memory }

/-! ## Turns -/

/-- What a render does in one turn. -/
inductive Task (σ : Type) where
  /-- execute the instruction at the cursor -/
  | instruction
  /-- carry out the flow of the directive at an index -/
  | flow (directive : Nat) (flow : Flow σ)
  /-- hand a value back to the directive at an index -/
  | resume (directive : Nat) (value : Value)
  /-- forward what the pipe has, on behalf of the directive at an index -/
  | drain (directive : Nat)

/-- How a turn ends. -/
inductive Turn (σ : Type) where
  /-- the render goes on with a task -/
  | next (task : Task σ)
  /-- the render stops for now, or for good -/
  | stop (outcome : Except RenderError Unit)

/-- A turn that ends the render with an error. -/
def failTurn (err : RenderError) (r : Render σ κ μ) : Turn σ × Render σ κ μ :=
  let (outcome, r) := fail err r
  (.stop outcome, r)

/-- A turn that runs a body of the directive at an index. -/
def bodyTurn (setup : Setup σ μ) (fuel : Nat) (index : Nat) (body : Body σ μ)
    (r : Render σ κ μ) : Option (Turn σ × Render σ κ μ) :=
  (perform setup fuel body r).map fun
    | (.ok flow, r) => (.next (.flow index flow), r)
    | (.error err, r) => failTurn err r

/-- Reaching a directive: it opens or closes its block whether or not output is suppressed, and its
body runs only if it is not. -/
def directiveTurn (setup : Setup σ μ) (fuel : Nat) (index : Nat) (name : String)
    (args : List Argument) (r : Render σ κ μ) : Option (Turn σ × Render σ κ μ) :=
  match setup.directives.directive? name with
  | none => some (failTurn (.unknownDirective name index) r)
  | some d =>
    let r := if d.opensBlock then { r with blocks := r.blocks.push index } else r
    let (closed, r) := if d.closesBlock then r.closeBlock index else (.ok 0, r)
    match closed with
    | .error err => some (failTurn err r)
    | .ok _ =>
      if r.skip.isSkipping then some (.next .instruction, r)
      else bodyTurn setup fuel index (d.call args) r

/-- Executing the instruction at the cursor; behind the last one the render is complete. -/
def instructionTurn (setup : Setup σ μ) (fuel : Nat) (r : Render σ κ μ) :
    Option (Turn σ × Render σ κ μ) :=
  match setup.template.get? r.cursor with
  | none => let (outcome, r) := complete r; some (.stop outcome, r)
  | some instruction =>
    let index := r.cursor
    let r := { r with cursor := index + 1 }
    match instruction with
    | .literal text =>
      if r.skip.isSkipping then some (.next .instruction, r)
      else match r.emit text with
        | (.ok (), r) => some (.next .instruction, r)
        | (.error err, r) => some (failTurn err r)
    | .directive name args => directiveTurn setup fuel index name args r

/-- Forwarding what the pipe has: the render is suspended while the pipe stays open. -/
def drainTurn (fuel : Nat) (index : Nat) (r : Render σ κ μ) : Option (Turn σ × Render σ κ μ) :=
  match r.pipe with
  | none => some (.next .instruction, r)
  | some pipe =>
    (pipe.read fuel r.lines).map fun
      | (.error err, pipe, lines) => failTurn err { r with lines, pipe := some pipe }
      | (.ok (.pending chunks), pipe, lines) =>
        match emitAll chunks { r with lines, pipe := some pipe } with
        | (.error err, r) => failTurn err r
        | (.ok (), r) =>
          let wait := if pipe.sourceOpen then Wait.stream index else Wait.filter index
          (.stop (.ok ()), { r with status := .suspended wait })
      | (.ok (.closed chunks), pipe, lines) =>
        match emitAll chunks { r with lines, pipe := some pipe } with
        | (.error err, r) => failTurn err r
        | (.ok (), r) => (.next .instruction, { r.dropPipe with status := .running })

/-- Carrying out a flow. -/
def flowTurn (index : Nat) (flow : Flow σ) (r : Render σ κ μ) : Turn σ × Render σ κ μ :=
  match flow with
  | .advance => (.next .instruction, r)
  | .await path =>
    match r.store.resolve path with
    | some value => (.next (.resume index value), r)
    | none =>
      (.stop (.ok ()),
        { r with
          store := r.store.subscribe path .engine
          status := .suspended (.variable path index r.clock) })
  | .forward stream path chain =>
    match Pipe.open? r.lines stream chain with
    | none => failTurn (.streamConsumed path) r
    | some (pipe, lines) => (.next (.drain index), { r with pipe := some pipe, lines })
  | .drain chain => (.next (.drain index), { r with pipe := some (.draining chain) })

/-- One turn. -/
def turn (setup : Setup σ μ) (fuel : Nat) (task : Task σ) (r : Render σ κ μ) :
    Option (Turn σ × Render σ κ μ) :=
  match task with
  | .instruction => instructionTurn setup fuel r
  | .flow index flow => some (flowTurn index flow r)
  | .resume index value =>
    match setup.resumption index value with
    | .ok body => bodyTurn setup fuel index body r
    | .error err => some (failTurn err r)
  | .drain index => drainTurn fuel index r

/-- Turns until the render stops. -/
def run (setup : Setup σ μ) : Nat → Task σ → Render σ κ μ → Option (Outcome σ κ μ Unit)
  | 0, _, _ => none
  | fuel + 1, task, r =>
    match turn setup fuel task r with
    | none => none
    | some (.stop outcome, r) => some (outcome, r)
    | some (.next task, r) => run setup fuel task r

end Render

end StreamingTemplate

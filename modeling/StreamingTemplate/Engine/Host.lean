import StreamingTemplate.Engine.Run

/-!
# What the host does with a render

A render moves only when the host calls one of these operations: `attach` starts it, `set` writes a
variable and resumes a render that was waiting for it, `pump` forwards what a piped stream or a
filter chain has produced. `get` asks for the value at a path, now or as soon as there is one; the
answers are collected in `Render.answers`. `checkTimeout` reports a wait that has lasted too long,
and leaves it in place.
-/

namespace StreamingTemplate.Render

variable {σ κ μ : Type} [FilterStage σ] [OutputSink κ]

/-! ## Starting and moving on -/

/-- Attaches the sink and starts the render. A render starts once: later sinks are ignored. -/
def attach (setup : Setup σ μ) (fuel : Nat) (sink : κ) (r : Render σ κ μ) :
    Option (Outcome σ κ μ Unit) :=
  if r.status = .idle then
    run setup fuel .instruction { r with sink := some sink, status := .running }
  else some (.ok (), r)

/-- Runs a render that is running. -/
def advance (setup : Setup σ μ) (fuel : Nat) (r : Render σ κ μ) : Option (Outcome σ κ μ Unit) :=
  if r.status = .running then run setup fuel .instruction r else some (.ok (), r)

/-- Forwards what the pipe has, if the render is suspended on it. -/
def pump (setup : Setup σ μ) (fuel : Nat) (r : Render σ κ μ) : Option (Outcome σ κ μ Unit) :=
  match r.status.piping? with
  | some index => run setup fuel (.drain index) r
  | none => some (.ok (), r)

/-- Looks up again what the render waits for: it goes on if the path resolves now, and waits on
otherwise. -/
def resumeParked (setup : Setup σ μ) (fuel : Nat) (r : Render σ κ μ) :
    Option (Outcome σ κ μ Unit) :=
  match r.status with
  | .suspended (.variable path index _) =>
    match r.store.resolve path with
    | none => some (.ok (), { r with store := r.store.subscribe path .engine })
    | some value => run setup fuel (.resume index value) { r with status := .running }
  | _ => some (.ok (), r)

/-! ## Variables -/

/-- Wakes waits in order. The outcome is that of the resumed render; the host's waits get their turn
even if it fails. -/
def wake (setup : Setup σ μ) (fuel : Nat) : List Waiter → Outcome σ κ μ Unit →
    Option (Outcome σ κ μ Unit)
  | [], o => some o
  | .host path ticket :: rest, (outcome, r) => wake setup fuel rest (outcome, r.ask path ticket)
  | .engine :: rest, (_, r) =>
    match resumeParked setup fuel r with
    | none => none
    | some o => wake setup fuel rest o

/-- Writes a variable and wakes what waits under its first segment. -/
def set (setup : Setup σ μ) (fuel : Nat) (path : Path) (value : Value) (r : Render σ κ μ) :
    Option (Outcome σ κ μ Unit) :=
  match r.store.set path value with
  | .error err => some (.error err, r)
  | .ok (store, woken) => wake setup fuel woken (.ok (), { r with store })

omit [FilterStage σ] [OutputSink κ] in
/-- Asks for the value at a path under a ticket. No write could resolve a path without segments. -/
def get (path : Path) (ticket : String) (r : Render σ κ μ) : Outcome σ κ μ Unit :=
  if path.isEmpty then (.error (.malformedPath path .empty), r) else (.ok (), r.ask path ticket)

omit [FilterStage σ] [OutputSink κ] in
/-- The value at a path, if it resolves. -/
def lookup (path : Path) (r : Render σ κ μ) : Option Value := r.store.resolve path

/-! ## Timeouts -/

omit [FilterStage σ] [OutputSink κ] in
/-- The instant at which the current wait for a variable has lasted too long. -/
def waitDeadline (settings : RenderSettings) (r : Render σ κ μ) : Option Instant :=
  match settings.waitTimeout, r.status with
  | some timeout, .suspended (.variable _ _ since) => some (since + timeout)
  | _, _ => none

omit [FilterStage σ] [OutputSink κ] in
/-- Reports a wait for a variable that has lasted for the timeout. The wait stays registered, and
the time for the next report starts now. -/
def checkTimeout (settings : RenderSettings) (now : Instant) (r : Render σ κ μ) :
    Outcome σ κ μ Unit :=
  match settings.waitTimeout, r.status with
  | some timeout, .suspended (.variable path index since) =>
    let waited := (now - since).toNat
    if timeout ≤ waited then
      (.error (.unresolvedVariable path waited),
        { r with status := .suspended (.variable path index now) })
    else (.ok (), r)
  | _, _ => (.ok (), r)

/-! ## Pipes -/

/-- Carries on after a wait on the pipe: a chunk that was taken goes through the chain, and then
everything else that is there. -/
def feedPipe (setup : Setup σ μ) (fuel : Nat) (event : Pipe.Event) (r : Render σ κ μ) :
    Option (Outcome σ κ μ Unit) :=
  match event, r.pipe with
  | .chunk chunk, some pipe =>
    match pipe.pass fuel chunk r.lines with
    | none => none
    | some p =>
      match emitAll p.chunks { r with pipe := some p.pipe, lines := p.lines } with
      | (.error err, r) => some (fail err r)
      | (.ok (), r) => pump setup fuel r
  | _, _ => pump setup fuel r

omit [FilterStage σ] [OutputSink κ] in
/-- Waits for the pipe. -/
def waitPipe? (r : Render σ κ μ) : Option (Pipe.Event × Render σ κ μ) :=
  match r.pipe with
  | none => none
  | some pipe =>
    (pipe.wait? r.lines).map fun (event, pipe, lines) =>
      (event, { r with pipe := some pipe, lines })

/-! ## Producers outside the render -/

omit [FilterStage σ] [OutputSink κ] in
/-- Sends through the handle in a slot: whether its chain is still there; `none` if the slot is
empty. -/
def send (slot : String) (output : LateOutput) (r : Render σ κ μ) : Option Bool × Render σ κ μ :=
  match r.pipe with
  | none => ((r.lines.handles.get? slot).map fun _ => false, r)
  | some pipe =>
    let (taken, chain) := Chain.sendFrom r.lines.handles slot output pipe.chain
    (taken, { r with pipe := some { pipe with chain } })

omit [FilterStage σ] [OutputSink κ] in
/-- Drops the handle in a slot. -/
def release (slot : String) (r : Render σ κ μ) : Render σ κ μ :=
  { r with lines := { r.lines with handles := r.lines.handles.release slot } }

end StreamingTemplate.Render

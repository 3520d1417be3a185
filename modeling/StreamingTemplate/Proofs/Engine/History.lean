import StreamingTemplate.Engine.Host

/-!
# Histories of a render

A render is changed by the calls of its host (`HostCall`) and, between two calls, by producers
outside of it and by time (`OutsideMove`). `History` holds of the renders that are reached from a
start by calls that return and moves in any order, together with the record of the calls and their
outcomes. Each call may need its own fuel.
-/

namespace StreamingTemplate

/-- What a pipe can be waited for: its stream, or the stages of its chain. -/
inductive PipeSide where
  | source
  | chain
  deriving DecidableEq, Repr

namespace Render

variable {σ κ μ : Type}

/-- A render that has not been given anything yet. -/
def fresh (memory : μ) (lines : Lines := {}) (clock : Instant := 0) : Render σ κ μ :=
  { memory, lines, clock }

/-- Waits for one side of the pipe. -/
def waitSide? (side : PipeSide) (r : Render σ κ μ) : Option (Pipe.Event × Render σ κ μ) :=
  match r.pipe with
  | none => none
  | some pipe =>
    (match side with
      | .source => pipe.waitSource? r.lines
      | .chain => pipe.waitChain? r.lines).map fun (event, pipe, lines) =>
        (event, { r with pipe := some pipe, lines })

end Render

/-! ## Calls of the host

What a host can do with a render, with the outcomes as they are returned to it. The calls that do
what directives do are among them; the results about hosts that let the render go on leave them
out by `HostCall.proceeds` and the like. -/

/-- A call of the host on a render. -/
inductive HostCall (κ : Type) where
  | attach (sink : κ)
  | advance
  | pump
  | set (path : Path) (value : Value)
  | get (path : Path) (ticket : String)
  | checkTimeout (now : Instant)
  | emit (chunk : String)
  | skip
  | restart
  | close
  /-- hand over what a wait on the pipe has ended with -/
  | feed (event : Pipe.Event)
  /-- wait for one side of the pipe, and hand over what has come there, if something has -/
  | forward (side : PipeSide)

namespace HostCall

variable {σ κ μ : Type} [FilterStage σ] [OutputSink κ]

/-- Carries a call out. -/
def run (setup : Setup σ μ) (fuel : Nat) (call : HostCall κ) (r : Render σ κ μ) :
    Option (Render.Outcome σ κ μ Unit) :=
  match call with
  | .attach sink => r.attach setup fuel sink
  | .advance => r.advance setup fuel
  | .pump => r.pump setup fuel
  | .set path value => r.set setup fuel path value
  | .get path ticket => some (r.get path ticket)
  | .checkTimeout now => some (r.checkTimeout setup.settings now)
  | .emit chunk => some (r.emit chunk)
  | .skip => some (.ok (), r.skipBlock)
  | .restart => some r.restartBlock
  | .close => some r.closeCurrent
  | .feed event => r.feedPipe setup fuel event
  | .forward side =>
    match r.waitSide? side with
    | none => some (.ok (), r)
    | some (event, r) => r.feedPipe setup fuel event

/-- Carries calls out in order. Beside the last render stand the outcomes. -/
def runAll (setup : Setup σ μ) (fuel : Nat) :
    List (HostCall κ) → Render σ κ μ → Option (List (Except RenderError Unit) × Render σ κ μ)
  | [], r => some ([], r)
  | call :: rest, r =>
    match call.run setup fuel r with
    | none => none
    | some (outcome, r) =>
      (runAll setup fuel rest r).map fun (outcomes, r) => (outcome :: outcomes, r)

end HostCall

/-! ## Moves outside of the render

Streams are written and ended, late output is sent, handles are released and copied, and time
passes, all without the render. None of it touches more than the pipe, the lines and the clock
(`OutsideMove.apply_frame`). -/

/-- What can happen outside of a render. -/
inductive OutsideMove where
  | createStream
  /-- a chunk is written, unless the stream has ended -/
  | write (stream : StreamId) (chunk : String)
  | endStream (stream : StreamId)
  | send (slot : String) (output : LateOutput)
  | release (slot : String)
  /-- the handle of one slot is kept in another one too -/
  | copy (source target : String)
  /-- time passes -/
  | tick (now : Instant)

namespace OutsideMove

variable {σ κ μ : Type}

/-- The render after a move. -/
def apply (move : OutsideMove) (r : Render σ κ μ) : Render σ κ μ :=
  match move with
  | .createStream => { r with lines := { r.lines with streams := r.lines.streams.create.2 } }
  | .write stream chunk =>
    if (r.lines.streams.state stream).writerOpen then
      { r with lines := { r.lines with streams := (r.lines.streams.write stream chunk).2 } }
    else r
  | .endStream stream =>
    { r with lines := { r.lines with streams := r.lines.streams.endWriting stream } }
  | .send slot output => (r.send slot output).2
  | .release slot => r.release slot
  | .copy source target =>
    { r with lines := { r.lines with handles := r.lines.handles.copy source target } }
  | .tick now => { r with clock := now }

/-- A move changes the pipe, the lines and the clock at most, and makes no pipe. -/
theorem apply_frame (move : OutsideMove) (r : Render σ κ μ) :
    ∃ pipe lines clock, move.apply r = { r with pipe, lines, clock } ∧
      (r.pipe = none → pipe = none) := by
  cases move with
  | write stream chunk =>
    rw [apply]
    split
    · exact ⟨r.pipe, _, r.clock, rfl, id⟩
    · exact ⟨r.pipe, r.lines, r.clock, rfl, id⟩
  | send slot output =>
    rw [apply, Render.send]
    split
    · exact ⟨r.pipe, r.lines, r.clock, rfl, id⟩
    · rename_i pipe hpipe
      exact ⟨_, r.lines, r.clock, rfl, fun hnone => by simp [hnone] at hpipe⟩
  | tick now => exact ⟨r.pipe, r.lines, now, rfl, id⟩
  | createStream | endStream | release | copy => exact ⟨r.pipe, _, r.clock, rfl, id⟩

end OutsideMove

/-! ## Histories

Calls are not interrupted: what happens outside happens before or after each of them. -/

variable {σ κ μ : Type} [FilterStage σ] [OutputSink κ]

/-- The renders reached from `start`, with the calls made and their outcomes, oldest first. -/
inductive History (setup : Setup σ μ) (start : Render σ κ μ) :
    List (HostCall κ × Except RenderError Unit) → Render σ κ μ → Prop where
  | start : History setup start [] start
  | call {record r call fuel outcome r'} (before : History setup start record r)
      (hcall : HostCall.run setup fuel call r = some (outcome, r')) :
      History setup start (record ++ [(call, outcome)]) r'
  | outside {record r} (before : History setup start record r) (move : OutsideMove) :
      History setup start record (move.apply r)

/-- Calls in order extend a history. -/
theorem History.runAll {setup : Setup σ μ} {start r r' : Render σ κ μ}
    {record : List (HostCall κ × Except RenderError Unit)} {fuel : Nat} {calls : List (HostCall κ)}
    {outcomes : List (Except RenderError Unit)} (h : History setup start record r)
    (hrun : HostCall.runAll setup fuel calls r = some (outcomes, r')) :
    History setup start (record ++ calls.zip outcomes) r' := by
  induction calls generalizing record r outcomes with
  | nil =>
    obtain ⟨rfl, rfl⟩ := Prod.mk.inj (Option.some.inj hrun)
    simpa using h
  | cons call rest ih =>
    rw [HostCall.runAll] at hrun
    split at hrun
    · cases hrun
    · rename_i outcome r₁ hcall
      obtain ⟨⟨outcomes', r₂⟩, hrest, heq⟩ := Option.map_eq_some_iff.mp hrun
      obtain ⟨rfl, rfl⟩ := Prod.mk.inj heq
      have := ih (h.call hcall) hrest
      rwa [List.append_assoc, List.singleton_append] at this

end StreamingTemplate

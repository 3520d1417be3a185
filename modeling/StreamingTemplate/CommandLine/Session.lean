import StreamingTemplate.CommandLine.Args
import StreamingTemplate.Engine.Drive
import StreamingTemplate.Filter.Text
import StreamingTemplate.Script
import StreamingTemplate.Settings.Load
import StreamingTemplate.Template.Compact

/-!
# Rendering from the command line

The program loads its settings, a template and, if there is one, a data script, and renders the
template to its output while the script feeds it data. Time is that of the script: step `k` happens
at the largest `after_ms` among the steps up to it, and steps of one instant are there together. A
wait that reaches its deadline strictly before the next step ends the render with an error. Behind
the last step nothing can come any more, so a render that still waits does not finish.
-/

namespace StreamingTemplate.CommandLine

/-- Why a run of the program fails. -/
inductive RunError where
  | settings (err : SettingsError)
  /-- a file cannot be read -/
  | unreadable (what name : String)
  | badTemplate (name : String) (err : RenderError)
  | badScript (name : String)
  | render (err : RenderError)
  /-- the script ran out while the render was waiting -/
  | unfinished
  deriving DecidableEq, Repr

def RunError.message : RunError → String
  | .settings err => err.message
  | .unreadable what name => "Failed to read " ++ what ++ " " ++ name
  | .badTemplate name _ => "Invalid template " ++ name
  | .badScript name => "Invalid data script " ++ name
  | .render err => err.message
  | .unfinished => "render did not finish"

/-! ## Loading -/

/-- Everything a run needs. -/
structure Job where
  settings : Settings
  template : Template
  script : List DataStep

/-- Reads a file. -/
def readFile (s : Surroundings) (what name : String) : Except RunError String :=
  match s.read? name with
  | some source => .ok source
  | none => .error (.unreadable what name)

/-- The settings of a run. -/
def loadSettings (s : Surroundings) (inv : Invocation) : Except RunError Settings :=
  let overrides : Settings.Overrides :=
    { configPath := inv.config
      waitTimeoutMs := inv.render.waitTimeoutMs
      flushEachChunk := if inv.render.flush then some true else none }
  match Settings.load s overrides with
  | .ok settings => .ok settings
  | .error err => .error (.settings err)

def loadTemplate (s : Surroundings) (name : String) (compact : Bool) :
    Except RunError Template := do
  let source ← readFile s "template" name
  match Template.load (if compact then .compact else .tagged) source with
  | .ok t => return t
  | .error err => .error (.badTemplate name err)

def loadScript (s : Surroundings) (name : String) : Except RunError (List DataStep) := do
  let source ← readFile s "data script" name
  match Script.load? source with
  | some steps => return steps
  | none => .error (.badScript name)

/-- Loads what a run needs, in the order settings, template, script. -/
def loadJob (s : Surroundings) (inv : Invocation) : Except RunError Job := do
  let settings ← loadSettings s inv
  let template ← loadTemplate s inv.render.template inv.render.compact
  let script ← match inv.render.data with
    | some name => loadScript s name
    | none => .ok []
  return ⟨settings, template, script⟩

/-! ## The timeline of a script -/

/-- The writes of one instant. -/
structure Moment where
  /-- in milliseconds -/
  time : Nat
  writes : List (Path × Value)

/-- The moments of steps that happen from a time on: a step waits for those before it. -/
def timeline (start : Nat) : List DataStep → List Moment
  | [] => []
  | step :: rest =>
    let time := max start step.afterMs
    let write := (step.path, Value.ofJson step.value)
    match timeline time rest with
    | [] => [⟨time, [write]⟩]
    | m :: ms =>
      if m.time = time then ⟨time, write :: m.writes⟩ :: ms else ⟨time, [write]⟩ :: m :: ms

/-! ## Running -/

/-- The render of the command line. -/
abbrev Session := Render TextFilter WriterSink Unit

/-- The setup of a job. -/
def Job.setup (job : Job) : Setup TextFilter Unit where
  template := job.template
  directives := Directive.builtins
  filters := TextFilter.registry id
  settings := job.settings.render

/-- The render before it starts. Its waits begin a moment after the instant that the steps of the
script are counted from, so that a step at the very deadline of a wait comes first. -/
def Job.session (_ : Job) : Session := { memory := (), clock := 1 }

/-- The sink of a job. -/
def Job.sink (job : Job) : WriterSink := { flushEachChunk := job.settings.render.flushEachChunk }

/-- How a run stands. -/
inductive Progress where
  /-- the render waits for the script -/
  | waiting (session : Session)
  | ended (result : Except RunError Unit) (session : Session)

/-- The render of a run. -/
def Progress.session : Progress → Session
  | .waiting s | .ended _ s => s

/-- Everything that was written. -/
def Progress.text (p : Progress) : String :=
  match p.session.sink with
  | some sink => sink.device.text
  | none => ""

/-- The first millisecond behind the deadline of the current wait. -/
def Job.timeoutAt? (job : Job) (p : Progress) : Option Nat :=
  (p.session.waitDeadline job.settings.render).map fun d => (d / 1000000 + 1).toNat

/-- The result of a run whose loop has returned. -/
def verdict (outcome : Except RenderError Unit) (session : Session) : Except RunError Unit :=
  match outcome with
  | .error err => .error (.render err)
  | .ok () => if session.status = .done then .ok () else .error .unfinished

/-- The progress after the loop was polled at a time in milliseconds. -/
def Job.poll (job : Job) (fuel time : Nat) (inbox : Inbox) (session : Session) : Option Progress :=
  (session.poll job.setup (time * 1000000 : Nat) fuel true inbox).map fun d =>
    match d.result with
    | .pending => .waiting d.render
    | .returned outcome => .ended (verdict outcome d.render) d.render

/-- Starts the render. -/
def Job.start (job : Job) (fuel : Nat) : Option Progress :=
  (job.session.attach job.setup fuel job.sink).bind fun
    | (.error err, session) => some (.ended (.error (.render err)) session)
    | (.ok (), session) => job.poll fuel 0 {} session

/-- A moment of the script: first the time passes, then its writes are there, and behind the last
one no producer is left. -/
def Job.moment (job : Job) (fuel : Nat) (m : Moment) (last : Bool) (p : Progress) :
    Option Progress :=
  match p with
  | .ended _ _ => some p
  | .waiting session =>
    (job.poll fuel m.time {} session).bind fun
      | .waiting session =>
        job.poll fuel m.time { commands := m.writes, senderOpen := !last } session
      | ended => some ended

/-- The moments of a script in order. -/
def Job.play (job : Job) (fuel : Nat) : List Moment → Progress → Option Progress
  | [], p =>
    match p with
    | .ended _ _ => some p
    | .waiting session => job.poll fuel 0 { senderOpen := false } session
  | [m], p => job.moment fuel m true p
  | m :: rest, p => (job.moment fuel m false p).bind (Job.play job fuel rest)

/-- The result of a run that goes on no more. -/
def Progress.result : Progress → Except RunError Unit
  | .ended result _ => result
  | .waiting _ => .error .unfinished

/-- Runs a job to its end: the result, and what was written. -/
def Job.run (job : Job) (fuel : Nat) : Option (Except RunError Unit × String) :=
  (job.start fuel).bind fun p =>
    (job.play fuel (timeline 0 job.script) p).map fun p => (p.result, p.text)

end StreamingTemplate.CommandLine

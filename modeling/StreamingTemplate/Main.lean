import StreamingTemplate.CommandLine.Session

/-!
# The program

The outer layer of the command line: it reads the files and variables that a run asks for, lets real
time pass between the moments of the data script, and prints what the render writes as it comes.
-/

namespace StreamingTemplate.CommandLine

/-- The texts of those files that can be read. -/
def readFiles (names : List String) : IO (List (String × String)) :=
  names.filterMapM fun (name : String) => do
    try
      let text ← IO.FS.readFile name
      return some (name, text)
    catch _ => return none

/-- The files and variables that a run may look at. -/
def lookAround (inv : Invocation) : IO Surroundings := do
  let env ← Settings.variableNames.filterMapM fun name => do
    return (← IO.getEnv name).map fun value => (name, value)
  let files ← readFiles [".env"]
  let names := Settings.candidates { files, env } inv.config ++ [inv.render.template] ++
    inv.render.data.toList
  return { files := files ++ (← readFiles names), env }

/-- Prints what was written since `shown` characters were printed. -/
def printNew (shown : Nat) (p : Progress) : IO Nat := do
  let stdout ← IO.getStdout
  let text := p.text
  stdout.putStr (text.drop shown).toString
  stdout.flush
  return text.length

/-- Work allowed between two moments. -/
def workLimit : Nat := 100000000

/-- Sleeps until a time in milliseconds after the start, or until the current wait times out. -/
def sleepUntil (job : Job) (start time : Nat) (p : Progress) : IO Unit := do
  let target := match job.timeoutAt? p with
    | some t => min t time
    | none => time
  let elapsed := (← IO.monoMsNow) - start
  IO.sleep (target - elapsed).toUInt32

/-- Plays the moments of a script in real time. -/
def playAll (job : Job) (start : Nat) : List Moment → Nat → Progress → IO Progress
  | _, shown, .ended result session => do
    let _ ← printNew shown (.ended result session)
    return .ended result session
  | [], shown, p => do
    let p := (job.play workLimit [] p).getD p
    let _ ← printNew shown p
    return p
  | m :: rest, shown, p => do
    let shown ← printNew shown p
    sleepUntil job start m.time p
    playAll job start rest shown ((job.moment workLimit m rest.isEmpty p).getD p)

/-- Prints the message of a failed run. -/
def report (err : RunError) : IO UInt32 := do
  IO.eprintln ("Error: " ++ err.message)
  return 1

/-- How to call the program. -/
def usage : String :=
  "Usage: rill [--config PATH] render TEMPLATE [-d|--data PATH] [--compact] " ++
    "[--wait-timeout-ms N] [--flush]"

/-- Loads a job, renders it, and gives the exit code of the program. -/
def start (inv : Invocation) : IO UInt32 := do
  match loadJob (← lookAround inv) inv with
  | .error err => report err
  | .ok job =>
    match job.start workLimit with
    | none => return 1
    | some p =>
      let p ← playAll job (← IO.monoMsNow) (timeline 0 job.script) 0 p
      match p.result with
      | .ok () => return 0
      | .error err => report err

end StreamingTemplate.CommandLine

open StreamingTemplate.CommandLine in
/-- The program. -/
def main (args : List String) : IO UInt32 := do
  match parse args with
  | .error .displayHelp =>
    IO.println usage
    return 0
  | .error _ =>
    IO.eprintln usage
    return 2
  | .ok inv => start inv

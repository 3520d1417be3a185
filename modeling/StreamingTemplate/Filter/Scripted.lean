import StreamingTemplate.Filter.Registry

/-!
# Filter stages described by scripts

A script lists what a stage does with each chunk and at the end of its input, in terms of the chunk,
the arguments the stage was constructed with, and a buffer of its own. Hosts use scripted stages to
try out filters that buffer, end early, or produce through handles.
-/

namespace StreamingTemplate

/-- One step of a script. -/
inductive StageStep where
  /-- push the chunk; at the end of the input, the empty text -/
  | echo
  | push (text : String)
  /-- push the text of an argument, empty if there is none -/
  | arg (position : Nat)
  /-- append the chunk to the buffer -/
  | hold
  /-- push the buffer and empty it -/
  | flush
  | finish
  /-- send a text through a slot -/
  | send (slot text : String)
  /-- send the chunk through a slot -/
  | sendEcho (slot : String)
  /-- send the end through a slot -/
  | sendEnd (slot : String)
  | release (slot : String)
  /-- do a step only the first time -/
  | once (step : StageStep)
  deriving Repr, Inhabited

/-- The script of a stage. -/
structure StageScript where
  accept : List StageStep := []
  finish : List StageStep := [.finish]
  /-- the slot that keeps the handle, if one does -/
  keep : Option String := none
  /-- why the stage cannot be constructed -/
  fault : Option String := none
  deriving Repr

/-- A scripted stage. -/
structure ScriptedStage where
  script : StageScript
  args : List Literal
  buffer : String := ""
  /-- positions of the steps already done that are done only once -/
  spent : List Nat := []
  deriving Repr

namespace ScriptedStage

/-- One step of a script on a chunk: the stage after it and the actions it takes. `position` is that
of the step in its list. -/
def step (chunk : String) (position : Nat) (s : ScriptedStage) :
    StageStep → ScriptedStage × List StageAction
  | .echo => (s, [.push chunk])
  | .push text => (s, [.push text])
  | .arg i => (s, [.push ((s.args[i]?.map Literal.text).getD "")])
  | .hold => ({ s with buffer := s.buffer ++ chunk }, [])
  | .flush => ({ s with buffer := "" }, [.push s.buffer])
  | .finish => (s, [.finish])
  | .send slot text => (s, [.send slot (.chunk text)])
  | .sendEcho slot => (s, [.send slot (.chunk chunk)])
  | .sendEnd slot => (s, [.send slot .finish])
  | .release slot => (s, [.release slot])
  | .once inner =>
    if position ∈ s.spent then (s, [])
    else step chunk position { s with spent := position :: s.spent } inner

/-- The steps of a script in order. -/
def steps (chunk : String) : Nat → ScriptedStage → List StageStep → ScriptedStage × List StageAction
  | _, s, [] => (s, [])
  | position, s, st :: rest =>
    let (s, actions) := step chunk position s st
    let (s, more) := steps chunk (position + 1) s rest
    (s, actions ++ more)

instance : FilterStage ScriptedStage where
  accept s chunk := steps chunk 0 s s.script.accept
  finish s := steps "" 0 { s with spent := [] } s.script.finish
  slots s := s.script.keep.toList

/-- Constructs the stage of a script under the name of its filter. -/
def construct (name : String) (script : StageScript) (args : List Literal) :
    Except RenderError ScriptedStage :=
  match script.fault with
  | some reason => .error (.invalidFilterArgs name reason)
  | none => .ok { script, args }

end ScriptedStage

end StreamingTemplate

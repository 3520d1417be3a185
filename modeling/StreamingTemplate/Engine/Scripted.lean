import StreamingTemplate.Engine.Directive

/-!
# Directives described by scripts

A script lists what a directive does when it is reached, and what it does each time it is resumed
with a value; the last of the resumptions stands for all later ones, and without any the directive
just moves on. Directives of one name share a counter, by which a loop ends.
-/

namespace StreamingTemplate

/-- One step of a script. -/
inductive DirectiveStep where
  | emit (text : String)
  /-- emit the text of the value -/
  | emitValue
  | skip
  /-- skip if the value is false as a condition -/
  | skipIfFalsy
  | restart
  | close
  | set (path : Path) (value : Value)
  /-- restart the block and count down while the counter is positive, then close the block -/
  | again
  | await (path : Path)
  /-- await the path argument at a position -/
  | awaitArg (position : Nat)
  /-- pipe the value, known under a path, through the filters of the directive if it is a stream -/
  | pipeValue (path : Path)
  deriving Repr

/-- The script of a directive. -/
structure DirectiveScript where
  opensBlock : Bool := false
  closesBlock : Bool := false
  call : List DirectiveStep := []
  resume : List (List DirectiveStep) := []
  /-- where the counter starts -/
  times : Nat := 0
  deriving Repr

/-- What the directives of one name remember. -/
structure ScriptMemory where
  /-- the counter -/
  times : Nat
  /-- how often the directive has been resumed since it was last reached -/
  resumed : Nat := 0
  deriving DecidableEq, Repr

/-- What all scripted directives remember, by name. -/
abbrev ScriptMemories := List (String × ScriptMemory)

namespace DirectiveScript

variable {σ : Type}

/-- Changes what the directives of a name remember; `f` also says how to go on. -/
def withMemory (name : String) (script : DirectiveScript)
    (f : ScriptMemory → ScriptMemory × Body σ ScriptMemories) : Body σ ScriptMemories :=
  .recall fun memories =>
    let (memory, next) := f ((Fields.find? name memories).getD { times := script.times })
    .remember (Fields.insert name memory memories) next

/-- The body of a list of steps, run with a value. -/
def body (name : String) (script : DirectiveScript) (args : List Argument) (value : Value) :
    List DirectiveStep → Body σ ScriptMemories
  | [] => .done .advance
  | step :: rest =>
    let next : Unit → Body σ ScriptMemories := fun _ => body name script args value rest
    match step with
    | .emit text => .emit text (Body.orFail next)
    | .emitValue => .emit value.text (Body.orFail next)
    | .skip => .skip (next ())
    | .skipIfFalsy => if value.isTruthy then next () else .skip (next ())
    | .restart => .restart (Body.orFail next)
    | .close => .close (Body.orFail next)
    | .set path v => .set path v (Body.orFail next)
    | .again =>
      withMemory name script fun memory =>
        if 0 < memory.times then
          ({ memory with times := memory.times - 1 }, .restart (Body.orFail next))
        else (memory, .close (Body.orFail next))
    | .await path => .done (.await path)
    | .awaitArg position =>
      Body.orFail (fun path => .done (.await path)) (pathArg name args position)
    | .pipeValue path =>
      match value with
      | .stream id =>
        match filterSpecs args with
        | [] => .done (.forward id path none)
        | specs =>
          .build specs (Body.orFail fun chain => .done (.forward id path (some chain)))
      | _ => next ()

/-- The directive of a script. -/
def directive (name : String) (script : DirectiveScript) : Directive σ ScriptMemories where
  opensBlock := script.opensBlock
  closesBlock := script.closesBlock
  call args :=
    withMemory name script fun memory =>
      ({ memory with resumed := 0 }, body name script args .null script.call)
  resume args value :=
    withMemory name script fun memory =>
      ({ memory with resumed := memory.resumed + 1 },
        body name script args value
          ((script.resume[memory.resumed]?.or script.resume.getLast?).getD []))

end DirectiveScript

end StreamingTemplate

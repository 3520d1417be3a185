import StreamingTemplate.Engine.Host

/-!
# Driving a render from a queue of commands

A host can hand a render over to a loop that owns it until it is finished. The loop applies the
writes that producers have queued, in the order of their arrival, forwards streams and late output
as they come, and enforces the timeout of waits. It gives up when a producer can no longer come:
once the last producer is gone and nothing is being piped.

`poll` runs the loop as far as it gets with what is there now. Queued commands go before a timeout
that is due, and both before the pipe. An error leaves the loop and the rest of the queue stays, so
that the render can be driven again.
-/

namespace StreamingTemplate

/-- The queue of writes between producers and the loop. -/
structure Inbox where
  /-- writes not yet applied, oldest first -/
  commands : List (Path × Value) := []
  /-- whether a producer is left -/
  senderOpen : Bool := true
  /-- whether the receiving end is left -/
  receiverOpen : Bool := true

namespace Inbox

/-- Queues a write; whether it can still be applied. -/
def send (inbox : Inbox) (path : Path) (value : Value) : Bool × Inbox :=
  if inbox.receiverOpen then (true, { inbox with commands := inbox.commands ++ [(path, value)] })
  else (false, inbox)

/-- Drops the last producer. -/
def closeSender (inbox : Inbox) : Inbox := { inbox with senderOpen := false }

/-- Drops the receiving end with everything queued. -/
def dropReceiver (inbox : Inbox) : Inbox := { inbox with receiverOpen := false, commands := [] }

end Inbox

namespace Render

/-- Whether the loop waits for more, or has returned. -/
inductive Drive where
  | pending
  | returned (outcome : Except RenderError Unit)

/-- What a poll leaves behind. -/
structure Driven (σ κ μ : Type) where
  result : Drive
  /-- whether the loop still listens to producers -/
  listening : Bool
  inbox : Inbox
  render : Render σ κ μ

variable {σ κ μ : Type} [FilterStage σ] [OutputSink κ]

/-- What the loop does next. -/
inductive DriveStep where
  /-- the render is finished, or nothing more can come -/
  | return
  /-- the oldest command -/
  | command (path : Path) (value : Value) (rest : List (Path × Value))
  /-- the last producer is gone -/
  | closed
  /-- a wait has lasted until its deadline -/
  | timeout (deadline : Instant)
  /-- something came for the pipe -/
  | event (event : Pipe.Event)
  /-- nothing is there -/
  | wait

/-- Chooses what the loop does next at an instant; a wait on the pipe may take what it reports. -/
def driveStep (setup : Setup σ μ) (now : Instant) (listening : Bool) (inbox : Inbox)
    (r : Render σ κ μ) : DriveStep × Render σ κ μ :=
  let piping := r.status.piping?.isSome
  if r.status.isFinished || r.status = .idle || (!listening && !piping) then (.return, r)
  else
    match listening, inbox.commands with
    | true, (path, value) :: rest => (.command path value rest, r)
    | _, _ =>
      if listening && !inbox.senderOpen then (.closed, r)
      else
        match listening, r.waitDeadline setup.settings with
        | true, some deadline => if deadline ≤ now then (.timeout deadline, r) else (.wait, r)
        | _, _ =>
          if piping then
            match r.waitPipe? with
            | some (event, r) => (.event event, r)
            | none => (.wait, r)
          else (.wait, r)

/-- Runs the loop at an instant until it waits or returns. -/
def poll (setup : Setup σ μ) (now : Instant) : Nat → Bool → Inbox → Render σ κ μ →
    Option (Driven σ κ μ)
  | 0, _, _, _ => none
  | fuel + 1, listening, inbox, r =>
    let (step, r) := driveStep setup now listening inbox r
    match step with
    | .return => some ⟨.returned (.ok ()), listening, inbox, r⟩
    | .wait => some ⟨.pending, listening, inbox, r⟩
    | .closed => poll setup now fuel false inbox r
    | .command path value rest =>
      match set setup fuel path value r with
      | none => none
      | some (.ok (), r) => poll setup now fuel listening { inbox with commands := rest } r
      | some (.error err, r) =>
        some ⟨.returned (.error err), listening, { inbox with commands := rest }, r⟩
    | .timeout deadline =>
      match checkTimeout setup.settings deadline r with
      | (.ok (), r) => poll setup now fuel listening inbox r
      | (.error err, r) => some ⟨.returned (.error err), listening, inbox, r⟩
    | .event event =>
      match feedPipe setup fuel event r with
      | none => none
      | some (.ok (), r) => poll setup now fuel listening inbox r
      | some (.error err, r) => some ⟨.returned (.error err), listening, inbox, r⟩

end Render

end StreamingTemplate

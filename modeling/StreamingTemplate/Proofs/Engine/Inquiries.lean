import StreamingTemplate.Proofs.Engine.History
import StreamingTemplate.Proofs.Engine.Turn

/-!
# The inquiries of a run

The host's question is looked up when it is asked, and again each time a write wakes it. An answer
does not tell at which of these moments it was given. So the runs are told once more, as the list of
the inquiries that are made in them:

* `Inquiry` — a question of the host at the moment at which it is asked or asked again;
* `bodyInquiries`, `runInquiries`, `wakeInquiries`, `HostCall.inquiries` — the inquiries of a body,
  a run, a list of waits and a call, each following the definition that makes them; where fuel runs
  out they are those that were made until then;
* `Inquired` — a history together with its inquiries.
-/

namespace StreamingTemplate

variable {σ κ μ : Type}

/-- A question of the host at the moment at which it is asked, or asked again. -/
structure Inquiry where
  path : Path
  ticket : String
  /-- the store of this moment -/
  store : Store Waiter

/-- The answer: the value to which the path resolves at this moment, if it resolves. -/
def Inquiry.answer? (inquiry : Inquiry) : Option (String × Value) :=
  (inquiry.store.resolve inquiry.path).map (inquiry.ticket, ·)

/-! ## The inquiries of a run

Each definition has the shape of the one whose inquiries it lists, with the same renders at the
same places, so that a fact about both goes by the same induction. -/

namespace Render

/-- The inquiries that are made when waits are woken while a directive runs. -/
def wakeHostsInquiries : List Waiter → Render σ κ μ → List Inquiry
  | [], _ => []
  | .host path ticket :: rest, r =>
    ⟨path, ticket, r.store⟩ :: wakeHostsInquiries rest (r.ask path ticket)
  | .engine :: rest, r => wakeHostsInquiries rest r

/-- The inquiries of a write by a directive. -/
def setWithinInquiries (path : Path) (value : Value) (r : Render σ κ μ) : List Inquiry :=
  match r.store.set path value with
  | .error _ => []
  | .ok (store, woken) => wakeHostsInquiries woken { r with store }

variable [FilterStage σ] [OutputSink κ]

/-- The inquiries of a body: those of its writes. -/
def bodyInquiries (setup : Setup σ μ) (fuel : Nat) : Body σ μ → Render σ κ μ → List Inquiry
  | .done _, _ | .fail _, _ => []
  | .emit chunk next, r => bodyInquiries setup fuel (next (r.emit chunk).1) (r.emit chunk).2
  | .skip next, r => bodyInquiries setup fuel next r.skipBlock
  | .restart next, r => bodyInquiries setup fuel (next r.restartBlock.1) r.restartBlock.2
  | .close next, r => bodyInquiries setup fuel (next r.closeCurrent.1) r.closeCurrent.2
  | .set path value next, r =>
    setWithinInquiries path value r ++
      bodyInquiries setup fuel (next (r.setWithin path value).1) (r.setWithin path value).2
  | .build specs next, r =>
    match setup.filters.chain r.lines.handles specs with
    | .ok (chain, handles) =>
      bodyInquiries setup fuel (next (.ok chain)) { r with lines := { r.lines with handles } }
    | .error err => bodyInquiries setup fuel (next (.error err)) r
  | .feed chain chunk next, r =>
    match chain.accept fuel r.lines.handles chunk with
    | none => []
    | some res =>
      bodyInquiries setup fuel (next res.chunks res.chain)
        { r with lines := { r.lines with handles := res.handles } }
  | .finish chain next, r =>
    match chain.finish fuel r.lines.handles with
    | none => []
    | some res =>
      bodyInquiries setup fuel (next res.chunks res.chain)
        { r with lines := { r.lines with handles := res.handles } }
  | .recall next, r => bodyInquiries setup fuel (next r.memory) r
  | .remember memory next, r => bodyInquiries setup fuel next { r with memory }

/-- The inquiries of a turn: those of the body that it runs, if it runs one. -/
def turnInquiries (setup : Setup σ μ) (fuel : Nat) (task : Task σ) (r : Render σ κ μ) :
    List Inquiry :=
  match task with
  | .instruction =>
    match setup.template.get? r.cursor with
    | some (.directive name args) =>
      match setup.directives.directive? name with
      | none => []
      | some d =>
        match reach d r.cursor { r with cursor := r.cursor + 1 } with
        | (.error _, _) => []
        | (.ok _, r) => if r.skip.isSkipping then [] else bodyInquiries setup fuel (d.call args) r
    | _ => []
  | .resume index value =>
    match setup.resumption index value with
    | .ok body => bodyInquiries setup fuel body r
    | .error _ => []
  | .flow .. | .drain _ => []

/-- The inquiries of a run. -/
def runInquiries (setup : Setup σ μ) : Nat → Task σ → Render σ κ μ → List Inquiry
  | 0, _, _ => []
  | fuel + 1, task, r =>
    turnInquiries setup fuel task r ++
      match turn setup fuel task r with
      | some (.next task, r) => runInquiries setup fuel task r
      | _ => []

/-- The inquiries that are made until a woken render waits again, or stops. -/
def resumeInquiries (setup : Setup σ μ) (fuel : Nat) (r : Render σ κ μ) : List Inquiry :=
  match r.status with
  | .suspended (.variable path index _) =>
    match r.store.resolve path with
    | none => []
    | some value => runInquiries setup fuel (.resume index value) { r with status := .running }
  | _ => []

/-- The inquiries that are made when waits are woken by a write of the host. -/
def wakeInquiries (setup : Setup σ μ) (fuel : Nat) : List Waiter → Render σ κ μ → List Inquiry
  | [], _ => []
  | .host path ticket :: rest, r =>
    ⟨path, ticket, r.store⟩ :: wakeInquiries setup fuel rest (r.ask path ticket)
  | .engine :: rest, r =>
    resumeInquiries setup fuel r ++
      match resumeParked setup fuel r with
      | some (_, r) => wakeInquiries setup fuel rest r
      | none => []

/-- The inquiries of forwarding what the pipe has. -/
def pumpInquiries (setup : Setup σ μ) (fuel : Nat) (r : Render σ κ μ) : List Inquiry :=
  match r.status.piping? with
  | some index => runInquiries setup fuel (.drain index) r
  | none => []

/-- The inquiries of carrying on after a wait on the pipe. -/
def feedInquiries (setup : Setup σ μ) (fuel : Nat) (event : Pipe.Event) (r : Render σ κ μ) :
    List Inquiry :=
  match event, r.pipe with
  | .chunk chunk, some pipe =>
    match pipe.pass fuel chunk r.lines with
    | none => []
    | some p =>
      match emitAll p.chunks { r with pipe := some p.pipe, lines := p.lines } with
      | (.error _, _) => []
      | (.ok (), r) => pumpInquiries setup fuel r
  | _, _ => pumpInquiries setup fuel r

end Render

section Inquiries

variable [FilterStage σ] [OutputSink κ]

/-- The inquiries of a call. -/
def HostCall.inquiries (setup : Setup σ μ) (fuel : Nat) (call : HostCall κ) (r : Render σ κ μ) :
    List Inquiry :=
  match call with
  | .attach sink =>
    if r.status = .idle then
      Render.runInquiries setup fuel .instruction { r with sink := some sink, status := .running }
    else []
  | .advance =>
    if r.status = .running then Render.runInquiries setup fuel .instruction r else []
  | .pump => r.pumpInquiries setup fuel
  | .set path value =>
    match r.store.set path value with
    | .error _ => []
    | .ok (store, woken) => Render.wakeInquiries setup fuel woken { r with store }
  | .get path ticket => if path.isEmpty then [] else [⟨path, ticket, r.store⟩]
  | .feed event => r.feedInquiries setup fuel event
  | .forward side =>
    match r.waitSide? side with
    | none => []
    | some (event, r) => r.feedInquiries setup fuel event
  | .checkTimeout _ | .emit _ | .skip | .restart | .close => []

/-- A history together with the inquiries that were made in it, oldest first. -/
inductive Inquired (setup : Setup σ μ) (start : Render σ κ μ) :
    List (HostCall κ × Except RenderError Unit) → List Inquiry → Render σ κ μ → Prop where
  | start : Inquired setup start [] [] start
  | call {record inquiries r call fuel outcome r'}
      (before : Inquired setup start record inquiries r)
      (hcall : HostCall.run setup fuel call r = some (outcome, r')) :
      Inquired setup start (record ++ [(call, outcome)])
        (inquiries ++ call.inquiries setup fuel r) r'
  | outside {record inquiries r} (before : Inquired setup start record inquiries r)
      (move : OutsideMove) : Inquired setup start record inquiries (move.apply r)

/-- Every history has its inquiries. -/
theorem History.inquired {setup : Setup σ μ} {start r : Render σ κ μ}
    {record : List (HostCall κ × Except RenderError Unit)} (h : History setup start record r) :
    ∃ inquiries, Inquired setup start record inquiries r := by
  induction h with
  | start => exact ⟨[], .start⟩
  | call before hcall ih =>
    obtain ⟨inquiries, ih⟩ := ih
    exact ⟨_, ih.call hcall⟩
  | outside before move ih =>
    obtain ⟨inquiries, ih⟩ := ih
    exact ⟨_, ih.outside move⟩

end Inquiries

end StreamingTemplate

import Mathlib.Logic.Relation
import StreamingTemplate.Proofs.Engine.History
import StreamingTemplate.Proofs.Engine.Turn

/-!
# Moments inside of a call

A history says where a render is between two calls. Inside of a call it is, one after the other,
about to take a turn, about to close the block of a directive that is reached, or in the middle of
a body; `Moment` holds of all these renders too, also of those in calls that never return.

* `HostCall.Begins` — the runs that a call starts, and where they start;
* `BodyStep` — one effect of a body, with the rest of it;
* `perform_steps` — performing a body is nothing but its effects, one after the other;
* `Invariant` — what holds at every moment, with one law for each thing that can happen;
* `Invariant.history`, `Invariant.moment` — an invariant that holds at the start holds between all
  calls and at every moment.
-/

namespace StreamingTemplate

/-- A known directive stands at an index of the template. -/
def Setup.DirectiveAt {σ μ : Type} (setup : Setup σ μ) (index : Nat) (d : Directive σ μ) : Prop :=
  ∃ name args, setup.template.get? index = some (.directive name args) ∧
    setup.directives.directive? name = some d

/-- What a render is about to do. -/
inductive Activity (σ μ : Type) where
  /-- nothing: no call is in progress -/
  | rest
  /-- a turn of a run -/
  | turn (task : Render.Task σ)
  /-- to close a block, on reaching the directive at an index -/
  | closing (index : Nat)
  /-- a body of the directive at an index, or what is left of it -/
  | body (index : Nat) (body : Body σ μ)

/-- What is left of a body that has come to its end. -/
def Body.ofResult {σ μ : Type} : Except RenderError (Flow σ) → Body σ μ
  | .ok flow => .done flow
  | .error err => .fail err

namespace Render

variable {σ κ μ : Type} [FilterStage σ] [OutputSink κ]

/-- One effect of a body. -/
inductive BodyStep (setup : Setup σ μ) (fuel : Nat) :
    Body σ μ → Render σ κ μ → Body σ μ → Render σ κ μ → Prop where
  | emit {chunk next r} :
      BodyStep setup fuel (.emit chunk next) r (next (r.emit chunk).1) (r.emit chunk).2
  | skip {next r} : BodyStep setup fuel (.skip next) r next r.skipBlock
  | restart {next r} :
      BodyStep setup fuel (.restart next) r (next r.restartBlock.1) r.restartBlock.2
  | close {next r} : BodyStep setup fuel (.close next) r (next r.closeCurrent.1) r.closeCurrent.2
  | set {path value next r} :
      BodyStep setup fuel (.set path value next) r (next (r.setWithin path value).1)
        (r.setWithin path value).2
  | build {specs next r chain handles}
      (hchain : setup.filters.chain r.lines.handles specs = .ok (chain, handles)) :
      BodyStep setup fuel (.build specs next) r (next (.ok chain))
        { r with lines := { r.lines with handles } }
  | buildFailed {specs next r err}
      (hchain : setup.filters.chain r.lines.handles specs = .error err) :
      BodyStep setup fuel (.build specs next) r (next (.error err)) r
  | feed {chain chunk next r res} (haccept : chain.accept fuel r.lines.handles chunk = some res) :
      BodyStep setup fuel (.feed chain chunk next) r (next res.chunks res.chain)
        { r with lines := { r.lines with handles := res.handles } }
  | finish {chain next r res} (hfinish : chain.finish fuel r.lines.handles = some res) :
      BodyStep setup fuel (.finish chain next) r (next res.chunks res.chain)
        { r with lines := { r.lines with handles := res.handles } }
  | recall {next r} : BodyStep setup fuel (.recall next) r (next r.memory) r
  | remember {memory next r} :
      BodyStep setup fuel (.remember memory next) r next { r with memory }

/-- Some effects of a body, one after the other. -/
abbrev BodySteps (setup : Setup σ μ) (fuel : Nat) :
    Body σ μ × Render σ κ μ → Body σ μ × Render σ κ μ → Prop :=
  Relation.ReflTransGen fun s s' => BodyStep setup fuel s.1 s.2 s'.1 s'.2

/-- **A body is performed** effect by effect, up to the flow or the error that it ends with. By
induction on the body: its first effect is a step, and what follows is performed from where that
step has led. -/
theorem perform_steps {setup : Setup σ μ} {fuel : Nat} {body : Body σ μ} {r r' : Render σ κ μ}
    {res : Except RenderError (Flow σ)} (h : perform setup fuel body r = some (res, r')) :
    BodySteps setup fuel (body, r) (Body.ofResult res, r') := by
  have hhead {body body' : Body σ μ} {r r₁ : Render σ κ μ}
      (hstep : BodyStep setup fuel body r body' r₁)
      (hrest : BodySteps setup fuel (body', r₁) (Body.ofResult res, r')) :
      BodySteps setup fuel (body, r) (Body.ofResult res, r') := .head hstep hrest
  induction body generalizing r with
  | done flow | fail err =>
    cases h
    exact .refl
  | emit chunk next ih => exact hhead .emit (ih _ h)
  | skip next ih => exact hhead .skip (ih h)
  | restart next ih => exact hhead .restart (ih _ h)
  | close next ih => exact hhead .close (ih _ h)
  | set path value next ih => exact hhead .set (ih _ h)
  | build specs next ih =>
    rw [perform] at h
    split at h
    · rename_i hchain
      exact hhead (.build hchain) (ih _ h)
    · rename_i hchain
      exact hhead (.buildFailed hchain) (ih _ h)
  | feed chain chunk next ih =>
    rw [perform] at h
    split at h
    · cases h
    · rename_i haccept
      exact hhead (.feed haccept) (ih _ _ h)
  | finish chain next ih =>
    rw [perform] at h
    split at h
    · cases h
    · rename_i hfinish
      exact hhead (.finish hfinish) (ih _ _ h)
  | «recall» next ih => exact hhead .recall (ih _ h)
  | remember memory next ih => exact hhead .remember (ih h)

/-- What everything a body can do keeps, one effect keeps, -/
theorem KeptByBodies.step {P : Render σ κ μ → Prop} (hP : KeptByBodies P) {setup : Setup σ μ}
    {fuel : Nat} {body body' : Body σ μ} {r r' : Render σ κ μ}
    (h : BodyStep setup fuel body r body' r') (hr : P r) : P r' := by
  cases h with
  | emit => exact hP.emit _ r hr
  | skip => exact hP.skip r hr
  | restart => exact hP.restart r hr
  | close => exact hP.close r hr
  | set => exact hP.set _ _ r hr
  | build | feed | finish => exact hP.handles _ r hr
  | buildFailed | «recall» => exact hr
  | remember => exact hP.remember _ r hr

/-- and so do any number of effects. -/
theorem KeptByBodies.steps {P : Render σ κ μ → Prop} (hP : KeptByBodies P) {setup : Setup σ μ}
    {fuel : Nat} {s s' : Body σ μ × Render σ κ μ} (h : BodySteps setup fuel s s') (hs : P s.2) :
    P s'.2 := by
  induction h with
  | refl => exact hs
  | tail before hstep ih => exact hP.step hstep ih

/-- The render that has reached a directive and has opened its block, if it opens one. -/
def arrive (d : Directive σ μ) (r : Render σ κ μ) : Render σ κ μ :=
  { r with
    cursor := r.cursor + 1
    blocks := if d.opensBlock then r.blocks.push r.cursor else r.blocks }

omit [FilterStage σ] [OutputSink κ] in
/-- Reaching a directive is arriving at it and, if it closes a block, popping that block. -/
theorem reach_eq (d : Directive σ μ) (r : Render σ κ μ) :
    reach d r.cursor { r with cursor := r.cursor + 1 } =
      if d.closesBlock then (arrive d r).closeBlock r.cursor else (.ok 0, arrive d r) := by
  unfold reach arrive
  cases d.opensBlock <;> rfl

end Render

open Render

variable {σ κ μ : Type} [FilterStage σ] [OutputSink κ]

/-- The runs that a call starts: what the first turn is to do, and with which render. -/
inductive HostCall.Begins (setup : Setup σ μ) (fuel : Nat) :
    HostCall κ → Render σ κ μ → Render.Task σ → Render σ κ μ → Prop where
  | attach {sink r} (hstatus : r.status = .idle) :
      Begins setup fuel (.attach sink) r .instruction
        { r with sink := some sink, status := .running }
  | advance {r} (hstatus : r.status = .running) : Begins setup fuel .advance r .instruction r
  | pump {r index} (hstatus : r.status.piping? = some index) :
      Begins setup fuel .pump r (.drain index) r
  /-- the render is resumed in its turn among the waits that a write has woken -/
  | set {r path value store before later outcome r' path' index since value'}
      (hset : r.store.set path value = .ok (store, before ++ .engine :: later))
      (hwake : wake setup fuel before (.ok (), { r with store }) = some (outcome, r'))
      (hstatus : r'.status = .suspended (.variable path' index since))
      (hres : r'.store.resolve path' = some value') :
      Begins setup fuel (.set path value) r (.resume index value')
        { r' with status := .running }
  | feed {r event index} (hpipe : ∀ chunk, event = .chunk chunk → r.pipe = none)
      (hstatus : r.status.piping? = some index) :
      Begins setup fuel (.feed event) r (.drain index) r
  | feedChunk {r chunk pipe passed r' index} (hpipe : r.pipe = some pipe)
      (hpass : pipe.pass fuel chunk r.lines = some passed)
      (hemit : emitAll passed.chunks { r with pipe := some passed.pipe, lines := passed.lines } =
        (.ok (), r'))
      (hstatus : r'.status.piping? = some index) :
      Begins setup fuel (.feed (.chunk chunk)) r (.drain index) r'
  | forward {r side event r' task r''} (hwait : r.waitSide? side = some (event, r'))
      (hfeed : Begins setup fuel (.feed event) r' task r'') :
      Begins setup fuel (.forward side) r task r''

/-- The moments of a render that has come from `start`. -/
inductive Moment (setup : Setup σ μ) (start : Render σ κ μ) :
    Activity σ μ → Render σ κ μ → Prop where
  | rest {record r} (h : History setup start record r) : Moment setup start .rest r
  | begins {record r fuel call task r'} (h : History setup start record r)
      (hbegins : HostCall.Begins setup fuel call r task r') : Moment setup start (.turn task) r'
  | next {task r task' r'} (fuel : Nat) (h : Moment setup start (.turn task) r)
      (hturn : turn setup fuel task r = some (.next task', r')) :
      Moment setup start (.turn task') r'
  | closing {r name args d} (h : Moment setup start (.turn .instruction) r)
      (hget : setup.template.get? r.cursor = some (.directive name args))
      (hdir : setup.directives.directive? name = some d) (hcloses : d.closesBlock = true) :
      Moment setup start (.closing r.cursor) (arrive d r)
  | called {r name args d frame r'} (h : Moment setup start (.turn .instruction) r)
      (hget : setup.template.get? r.cursor = some (.directive name args))
      (hdir : setup.directives.directive? name = some d)
      (hreach : reach d r.cursor { r with cursor := r.cursor + 1 } = (.ok frame, r'))
      (hskip : r'.skip.isSkipping = false) :
      Moment setup start (.body r.cursor (d.call args)) r'
  | resumed {index value r body} (h : Moment setup start (.turn (.resume index value)) r)
      (hresume : setup.resumption index value = .ok body) : Moment setup start (.body index body) r
  | step {index body r fuel body' r'} (h : Moment setup start (.body index body) r)
      (hstep : BodyStep setup fuel body r body' r') : Moment setup start (.body index body') r'

/-! ## Invariants

An `Invariant` gives one predicate for each thing that the render can be about to do, and its
fields are the transitions between them. To prove something of all moments is to give such a
structure; that the transitions are all there are is proved here once, for calls
(`Invariant.hostCall`), histories and moments. -/

/-- What holds at every moment, by what the render is about to do. The laws say that each thing
that can happen keeps it. -/
structure Invariant (setup : Setup σ μ) (κ : Type) [OutputSink κ] where
  /-- between two calls -/
  rest : Render σ κ μ → Prop
  /-- inside of a call, while no run has begun -/
  inside : Render σ κ μ → Prop
  /-- in a run, before a turn -/
  turn : Render.Task σ → Render σ κ μ → Prop
  /-- before the block of the directive at an index is closed on reaching it -/
  closing : Nat → Render σ κ μ → Prop
  /-- in a body of the directive at an index -/
  body : Nat → Render σ κ μ → Prop
  waits : ∀ {r}, rest r → ∀ store answers, rest { r with store, answers }
  sink : ∀ {r}, rest r → ∀ sink, rest { r with sink }
  skip : ∀ {r}, rest r → rest r.skipBlock
  restart : ∀ {r}, rest r → rest r.restartBlock.2
  close : ∀ {r}, rest r → rest r.closeCurrent.2
  /-- a wait is reported, and its time starts again -/
  report : ∀ {r path index since}, rest r → r.status = .suspended (.variable path index since) →
    ∀ now, rest { r with status := .suspended (.variable path index now) }
  outside : ∀ {r}, rest r → ∀ move : OutsideMove, rest (move.apply r)
  enter : ∀ {r}, rest r → inside r
  leave : ∀ {r}, inside r → r.status.piping? = none → rest r
  /-- something is taken from the pipe and passed on -/
  feed : ∀ {r pipe}, inside r → r.pipe = some pipe → ∀ pipe lines sink,
    inside { r with pipe := some pipe, lines, sink }
  fail : ∀ {r}, inside r → ∀ err, rest (Render.fail err r).2
  attach : ∀ {r}, rest r → r.status = .idle → ∀ sink,
    turn .instruction { r with sink := some sink, status := .running }
  advance : ∀ {r}, rest r → r.status = .running → turn .instruction r
  drain : ∀ {r index}, inside r → r.status.piping? = some index → turn (.drain index) r
  resume : ∀ {r path index since value}, rest r →
    r.status = .suspended (.variable path index since) → r.store.resolve path = some value →
    turn (.resume index value) { r with status := .running }
  next : ∀ {fuel task r task' r'}, Turned setup fuel task r (.next task') r' →
    turn task r → turn task' r'
  stop : ∀ {fuel task r outcome r'}, Turned setup fuel task r (.stop outcome) r' →
    turn task r → rest r'
  arrive : ∀ {r d}, turn .instruction r → setup.DirectiveAt r.cursor d →
    closing r.cursor (arrive d r)
  call : ∀ {r d frame r'}, turn .instruction r → setup.DirectiveAt r.cursor d →
    reach d r.cursor { r with cursor := r.cursor + 1 } = (.ok frame, r') → body r.cursor r'
  handBack : ∀ {r index value}, turn (.resume index value) r → body index r
  kept : ∀ index, KeptByBodies (body index)

namespace Invariant

variable {setup : Setup σ μ} {fuel : Nat} {r r' : Render σ κ μ} {outcome : Except RenderError Unit}

/-- What an invariant says at a moment. -/
def holds (I : Invariant setup κ) : Activity σ μ → Render σ κ μ → Prop
  | .rest => I.rest
  | .turn task => I.turn task
  | .closing index => I.closing index
  | .body index _ => I.body index

variable (I : Invariant setup κ)

/-- A run begun in a turn of the invariant ends at rest, since the invariant is preserved turn by
turn. -/
theorem run {task : Render.Task σ} (h : I.turn task r)
    (hrun : Render.run setup fuel task r = some (outcome, r')) : I.rest r' :=
  run_induction (Q := fun _ => I.rest) I.next I.stop hrun h

/-! ### Calls

Each call is taken apart into what it does to a render at rest and the run that it may start. A
lemma follows the function of the same name and uses a field of the structure for every step of
it. -/

theorem ask (h : I.rest r) (path : Path) (ticket : String) : I.rest (r.ask path ticket) := by
  rw [Render.ask]
  split
  · exact I.waits h r.store _
  · exact I.waits h _ r.answers

/-- The engine is woken: it goes back to its wait if there is no value, and otherwise a run is
resumed. -/
theorem resumeParked (h : I.rest r)
    (hresume : Render.resumeParked setup fuel r = some (outcome, r')) : I.rest r' := by
  rw [Render.resumeParked] at hresume
  split at hresume
  · rename_i path index since hstatus
    split at hresume
    · obtain ⟨-, rfl⟩ := Prod.mk.inj (Option.some.inj hresume)
      exact I.waits h _ r.answers
    · rename_i value hres
      exact I.run (I.resume h hstatus hres) hresume
  · obtain ⟨-, rfl⟩ := Prod.mk.inj (Option.some.inj hresume)
    exact h

/-- A list of waits is woken one by one, from one render at rest to the next. -/
theorem wake (woken : List Waiter) {o o' : Outcome σ κ μ Unit} (h : I.rest o.2)
    (hwake : Render.wake setup fuel woken o = some o') : I.rest o'.2 := by
  induction woken generalizing o with
  | nil =>
    obtain rfl := Option.some.inj hwake
    exact h
  | cons wait rest ih =>
    cases wait with
    | host path ticket => exact ih (I.ask h path ticket) hwake
    | engine =>
      rw [Render.wake] at hwake
      split at hwake
      · cases hwake
      · rename_i o₁ hresume
        exact ih (I.resumeParked h hresume) hwake

/-- A pump is a run that drains the pipe, or leaves the call. -/
theorem pump (h : I.inside r) (hpump : Render.pump setup fuel r = some (outcome, r')) :
    I.rest r' := by
  rw [Render.pump] at hpump
  split at hpump
  · rename_i index hstatus
    exact I.run (I.drain h hstatus) hpump
  · rename_i hstatus
    obtain ⟨-, rfl⟩ := Prod.mk.inj (Option.some.inj hpump)
    exact I.leave h hstatus

/-- Passing a chunk on and emitting what comes out stays inside. -/
theorem emitted {pipe passed : Pipe σ} {lines : Lines} {chunks : List String}
    {outcome : Except RenderError Unit} (h : I.inside r) (hpipe : r.pipe = some pipe)
    (hemit : emitAll chunks { r with pipe := some passed, lines } = (outcome, r')) :
    I.inside r' := by
  obtain ⟨sink, rfl⟩ := exists_of_emitAll hemit
  exact I.feed h hpipe passed lines sink

/-- Feeding stays inside of the call until the pipe is pumped; if the sink refuses what comes
out, the render fails from there. -/
theorem feedPipe {event : Pipe.Event} (h : I.inside r)
    (hfeed : Render.feedPipe setup fuel event r = some (outcome, r')) : I.rest r' := by
  unfold Render.feedPipe at hfeed
  split at hfeed
  · rename_i chunk pipe hpipe
    split at hfeed
    · cases hfeed
    · split at hfeed
      · rename_i err r₁ hemit
        obtain ⟨-, rfl⟩ := Prod.mk.inj (Option.some.inj hfeed)
        exact I.fail (I.emitted h hpipe hemit) err
      · rename_i r₁ hemit
        exact I.pump (I.emitted h hpipe hemit) hfeed
  · exact I.pump h hfeed

omit [FilterStage σ] [OutputSink κ] in
/-- Waiting on either side of the pipe changes the pipe and the lines, nothing else. -/
theorem waitSide_frame {side : PipeSide} {event : Pipe.Event}
    (hwait : r.waitSide? side = some (event, r')) :
    ∃ pipe pipe' lines, r.pipe = some pipe ∧ r' = { r with pipe := some pipe', lines } := by
  rw [waitSide?] at hwait
  split at hwait
  · cases hwait
  · rename_i pipe hpipe
    obtain ⟨⟨event', pipe', lines⟩, -, heq⟩ := Option.map_eq_some_iff.mp hwait
    obtain ⟨-, rfl⟩ := Prod.mk.inj heq
    exact ⟨pipe, pipe', lines, hpipe, rfl⟩

theorem waitSide {side : PipeSide} {event : Pipe.Event} (h : I.rest r)
    (hwait : r.waitSide? side = some (event, r')) : I.inside r' := by
  obtain ⟨pipe, pipe', lines, hpipe, rfl⟩ := waitSide_frame hwait
  exact I.feed (I.enter h) hpipe pipe' lines r.sink

/-- A check reports the wait or does nothing. -/
theorem checkTimeout (h : I.rest r) (settings : RenderSettings) (now : Instant) :
    I.rest (Render.checkTimeout settings now r).2 := by
  rw [Render.checkTimeout]
  split
  · rename_i timeout path index since htimeout hstatus
    dsimp only
    split
    · exact I.report h hstatus now
    · exact h
  · exact h

/-- **A call** leads from rest to rest, by cases on the call. -/
theorem hostCall {call : HostCall κ} (h : I.rest r)
    (hcall : call.run setup fuel r = some (outcome, r')) : I.rest r' := by
  cases call with
  | attach sink =>
    rw [HostCall.run, Render.attach] at hcall
    split at hcall
    · rename_i hidle
      exact I.run (I.attach h hidle sink) hcall
    · obtain ⟨-, rfl⟩ := Prod.mk.inj (Option.some.inj hcall)
      exact h
  | advance =>
    rw [HostCall.run, Render.advance] at hcall
    split at hcall
    · rename_i hrunning
      exact I.run (I.advance h hrunning) hcall
    · obtain ⟨-, rfl⟩ := Prod.mk.inj (Option.some.inj hcall)
      exact h
  | pump => exact I.pump (I.enter h) hcall
  | set path value =>
    rw [HostCall.run, Render.set] at hcall
    split at hcall
    · obtain ⟨-, rfl⟩ := Prod.mk.inj (Option.some.inj hcall)
      exact h
    · rename_i store woken hset
      exact I.wake woken (I.waits h store r.answers) hcall
  | get path ticket =>
    rw [HostCall.run, Render.get] at hcall
    split at hcall <;> obtain ⟨-, rfl⟩ := Prod.mk.inj (Option.some.inj hcall)
    · exact h
    · exact I.ask h path ticket
  | checkTimeout now =>
    obtain rfl : _ = r' := congrArg Prod.snd (Option.some.inj hcall)
    exact I.checkTimeout h setup.settings now
  | emit chunk =>
    obtain ⟨sink, hsink⟩ := emit_frame chunk r
    obtain rfl : _ = r' := congrArg Prod.snd (Option.some.inj hcall)
    rw [hsink]
    exact I.sink h sink
  | skip =>
    obtain rfl : _ = r' := congrArg Prod.snd (Option.some.inj hcall)
    exact I.skip h
  | restart =>
    obtain rfl : _ = r' := congrArg Prod.snd (Option.some.inj hcall)
    exact I.restart h
  | close =>
    obtain rfl : _ = r' := congrArg Prod.snd (Option.some.inj hcall)
    exact I.close h
  | feed event => exact I.feedPipe (I.enter h) hcall
  | forward side =>
    rw [HostCall.run] at hcall
    rcases hwait : r.waitSide? side with _ | ⟨event, r₁⟩ <;> rw [hwait] at hcall
    · obtain ⟨-, rfl⟩ := Prod.mk.inj (Option.some.inj hcall)
      exact h
    · exact I.feedPipe (I.waitSide h hwait) hcall

/-- **Between all calls**, by induction over the history. -/
theorem history {start : Render σ κ μ} {record : List (HostCall κ × Except RenderError Unit)}
    (h : History setup start record r) (hstart : I.rest start) : I.rest r := by
  induction h with
  | start => exact hstart
  | call before hcall ih => exact I.hostCall ih hcall
  | outside before move ih => exact I.outside ih move

/-! ### Moments

A moment is reached from a history by beginning a call and then going on step by step. The
activities say which of the predicates of the invariant is the one to keep. -/

/-- Where the run of a call starts. -/
theorem begins {call : HostCall κ} {task : Render.Task σ} (h : I.rest r)
    (hbegins : call.Begins setup fuel r task r') : I.turn task r' := by
  -- forwarding starts inside of the call, with what has come for the pipe taken out of it
  have hfeed : ∀ {event : Pipe.Event} {r : Render σ κ μ}, I.inside r →
      HostCall.Begins setup fuel (.feed event) r task r' → I.turn task r' := by
    intro event r hinside hbegins
    cases hbegins with
    | feed hpipe hstatus => exact I.drain hinside hstatus
    | feedChunk hpipe hpass hemit hstatus => exact I.drain (I.emitted hinside hpipe hemit) hstatus
  cases hbegins with
  | attach hstatus => exact I.attach h hstatus _
  | advance hstatus => exact I.advance h hstatus
  | pump hstatus => exact I.drain (I.enter h) hstatus
  | set hset hwake hstatus hres =>
    exact I.resume (I.wake _ (o := (_, { r with store := _ })) (I.waits h _ r.answers) hwake)
      hstatus hres
  | feed hpipe hstatus => exact hfeed (I.enter h) (.feed hpipe hstatus)
  | feedChunk hpipe hpass hemit hstatus =>
    exact hfeed (I.enter h) (.feedChunk hpipe hpass hemit hstatus)
  | forward hwait hbegins => exact hfeed (I.waitSide h hwait) hbegins

/-- **At every moment** the invariant holds, by induction over how the moment was reached. -/
theorem moment {start : Render σ κ μ} {activity : Activity σ μ}
    (h : Moment setup start activity r) (hstart : I.rest start) : I.holds activity r := by
  induction h with
  | rest h => exact I.history h hstart
  | begins h hbegins => exact I.begins (I.history h hstart) hbegins
  | next fuel h hturn ih => exact I.next (turn_turned hturn) ih
  | closing h hget hdir hcloses ih => exact I.arrive ih ⟨_, _, hget, hdir⟩
  | called h hget hdir hreach hskip ih => exact I.call ih ⟨_, _, hget, hdir⟩ hreach
  | resumed h hresume ih => exact I.handBack ih
  | step h hstep ih => exact (I.kept _).step hstep ih

end Invariant

end StreamingTemplate

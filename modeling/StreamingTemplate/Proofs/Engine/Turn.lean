import StreamingTemplate.Engine.Run

/-!
# What a turn can do

The interpreter is opened once, here. `KeptByBodies` collects what a property of renders must
survive to survive the body of any directive; `Turned` lists, one constructor for each, all that one
turn can do; `run_induction` carries a property of tasks from turn to turn to the end of a run.
Facts about all runs are proved from these three. A run that is known turn by turn goes the other
way: `run_passedBy`, `run_called` and `run_resumed` take it past a directive whose body is known.
-/

namespace StreamingTemplate.Render

variable {σ κ μ : Type}

/-! ## What the elementary steps leave alone

Each step of the engine changes a few fields of the render, and most proofs need to know only
which. A `_frame` lemma says that the render afterwards is the one before with new values for
these fields, whatever they are; rewriting with it reduces every question about another field to
the render before. -/

/-- Emitting changes the sink, -/
theorem emit_frame [OutputSink κ] (chunk : String) (r : Render σ κ μ) :
    ∃ sink, (r.emit chunk).2 = { r with sink } := by
  unfold emit
  split
  · exact ⟨r.sink, rfl⟩
  · split <;> exact ⟨_, rfl⟩

/-- The render behind an emission whose result is known. -/
theorem exists_of_emit [OutputSink κ] {chunk : String} {r r' : Render σ κ μ}
    {res : Except RenderError Unit} (h : r.emit chunk = (res, r')) :
    ∃ sink, r' = { r with sink } := by
  obtain ⟨sink, hframe⟩ := emit_frame chunk r
  rw [h] at hframe
  exact ⟨sink, hframe⟩

/-- also when it is done for several chunks. -/
theorem emitAll_frame [OutputSink κ] (chunks : List String) (r : Render σ κ μ) :
    ∃ sink, (emitAll chunks r).2 = { r with sink } := by
  induction chunks generalizing r with
  | nil => exact ⟨r.sink, rfl⟩
  | cons chunk rest ih =>
    rw [emitAll]
    rcases hemit : r.emit chunk with ⟨_ | ⟨⟩, r'⟩ <;> obtain ⟨sink, rfl⟩ := exists_of_emit hemit
    · exact ⟨sink, rfl⟩
    · exact ih { r with sink }

theorem exists_of_emitAll [OutputSink κ] {chunks : List String} {r r' : Render σ κ μ}
    {res : Except RenderError Unit} (h : emitAll chunks r = (res, r')) :
    ∃ sink, r' = { r with sink } := by
  obtain ⟨sink, hframe⟩ := emitAll_frame chunks r
  rw [h] at hframe
  exact ⟨sink, hframe⟩

/-- A question of the host changes the waits and the answers at most. -/
theorem ask_frame (path : Path) (ticket : String) (r : Render σ κ μ) :
    ∃ store answers, r.ask path ticket = { r with store, answers } ∧
      store.vars = r.store.vars := by
  rw [ask]
  split
  · exact ⟨r.store, _, rfl, rfl⟩
  · exact ⟨_, r.answers, rfl, rfl⟩

/-- Waking waits of the host asks their questions again, which changes waits and answers at most. -/
theorem wakeHosts_frame (woken : List Waiter) (r : Render σ κ μ) :
    ∃ store answers, wakeHosts woken r = { r with store, answers } ∧
      store.vars = r.store.vars := by
  induction woken generalizing r with
  | nil => exact ⟨r.store, r.answers, rfl, rfl⟩
  | cons wait rest ih =>
    cases wait with
    | engine => exact ih r
    | host path ticket =>
      obtain ⟨store, answers, hframe, hvars⟩ := ask_frame path ticket r
      obtain ⟨store', answers', hframe', hvars'⟩ := ih (r.ask path ticket)
      refine ⟨store', answers', hframe'.trans ?_, ?_⟩
      · rw [hframe]
      · rw [hvars', hframe, hvars]

/-- A write by a directive changes the variables, the waits and the answers at most. -/
theorem setWithin_frame (path : Path) (value : Value) (r : Render σ κ μ) :
    ∃ store answers, (r.setWithin path value).2 = { r with store, answers } := by
  rw [setWithin]
  split
  · exact ⟨r.store, r.answers, rfl⟩
  · rename_i store woken hset
    obtain ⟨store', answers, hframe, -⟩ := wakeHosts_frame woken { r with store }
    exact ⟨store', answers, hframe⟩

/-- Closing a block changes the open blocks and the skip state, -/
theorem closeBlock_frame (index : Nat) (r : Render σ κ μ) :
    ∃ blocks skip, (r.closeBlock index).2 = { r with blocks, skip } := by
  unfold closeBlock
  split
  · exact ⟨r.blocks, r.skip, rfl⟩
  · exact ⟨_, _, rfl⟩

theorem closeCurrent_frame (r : Render σ κ μ) :
    ∃ blocks skip, r.closeCurrent.2 = { r with blocks, skip } := by
  obtain ⟨blocks, skip, h⟩ := r.closeBlock_frame r.currentIndex
  refine ⟨blocks, skip, ?_⟩
  rw [← h, closeCurrent]
  rcases r.closeBlock r.currentIndex with ⟨_ | _, r'⟩ <;> rfl

/-- and restarting one moves the cursor too. -/
theorem restartBlock_frame (r : Render σ κ μ) :
    ∃ blocks skip cursor, r.restartBlock.2 = { r with blocks, skip, cursor } := by
  obtain ⟨blocks, skip, h⟩ := r.closeBlock_frame r.currentIndex
  rw [restartBlock]
  rcases hc : r.closeBlock r.currentIndex with ⟨_ | frame, r'⟩
  · rw [hc] at h
    exact ⟨blocks, skip, r.cursor, h⟩
  · obtain rfl : r' = { r with blocks, skip } := by rw [← h, hc]
    exact ⟨blocks, skip, frame, rfl⟩

/-- Reaching a directive opens or closes its block, in this order. One that does both closes the
block that it has just opened. -/
def reach (d : Directive σ μ) (index : Nat) (r : Render σ κ μ) : Outcome σ κ μ Nat :=
  let r := if d.opensBlock then { r with blocks := r.blocks.push index } else r
  if d.closesBlock then r.closeBlock index else (.ok 0, r)

/-- Reaching a directive changes the open blocks and the skip state at most. -/
theorem reach_frame (d : Directive σ μ) (index : Nat) (r : Render σ κ μ) :
    ∃ blocks skip, (reach d index r).2 = { r with blocks, skip } := by
  rw [reach]
  cases d.opensBlock <;> cases d.closesBlock
  · exact ⟨r.blocks, r.skip, rfl⟩
  · exact closeBlock_frame index r
  · exact ⟨_, r.skip, rfl⟩
  · exact closeBlock_frame index { r with blocks := r.blocks.push index }

theorem exists_of_reach {d : Directive σ μ} {index : Nat} {r r' : Render σ κ μ}
    {res : Except RenderError Nat} (h : reach d index r = (res, r')) :
    ∃ blocks skip, r' = { r with blocks, skip } := by
  obtain ⟨blocks, skip, hframe⟩ := reach_frame d index r
  rw [h] at hframe
  exact ⟨blocks, skip, hframe⟩

/-- Without a pipe there is nothing to give up. -/
theorem dropPipe_of_none {r : Render σ κ μ} (h : r.pipe = none) : r.dropPipe = r := by
  rw [dropPipe, h]

/-- Failing gives the pipe up and is final; what the render had written and where it stood stays. -/
theorem fail_frame (err : RenderError) (r : Render σ κ μ) :
    ∃ pipe lines, (fail err r).2 = { r with pipe, lines, status := .failed } := by
  rw [fail, dropPipe]
  split
  · exact ⟨none, _, rfl⟩
  · exact ⟨r.pipe, r.lines, rfl⟩

/-! ## Bodies

A body is a program of the directive's own, and nothing is known of it but the operations it is
made of. `KeptByBodies` asks of a property that each of those operations keeps it, and gives it
for the whole body. -/

section Bodies

variable [OutputSink κ]

/-- A property of renders that everything a body can do keeps. -/
structure KeptByBodies (P : Render σ κ μ → Prop) : Prop where
  emit : ∀ chunk r, P r → P (r.emit chunk).2
  skip : ∀ r, P r → P r.skipBlock
  restart : ∀ r, P r → P r.restartBlock.2
  close : ∀ r, P r → P r.closeCurrent.2
  set : ∀ path value r, P r → P (r.setWithin path value).2
  /-- building and running chains -/
  handles : ∀ handles r, P r → P { r with lines := { r.lines with handles } }
  remember : ∀ memory r, P r → P { r with memory }

/-- A property that does not look at the place, the sink, the handles and the memory is kept by
bodies if it is kept by writes. Only a write changes the store and the answers. -/
theorem KeptByBodies.of_frame {P : Render σ κ μ → Prop}
    (hframe : ∀ r blocks skip cursor sink handles memory, P r →
      P { r with blocks, skip, cursor, sink, memory, lines := { r.lines with handles } })
    (hset : ∀ path value r, P r → P (r.setWithin path value).2) : KeptByBodies P where
  emit chunk r h := by
    obtain ⟨sink, hsink⟩ := emit_frame chunk r
    rw [hsink]
    exact hframe r _ _ _ sink _ _ h
  skip r h := hframe r _ _ _ _ _ _ h
  restart r h := by
    obtain ⟨blocks, skip, cursor, hblocks⟩ := restartBlock_frame r
    rw [hblocks]
    exact hframe r blocks skip cursor _ _ _ h
  close r h := by
    obtain ⟨blocks, skip, hblocks⟩ := closeCurrent_frame r
    rw [hblocks]
    exact hframe r blocks skip _ _ _ _ h
  set := hset
  handles handles r h := hframe r _ _ _ _ handles _ h
  remember memory r h := hframe r _ _ _ _ _ memory h

variable [FilterStage σ]

/-- What everything a body can do keeps, a whole body keeps. By induction on the body, one case
for each operation. -/
theorem KeptByBodies.perform {P : Render σ κ μ → Prop} (hP : KeptByBodies P) {setup : Setup σ μ}
    {fuel : Nat} {body : Body σ μ} {r r' : Render σ κ μ} {res : Except RenderError (Flow σ)}
    (h : perform setup fuel body r = some (res, r')) (hr : P r) : P r' := by
  induction body generalizing r with
  | done flow | fail err =>
    obtain ⟨-, rfl⟩ := Prod.mk.inj (Option.some.inj h)
    exact hr
  | emit chunk next ih => exact ih _ h (hP.emit chunk r hr)
  | skip next ih => exact ih h (hP.skip r hr)
  | restart next ih => exact ih _ h (hP.restart r hr)
  | close next ih => exact ih _ h (hP.close r hr)
  | set path value next ih => exact ih _ h (hP.set path value r hr)
  | build specs next ih =>
    rw [Render.perform] at h
    split at h
    · exact ih _ h (hP.handles _ r hr)
    · exact ih _ h hr
  | feed chain chunk next ih =>
    rw [Render.perform] at h
    split at h
    · cases h
    · exact ih _ _ h (hP.handles _ r hr)
  | finish chain next ih =>
    rw [Render.perform] at h
    split at h
    · cases h
    · exact ih _ _ h (hP.handles _ r hr)
  | «recall» next ih => exact ih _ h hr
  | remember memory next ih => exact ih h (hP.remember memory r hr)

/-! ## Turns

The definition of a turn branches a dozen times. `Turned` has one constructor for each way
through it, with what was found on the way as hypotheses, so that a fact about all turns is a
case analysis with named cases and nobody else needs to unfold `turn`. -/

/-- All that one turn can do. -/
inductive Turned (setup : Setup σ μ) (fuel : Nat) :
    Task σ → Render σ κ μ → Turn σ → Render σ κ μ → Prop where
  /-- behind the last instruction the render is complete -/
  | complete {r} (hget : setup.template.get? r.cursor = none) :
      Turned setup fuel .instruction r (.stop (complete r).1) (complete r).2
  /-- while output is suppressed a text is passed by -/
  | literalSkipped {r text} (hget : setup.template.get? r.cursor = some (.literal text))
      (hskip : r.skip.isSkipping = true) :
      Turned setup fuel .instruction r (.next .instruction) { r with cursor := r.cursor + 1 }
  | literalEmitted {r text r'} (hget : setup.template.get? r.cursor = some (.literal text))
      (hskip : r.skip.isSkipping = false)
      (hemit : emit text { r with cursor := r.cursor + 1 } = (.ok (), r')) :
      Turned setup fuel .instruction r (.next .instruction) r'
  /-- a sink that refuses the text fails the render, with the cursor behind it -/
  | literalRefused {r text err r'} (hget : setup.template.get? r.cursor = some (.literal text))
      (hskip : r.skip.isSkipping = false)
      (hemit : emit text { r with cursor := r.cursor + 1 } = (.error err, r')) :
      Turned setup fuel .instruction r (.stop (.error err)) (fail err r').2
  /-- a name that no directive has fails the render, also while output is suppressed -/
  | unknown {r name args} (hget : setup.template.get? r.cursor = some (.directive name args))
      (hdir : setup.directives.directive? name = none) :
      Turned setup fuel .instruction r (.stop (.error (.unknownDirective name r.cursor)))
        (fail (.unknownDirective name r.cursor) { r with cursor := r.cursor + 1 }).2
  /-- a directive that closes a block finds none open -/
  | unbalanced {r name args d err r'}
      (hget : setup.template.get? r.cursor = some (.directive name args))
      (hdir : setup.directives.directive? name = some d)
      (hreach : reach d r.cursor { r with cursor := r.cursor + 1 } = (.error err, r')) :
      Turned setup fuel .instruction r (.stop (.error err)) (fail err r').2
  /-- a block opens or closes also while output is suppressed -/
  | passedBy {r name args d frame r'}
      (hget : setup.template.get? r.cursor = some (.directive name args))
      (hdir : setup.directives.directive? name = some d)
      (hreach : reach d r.cursor { r with cursor := r.cursor + 1 } = (.ok frame, r'))
      (hskip : r'.skip.isSkipping = true) :
      Turned setup fuel .instruction r (.next .instruction) r'
  /-- the body of a directive is run, and says how to go on -/
  | called {r name args d frame r' flow r''}
      (hget : setup.template.get? r.cursor = some (.directive name args))
      (hdir : setup.directives.directive? name = some d)
      (hreach : reach d r.cursor { r with cursor := r.cursor + 1 } = (.ok frame, r'))
      (hskip : r'.skip.isSkipping = false)
      (hbody : perform setup fuel (d.call args) r' = some (.ok flow, r'')) :
      Turned setup fuel .instruction r (.next (.flow r.cursor flow)) r''
  | callFailed {r name args d frame r' err r''}
      (hget : setup.template.get? r.cursor = some (.directive name args))
      (hdir : setup.directives.directive? name = some d)
      (hreach : reach d r.cursor { r with cursor := r.cursor + 1 } = (.ok frame, r'))
      (hskip : r'.skip.isSkipping = false)
      (hbody : perform setup fuel (d.call args) r' = some (.error err, r'')) :
      Turned setup fuel .instruction r (.stop (.error err)) (fail err r'').2
  /-- the directive is done -/
  | advanced {r index} : Turned setup fuel (.flow index .advance) r (.next .instruction) r
  /-- what is awaited is there, and is handed to the directive at once -/
  | resolved {r index path value} (hres : r.store.resolve path = some value) :
      Turned setup fuel (.flow index (.await path)) r (.next (.resume index value)) r
  /-- what is awaited is missing, so the render parks its wait and stops -/
  | suspended {r index path} (hres : r.store.resolve path = none) :
      Turned setup fuel (.flow index (.await path)) r (.stop (.ok ()))
        { r with
          store := r.store.subscribe path .engine
          status := .suspended (.variable path index r.clock) }
  /-- the reader of the stream is gone -/
  | consumed {r index stream path chain} (hopen : Pipe.open? r.lines stream chain = none) :
      Turned setup fuel (.flow index (.forward stream path chain)) r
        (.stop (.error (.streamConsumed path))) (fail (.streamConsumed path) r).2
  | piped {r index stream path chain pipe lines}
      (hopen : Pipe.open? r.lines stream chain = some (pipe, lines)) :
      Turned setup fuel (.flow index (.forward stream path chain)) r (.next (.drain index))
        { r with pipe := some pipe, lines }
  /-- the input of the chain is over, and only what it still has is to come -/
  | draining {r index chain} :
      Turned setup fuel (.flow index (.drain chain)) r (.next (.drain index))
        { r with pipe := some (.draining chain) }
  | resumed {r index value body flow r'} (hresume : setup.resumption index value = .ok body)
      (hbody : perform setup fuel body r = some (.ok flow, r')) :
      Turned setup fuel (.resume index value) r (.next (.flow index flow)) r'
  | resumeFailed {r index value body err r'} (hresume : setup.resumption index value = .ok body)
      (hbody : perform setup fuel body r = some (.error err, r')) :
      Turned setup fuel (.resume index value) r (.stop (.error err)) (fail err r').2
  /-- there is no directive to resume; no run of a fresh render comes to this -/
  | resumeUnknown {r index value err} (hresume : setup.resumption index value = .error err) :
      Turned setup fuel (.resume index value) r (.stop (.error err)) (fail err r).2
  /-- there is no pipe to drain; no run of a fresh render comes to this either -/
  | nothingToDrain {r index} (hpipe : r.pipe = none) :
      Turned setup fuel (.drain index) r (.next .instruction) r
  /-- reading fails if a filter has stalled, and what was read before is lost -/
  | drainFailed {r index pipe err pipe' lines} (hpipe : r.pipe = some pipe)
      (hread : pipe.read fuel r.lines = some (.error err, pipe', lines)) :
      Turned setup fuel (.drain index) r (.stop (.error err))
        (fail err { r with lines, pipe := some pipe' }).2
  /-- the pipe stays open, and the render waits for the stream or, behind its end, for the chain -/
  | drained {r index pipe chunks pipe' lines r'} (hpipe : r.pipe = some pipe)
      (hread : pipe.read fuel r.lines = some (.ok (.pending chunks), pipe', lines))
      (hemit : emitAll chunks { r with lines, pipe := some pipe' } = (.ok (), r')) :
      Turned setup fuel (.drain index) r (.stop (.ok ()))
        { r' with
          status := .suspended (if pipe'.sourceOpen then .stream index else .filter index) }
  /-- the pipe has ended, and the next instruction follows -/
  | closed {r index pipe chunks pipe' lines r'} (hpipe : r.pipe = some pipe)
      (hread : pipe.read fuel r.lines = some (.ok (.closed chunks), pipe', lines))
      (hemit : emitAll chunks { r with lines, pipe := some pipe' } = (.ok (), r')) :
      Turned setup fuel (.drain index) r (.next .instruction)
        { r'.dropPipe with status := .running }
  | drainRefused {r index pipe read chunks pipe' lines err r'} (hpipe : r.pipe = some pipe)
      (hread : pipe.read fuel r.lines = some (.ok read, pipe', lines))
      (hchunks : read = .pending chunks ∨ read = .closed chunks)
      (hemit : emitAll chunks { r with lines, pipe := some pipe' } = (.error err, r')) :
      Turned setup fuel (.drain index) r (.stop (.error err)) (fail err r').2

variable {setup : Setup σ μ} {fuel : Nat}

/-- A turn that runs a body goes on with its flow, or fails with its error. -/
theorem bodyTurn_eq_some {index : Nat} {body : Body σ μ} {r r' : Render σ κ μ} {t : Turn σ}
    (h : bodyTurn setup fuel index body r = some (t, r')) :
    (∃ flow, perform setup fuel body r = some (.ok flow, r') ∧ t = .next (.flow index flow)) ∨
      ∃ err r'', perform setup fuel body r = some (.error err, r'') ∧ t = .stop (.error err) ∧
        r' = (fail err r'').2 := by
  rw [bodyTurn] at h
  rcases hp : perform setup fuel body r with _ | ⟨err | flow, r''⟩ <;> rw [hp] at h
  · cases h
  · obtain ⟨rfl, rfl⟩ := Prod.mk.inj (Option.some.inj h)
    exact .inr ⟨err, r'', rfl, rfl, rfl⟩
  · obtain ⟨rfl, rfl⟩ := Prod.mk.inj (Option.some.inj h)
    exact .inl ⟨flow, rfl, rfl⟩

/-- A directive whose block cannot be closed fails the render before it is called. -/
theorem directiveTurn_of_error {index : Nat} {name : String} {args : List Argument}
    {d : Directive σ μ} {r r' : Render σ κ μ} {err : RenderError}
    (hdir : setup.directives.directive? name = some d)
    (hreach : reach d index r = (.error err, r')) :
    directiveTurn setup fuel index name args r = some (failTurn err r') := by
  unfold reach at hreach
  simp only [directiveTurn, hdir, hreach]

/-- A directive that is reached is passed by while output is suppressed, and called otherwise. -/
theorem directiveTurn_of_ok {index frame : Nat} {name : String} {args : List Argument}
    {d : Directive σ μ} {r r' : Render σ κ μ}
    (hdir : setup.directives.directive? name = some d)
    (hreach : reach d index r = (.ok frame, r')) :
    directiveTurn setup fuel index name args r =
      if r'.skip.isSkipping then some (.next .instruction, r')
      else bodyTurn setup fuel index (d.call args) r' := by
  unfold reach at hreach
  simp only [directiveTurn, hdir, hreach]

/-- The turn of a directive is one of the four ways: unknown, unbalanced, passed by or called. -/
theorem directiveTurn_turned {name : String} {args : List Argument} {r r' : Render σ κ μ}
    {t : Turn σ} (hget : setup.template.get? r.cursor = some (.directive name args))
    (h : directiveTurn setup fuel r.cursor name args { r with cursor := r.cursor + 1 } =
      some (t, r')) :
    Turned setup fuel .instruction r t r' := by
  rcases hdir : setup.directives.directive? name with _ | d
  · rw [directiveTurn, hdir] at h
    obtain ⟨rfl, rfl⟩ := Prod.mk.inj (Option.some.inj h)
    exact .unknown hget hdir
  · rcases hreach : reach d r.cursor { r with cursor := r.cursor + 1 } with ⟨err | frame, r₁⟩
    · rw [directiveTurn_of_error hdir hreach] at h
      obtain ⟨rfl, rfl⟩ := Prod.mk.inj (Option.some.inj h)
      exact .unbalanced hget hdir hreach
    · rw [directiveTurn_of_ok hdir hreach] at h
      cases hskip : r₁.skip.isSkipping <;> simp only [hskip, if_true] at h
      · rcases bodyTurn_eq_some h with ⟨flow, hbody, rfl⟩ | ⟨err, r₂, hbody, rfl, rfl⟩
        · exact .called hget hdir hreach hskip hbody
        · exact .callFailed hget hdir hreach hskip hbody
      · obtain ⟨rfl, rfl⟩ := Prod.mk.inj (Option.some.inj h)
        exact .passedBy hget hdir hreach hskip

theorem instructionTurn_turned {r r' : Render σ κ μ} {t : Turn σ}
    (h : instructionTurn setup fuel r = some (t, r')) :
    Turned setup fuel .instruction r t r' := by
  rw [instructionTurn] at h
  rcases hget : setup.template.get? r.cursor with _ | text | ⟨name, args⟩ <;> rw [hget] at h
  · obtain ⟨rfl, rfl⟩ := Prod.mk.inj (Option.some.inj h)
    exact .complete hget
  · cases hskip : r.skip.isSkipping <;> simp only [hskip, if_true] at h
    · rcases hemit : emit text { r with cursor := r.cursor + 1 } with ⟨err | ⟨⟩, r₁⟩ <;>
        rw [hemit] at h
      · obtain ⟨rfl, rfl⟩ := Prod.mk.inj (Option.some.inj h)
        exact .literalRefused hget hskip hemit
      · obtain ⟨rfl, rfl⟩ := Prod.mk.inj (Option.some.inj h)
        exact .literalEmitted hget hskip hemit
    · obtain ⟨rfl, rfl⟩ := Prod.mk.inj (Option.some.inj h)
      exact .literalSkipped hget hskip
  · exact directiveTurn_turned hget h

/-- A flow is followed: on to the next instruction, into a wait, or to the pipe. -/
theorem flowTurn_turned (index : Nat) (flow : Flow σ) (r : Render σ κ μ) :
    Turned setup fuel (.flow index flow) r (flowTurn index flow r).1 (flowTurn index flow r).2 := by
  cases flow with
  | advance => exact .advanced
  | await path =>
    rw [flowTurn]
    rcases hres : r.store.resolve path with _ | value
    · exact .suspended hres
    · exact .resolved hres
  | forward stream path chain =>
    rw [flowTurn]
    rcases hopen : Pipe.open? r.lines stream chain with _ | ⟨pipe, lines⟩
    · exact .consumed hopen
    · exact .piped hopen
  | drain chain => exact .draining

theorem drainTurn_turned {index : Nat} {r r' : Render σ κ μ} {t : Turn σ}
    (h : drainTurn fuel index r = some (t, r')) :
    Turned setup fuel (.drain index) r t r' := by
  rw [drainTurn] at h
  rcases hpipe : r.pipe with _ | pipe <;> rw [hpipe] at h
  · obtain ⟨rfl, rfl⟩ := Prod.mk.inj (Option.some.inj h)
    exact .nothingToDrain hpipe
  · rcases hread : pipe.read fuel r.lines with _ | ⟨err | chunks | chunks, pipe', lines⟩ <;>
      simp only [hread, Option.map_none, Option.map_some] at h
    · cases h
    · obtain ⟨rfl, rfl⟩ := Prod.mk.inj (Option.some.inj h)
      exact .drainFailed hpipe hread
    · rcases hemit : emitAll chunks { r with lines, pipe := some pipe' } with ⟨err | ⟨⟩, r₁⟩ <;>
        rw [hemit] at h
      · obtain ⟨rfl, rfl⟩ := Prod.mk.inj (Option.some.inj h)
        exact .drainRefused hpipe hread (.inl rfl) hemit
      · obtain ⟨rfl, rfl⟩ := Prod.mk.inj (Option.some.inj h)
        exact .drained hpipe hread hemit
    · rcases hemit : emitAll chunks { r with lines, pipe := some pipe' } with ⟨err | ⟨⟩, r₁⟩ <;>
        rw [hemit] at h
      · obtain ⟨rfl, rfl⟩ := Prod.mk.inj (Option.some.inj h)
        exact .drainRefused hpipe hread (.inr rfl) hemit
      · obtain ⟨rfl, rfl⟩ := Prod.mk.inj (Option.some.inj h)
        exact .closed hpipe hread hemit

/-- **Inversion of a turn**: whatever a turn does is one of the constructors of `Turned`. -/
theorem turn_turned {task : Task σ} {r r' : Render σ κ μ} {t : Turn σ}
    (h : turn setup fuel task r = some (t, r')) : Turned setup fuel task r t r' := by
  cases task with
  | instruction => exact instructionTurn_turned h
  | flow index flow =>
    obtain ⟨rfl, rfl⟩ := Prod.mk.inj (Option.some.inj h)
    exact flowTurn_turned index flow r
  | resume index value =>
    rw [turn] at h
    rcases hresume : setup.resumption index value with err | body <;> rw [hresume] at h
    · obtain ⟨rfl, rfl⟩ := Prod.mk.inj (Option.some.inj h)
      exact .resumeUnknown hresume
    · rcases bodyTurn_eq_some h with ⟨flow, hbody, rfl⟩ | ⟨err, r₁, hbody, rfl, rfl⟩
      · exact .resumed hresume hbody
      · exact .resumeFailed hresume hbody
  | drain index => exact drainTurn_turned h

/-! ## Runs

A run is taken apart at its first turn. `run_induction` is the principle for facts about all
runs; the equations before it serve for runs whose turns are known. -/

/-- A run goes on with the task that its first turn hands on, -/
theorem run_next {task task' : Task σ} {r r' : Render σ κ μ}
    (h : turn setup fuel task r = some (.next task', r')) :
    run setup (fuel + 1) task r = run setup fuel task' r' := by
  rw [run, h]

/-- or stops with it. -/
theorem run_stop {task : Task σ} {r r' : Render σ κ μ} {outcome : Except RenderError Unit}
    (h : turn setup fuel task r = some (.stop outcome, r')) :
    run setup (fuel + 1) task r = some (outcome, r') := by
  rw [run, h]

theorem bodyTurn_ok {index : Nat} {body : Body σ μ} {flow : Flow σ} {r r' : Render σ κ μ}
    (h : perform setup fuel body r = some (.ok flow, r')) :
    bodyTurn setup fuel index body r = some (.next (.flow index flow), r') := by
  rw [bodyTurn, h]
  rfl

section Directives

variable {index frame : Nat} {name : String} {args : List Argument} {d : Directive σ μ}
  {flow : Flow σ} {value : Value} {r r' r'' : Render σ κ μ}

/-- A directive that is reached while output is suppressed is passed by. -/
theorem run_passedBy (r' : Render σ κ μ)
    (hget : setup.template.get? r.cursor = some (.directive name args))
    (hdir : setup.directives.directive? name = some d)
    (hreach : reach d r.cursor { r with cursor := r.cursor + 1 } = (.ok frame, r'))
    (hskip : r'.skip.isSkipping = true) (fuel : Nat) :
    run setup (fuel + 1) .instruction r = run setup fuel .instruction r' :=
  run_next (by
    rw [turn, instructionTurn, hget]
    exact (directiveTurn_of_ok hdir hreach).trans (if_pos hskip))

/-- A directive that is reached otherwise is called. -/
theorem run_called (hget : setup.template.get? r.cursor = some (.directive name args))
    (hdir : setup.directives.directive? name = some d)
    (hreach : reach d r.cursor { r with cursor := r.cursor + 1 } = (.ok frame, r'))
    (hskip : r'.skip.isSkipping = false)
    (hbody : perform setup fuel (d.call args) r' = some (.ok flow, r'')) :
    run setup (fuel + 1) .instruction r = run setup fuel (.flow r.cursor flow) r'' :=
  run_next (by
    rw [turn, instructionTurn, hget]
    refine (directiveTurn_of_ok hdir hreach).trans ((if_neg ?_).trans (bodyTurn_ok hbody))
    rw [hskip]
    exact Bool.false_ne_true)

omit [FilterStage σ] [OutputSink κ] in
/-- A known directive can be resumed with any value. -/
theorem resumption_eq_ok (hget : setup.template.get? index = some (.directive name args))
    (hdir : setup.directives.directive? name = some d) (value : Value) :
    setup.resumption index value = .ok (d.resume args value) := by
  rw [Setup.resumption, hget]
  simp only [hdir]

/-- A directive that is resumed takes the value. -/
theorem run_resumed (hget : setup.template.get? index = some (.directive name args))
    (hdir : setup.directives.directive? name = some d)
    (hbody : perform setup fuel (d.resume args value) r = some (.ok flow, r')) :
    run setup (fuel + 1) (.resume index value) r = run setup fuel (.flow index flow) r' :=
  run_next (by
    rw [turn, resumption_eq_ok hget hdir]
    exact bodyTurn_ok hbody)

/-- A directive that awaits a variable which is there is resumed at once. -/
theorem run_await_some {path : Path} (hvalue : r.store.resolve path = some value) :
    run setup (fuel + 1) (.flow index (.await path)) r = run setup fuel (.resume index value) r :=
  run_next (by rw [turn, flowTurn, hvalue])

end Directives

section Drains

variable {index : Nat} {pipe pipe' : Pipe σ} {lines : Lines} {chunks : List String}
  {r r' : Render σ κ μ} (hpipe : r.pipe = some pipe)

include hpipe

/-- A turn that drains a pipe which stays open emits what was read and suspends the render. -/
theorem turn_drain_pending
    (hread : pipe.read fuel r.lines = some (.ok (.pending chunks), pipe', lines))
    (hemit : emitAll chunks { r with lines, pipe := some pipe' } = (.ok (), r')) :
    turn setup fuel (.drain index) r = some (.stop (.ok ()), { r' with
      status := .suspended (if pipe'.sourceOpen then .stream index else .filter index) }) := by
  rw [turn, drainTurn, hpipe]
  dsimp only
  rw [hread, Option.map_some]
  dsimp only
  rw [hemit]

/-- A turn that drains a pipe to its end emits what was read and gives the pipe up. -/
theorem turn_drain_closed
    (hread : pipe.read fuel r.lines = some (.ok (.closed chunks), pipe', lines))
    (hemit : emitAll chunks { r with lines, pipe := some pipe' } = (.ok (), r')) :
    turn setup fuel (.drain index) r =
      some (.next .instruction, { r'.dropPipe with status := .running }) := by
  rw [turn, drainTurn, hpipe]
  dsimp only
  rw [hread, Option.map_some]
  dsimp only
  rw [hemit]

/-- A turn that cannot drain the pipe fails. -/
theorem turn_drain_error {err : RenderError}
    (hread : pipe.read fuel r.lines = some (.error err, pipe', lines)) :
    turn setup fuel (.drain index) r = some (.stop (.error err),
      (fail err { r with lines, pipe := some pipe' }).2) := by
  rw [turn, drainTurn, hpipe]
  dsimp only
  rw [hread]
  rfl

end Drains

/-- **Induction along a run.** What every turn hands on to the next task, and turns into the
wanted fact where the run stops, a whole run turns into that fact. The invariant speaks of the
task as well, since what a render is like in a run depends on what is to be done next. -/
theorem run_induction {I : Task σ → Render σ κ μ → Prop}
    {Q : Except RenderError Unit → Render σ κ μ → Prop}
    (hnext : ∀ {fuel task r task' r'}, Turned setup fuel task r (.next task') r' →
      I task r → I task' r')
    (hstop : ∀ {fuel task r outcome r'}, Turned setup fuel task r (.stop outcome) r' →
      I task r → Q outcome r')
    {task : Task σ} {r r' : Render σ κ μ} {outcome : Except RenderError Unit}
    (h : run setup fuel task r = some (outcome, r')) (hI : I task r) : Q outcome r' := by
  induction fuel generalizing task r with
  | zero => cases h
  | succ fuel ih =>
    rw [run] at h
    rcases ht : turn setup fuel task r with _ | ⟨task' | outcome', r₁⟩ <;> rw [ht] at h
    · cases h
    · exact ih h (hnext (turn_turned ht) hI)
    · obtain ⟨rfl, rfl⟩ := Prod.mk.inj (Option.some.inj h)
      exact hstop (turn_turned ht) hI

end Bodies

end StreamingTemplate.Render

import StreamingTemplate.Proofs.Engine.Builtin
import StreamingTemplate.Proofs.Engine.Fuel
import StreamingTemplate.Proofs.Engine.Finished
import StreamingTemplate.Proofs.Engine.Propagation

/-!
# Calls return, and the render rests

Over the built-in directives and filters, a render that is never given a stream has no loops: a run
only goes down the template. So every call of the host returns, whatever the sink does, and leaves
the render at rest: not started, finished, or suspended on a variable.

* `call_returns`, `resume_returns` — a body returns with one unit of fuel, and asks for a variable
  at most;
* `turn_settles` — a turn stops the render at rest or brings it closer to the end of the template,
  measured by `Task.rank`;
* `run_rests`, `HostCall.rests` — runs and calls return;
* `History.rested` — so every render is at rest between two calls.
-/

namespace StreamingTemplate

open Render

variable {κ μ : Type} [OutputSink κ] {template : Template} {settings : RenderSettings}

namespace Render

/-- A render that no stream has come into. -/
structure Plain {σ : Type} (r : Render σ κ μ) : Prop where
  vars : Value.streamFreeFields r.store.vars = true
  pipe : r.pipe = none

/-- A plain render between two calls. -/
structure Rested {σ : Type} (r : Render σ κ μ) : Prop extends Plain r where
  settled : r.status ≠ .running
  unpiped : r.status.piping? = none

omit [OutputSink κ] in
/-- A render that rests and is neither finished nor still to be started waits for a variable. -/
theorem Rested.waits {σ : Type} {r : Render σ κ μ} (h : r.Rested)
    (hlive : r.status.isFinished = false) (hstarted : r.status ≠ .idle) :
    ∃ path index since, r.status = .suspended (.variable path index since) := by
  have hsettled := h.settled
  have hunpiped := h.unpiped
  cases hstatus : r.status with
  | idle => exact absurd hstatus hstarted
  | running => exact absurd hstatus hsettled
  | done | failed =>
    rw [hstatus] at hlive
    cases hlive
  | suspended wait =>
    rw [hstatus] at hunpiped
    cases wait with
    | «variable» path index since => exact ⟨path, index, since, rfl⟩
    | stream | filter => cases hunpiped

/-! ## Bodies

The bodies of the built-in directives are short: they ask for a value, or show one through
filters. All that matters of them here is `Returns`, that one unit of fuel is enough and which
flows can come out, and it is put together from the parts of a body as the body is. -/

/-- Performing an emission of several chunks is emitting them, and going on if all were taken. -/
theorem perform_emitAll_eq {σ : Type} [FilterStage σ] (setup : Setup σ μ) (fuel : Nat)
    (chunks : List String) (next : Body σ μ) (r : Render σ κ μ) :
    perform setup fuel (Body.emitAll chunks next) r =
      match emitAll chunks r with
      | (.ok (), r') => perform setup fuel next r'
      | (.error err, r') => some (.error err, r') := by
  induction chunks generalizing r with
  | nil => rfl
  | cons chunk rest ih =>
    rw [Body.emitAll, perform, emitAll]
    rcases r.emit chunk with ⟨err | ⟨⟩, r'⟩
    · rfl
    · exact ih r'

/-- With one unit of fuel a body returns. It has emitted, skipped and run filters at most, and
the render moves on by one of some flows. The store, the cursor and the open blocks are those it
began with, so what was known of them is known behind it. -/
def Returns (template : Template) (settings : RenderSettings) (body : Body TextFilter μ)
    (r : Render TextFilter κ μ) (flows : Flow TextFilter → Prop) : Prop :=
  ∃ res sink skip lines,
    perform (Setup.builtin template settings) 1 body r = some (res, { r with sink, skip, lines }) ∧
      ∀ flow, res = .ok flow → flows flow

variable {r : Render TextFilter κ μ} {flows : Flow TextFilter → Prop}

/-- A body at its end returns with its flow, -/
theorem returns_done {flow : Flow TextFilter} (h : flows flow) :
    Returns template settings (.done flow) r flows := by
  refine ⟨.ok flow, r.sink, r.skip, r.lines, rfl, ?_⟩
  rintro _ ⟨⟩
  exact h

theorem returns_fail (err : RenderError) : Returns template settings (.fail err) r flows :=
  ⟨.error err, r.sink, r.skip, r.lines, rfl, nofun⟩

/-- and one that first checks something returns, whether the check fails or not. -/
theorem returns_orFail {α : Type} {next : α → Body TextFilter μ} (res : Except RenderError α)
    (h : ∀ a, res = .ok a → Returns template settings (next a) r flows) :
    Returns template settings (Body.orFail next res) r flows := by
  cases res with
  | ok a => exact h a rfl
  | error err => exact returns_fail err

/-- Emitting returns too: it goes on to the flow behind it, or ends with the error of the sink. -/
theorem returns_emitAll (chunks : List String) {flow : Flow TextFilter} (h : flows flow) :
    Returns template settings (Body.emitAll chunks (.done flow)) r flows := by
  rw [Returns, perform_emitAll_eq]
  rcases hemit : emitAll chunks r with ⟨err | ⟨⟩, r'⟩ <;>
    obtain ⟨sink, rfl⟩ := exists_of_emitAll hemit
  · exact ⟨.error err, sink, r.skip, r.lines, rfl, nofun⟩
  · refine ⟨.ok flow, sink, r.skip, r.lines, rfl, ?_⟩
    rintro _ ⟨⟩
    exact h

/-- A body that first changes handles returns if the rest of it does. -/
theorem Returns.behind {body next : Body TextFilter μ} (lines : Lines)
    (h : Returns template settings next { r with lines } flows)
    (hbody : perform (Setup.builtin template settings) 1 body r =
      perform (Setup.builtin template settings) 1 next { r with lines }) :
    Returns template settings body r flows := by
  obtain ⟨res, sink, skip, lines', hnext, hflows⟩ := h
  exact ⟨res, sink, skip, lines', hbody.trans hnext, hflows⟩

/-- Building a chain of built-in filters. -/
theorem returns_build {specs : List FilterSpec}
    {next : Except RenderError (Chain TextFilter) → Body TextFilter μ}
    (herror : ∀ err, Returns template settings (next (.error err)) r flows)
    (hok : ∀ filters lines, Returns template settings
      (next (.ok (Chain.ofStages r.lines.handles filters).1)) { r with lines } flows) :
    Returns template settings (.build specs next) r flows := by
  have hchain : (Setup.builtin template settings : Setup TextFilter μ).filters.chain
      r.lines.handles specs =
        ((TextFilter.registry id).stages specs).map (Chain.ofStages r.lines.handles) := rfl
  rcases hfilters : (TextFilter.registry id).stages specs with err | filters <;>
    rw [hfilters] at hchain
  · refine Returns.behind r.lines (herror err) ?_
    rw [perform, hchain]
    rfl
  · refine Returns.behind
      { r.lines with handles := (Chain.ofStages r.lines.handles filters).2 } (hok filters _) ?_
    rw [perform, hchain]
    rfl

/-- A value that is no stream is shown in one body, through its filters to the end of their
input. A chain of built-in filters takes one pass for each of its operations, so one unit of fuel
is enough for it. -/
theorem returns_emitValue (path : Path) {value : Value} (hvalue : value.streamFree = true)
    (filters : List TextFilter) (kept : Handles) :
    Returns template settings
      (Directive.emitValue path value (some (Chain.ofStages kept filters).1)) r (· = .advance) := by
  rw [emitValue_some _ (Value.ne_stream hvalue)]
  obtain ⟨fed, finished, haccept, hfed, hfinish, hfinished, hended, -⟩ :=
    TextFilter.accept_finish filters kept r.lines.handles value.text 0
  have hlast : Returns template settings (Body.emitAll (fed.chunks ++ finished.chunks)
      (.done (if finished.chain.isEnded then .advance else .drain finished.chain))) r
      (· = .advance) := by
    rw [hended]
    exact returns_emitAll _ rfl
  refine Returns.behind r.lines hlast ?_
  rw [perform, haccept]
  dsimp only
  rw [perform, hfed, hfinish]
  dsimp only
  rw [hfinished]

/-- **A built-in directive that is reached** asks for a variable at most. -/
theorem call_returns {name : String} {d : Directive TextFilter μ}
    (hdir : Directive.builtins.directive? name = some d) (args : List Argument)
    (r : Render TextFilter κ μ) :
    Returns template settings (d.call args) r
      fun flow => flow = .advance ∨ ∃ path, flow = .await path := by
  rcases builtins_cases hdir with rfl | rfl | rfl
  · refine returns_orFail _ fun path _ => returns_build (fun err => returns_fail err) ?_
    intro filters lines
    exact returns_done (.inr ⟨path, rfl⟩)
  · exact returns_done (.inl rfl)
  · exact returns_orFail _ fun path _ => returns_done (.inr ⟨path, rfl⟩)

/-- **A built-in directive that is resumed** with a value that is no stream moves on. -/
theorem resume_returns {name : String} {d : Directive TextFilter μ}
    (hdir : Directive.builtins.directive? name = some d) (args : List Argument) {value : Value}
    (hvalue : value.streamFree = true) (r : Render TextFilter κ μ) :
    Returns template settings (d.resume args value) r (· = .advance) := by
  rcases builtins_cases hdir with rfl | rfl | rfl
  · refine returns_orFail _ fun path _ => ?_
    split
    · rw [emitValue_none (Value.ne_stream hvalue)]
      exact returns_emitAll _ rfl
    · refine returns_build (fun err => returns_fail err) ?_
      intro filters lines
      exact returns_emitValue path hvalue filters _
  · exact returns_done rfl
  · rw [Directive.ifBlock]
    dsimp only
    split
    · exact returns_done rfl
    · exact ⟨.ok .advance, r.sink, r.skipBlock.skip, r.lines, rfl, by rintro _ ⟨⟩; rfl⟩

/-! ## Turns

A turn either stops the render, which then is at rest, or hands on a task that is closer to the
end of the template. `Task.rank` is that distance; it falls with every turn because no built-in
directive restarts a block, so that the cursor only grows. -/

/-- The tasks of a plain render. -/
inductive Task.Plain : Task TextFilter → Prop
  | instruction : Plain .instruction
  | advance {index} : Plain (.flow index .advance)
  | await {index path} : Plain (.flow index (.await path))
  | resume {index value} (hvalue : value.streamFree = true) : Plain (.resume index value)

/-- How far it is to the end of the template. An instruction takes at most four turns: reaching
it, asking for a variable, taking the answer, and going on. The ranks of the tasks between two
instructions fall in this order, and are more than that of the next instruction. -/
def Task.rank (size cursor : Nat) : Task TextFilter → Nat
  | .instruction => 4 * (size - cursor) + 1
  | .flow _ .advance => 4 * (size - cursor) + 2
  | .resume _ _ => 4 * (size - cursor) + 3
  | .flow _ _ | .drain _ => 4 * (size - cursor) + 4

/-- What a turn of a plain render comes to. -/
inductive Settles (template : Template) (task : Task TextFilter) (r : Render TextFilter κ μ) :
    Turn TextFilter × Render TextFilter κ μ → Prop
  | stop {outcome r'} (h : r'.Rested) : Settles template task r (.stop outcome, r')
  | next {task' r'} (htask : Task.Plain task') (h : r'.Plain)
      (hrank : task'.rank template.instructions.length r'.cursor <
        task.rank template.instructions.length r.cursor) :
      Settles template task r (.next task', r')

omit [OutputSink κ] in
/-- A turn that fails stops at rest: failing is an end. -/
theorem settles_failTurn {task : Task TextFilter} {r r' : Render TextFilter κ μ}
    (h : r'.Plain) (err : RenderError) : Settles template task r (failTurn err r') := by
  rw [failTurn_of_none err h.pipe]
  exact .stop ⟨⟨h.vars, h.pipe⟩, nofun, rfl⟩

/-- A turn that runs a body settles if its flows are closer to the end. -/
theorem settles_bodyTurn {task : Task TextFilter} {r r' : Render TextFilter κ μ} (h : r'.Plain)
    {index : Nat} {body : Body TextFilter μ} (hbody : Returns template settings body r' flows)
    (hflows : ∀ flow, flows flow → Task.Plain (.flow index flow) ∧
      (Task.flow index flow).rank template.instructions.length r'.cursor <
        task.rank template.instructions.length r.cursor) :
    ∃ t, bodyTurn (Setup.builtin template settings) 1 index body r' = some t ∧
      Settles template task r t := by
  obtain ⟨err | flow, sink, skip, lines, hperform, hflow⟩ := hbody
  · have hturn : bodyTurn (Setup.builtin template settings) 1 index body r' =
        some (failTurn err { r' with sink, skip, lines }) := by
      rw [bodyTurn, hperform]
      rfl
    have hplain : Plain { r' with sink, skip, lines } := ⟨h.vars, h.pipe⟩
    exact ⟨_, hturn, settles_failTurn hplain err⟩
  · obtain ⟨htask, hrank⟩ := hflows flow (hflow flow rfl)
    exact ⟨_, bodyTurn_ok hperform, .next htask ⟨h.vars, h.pipe⟩ hrank⟩

/-- So is completing, whether the sink can be closed or not. -/
theorem settles_complete {task : Task TextFilter} {r r' : Render TextFilter κ μ} (h : r'.Plain) :
    Settles template task r (.stop (complete r').1, (complete r').2) := by
  rw [complete]
  dsimp only
  split
  · exact .stop ⟨⟨h.vars, h.pipe⟩, by simp, rfl⟩
  · split
    · exact .stop ⟨⟨h.vars, h.pipe⟩, by simp, rfl⟩
    · rename_i sink reason _
      have hplain : Plain { r' with sink := some sink, status := .done } := ⟨h.vars, h.pipe⟩
      exact settles_failTurn hplain (.sink reason)

/-- Behind the instruction at the cursor every task is closer to the end. -/
theorem Task.rank_succ {size cursor : Nat} (h : cursor < size) (task : Task TextFilter) :
    task.rank size (cursor + 1) < Task.rank size cursor .instruction := by
  unfold Task.rank
  split <;> omega

omit [OutputSink κ] in
/-- Reaching a directive brings no stream in and moves no cursor. -/
theorem reach_plain {d : Directive TextFilter μ} {index : Nat} {r r' : Render TextFilter κ μ}
    {res : Except RenderError Nat} (h : r.Plain) (hreach : reach d index r = (res, r')) :
    r'.Plain ∧ r'.cursor = r.cursor := by
  obtain ⟨blocks, skip, rfl⟩ := exists_of_reach hreach
  exact ⟨⟨h.vars, h.pipe⟩, rfl⟩

/-- A directive that is reached: unknown or unbalanced it fails the render, suppressed it is
passed by, and otherwise it is called and returns a flow that is closer to the end. -/
theorem settles_directive {name : String} {args : List Argument} (h : r.Plain)
    (hlength : r.cursor < template.instructions.length) :
    ∃ t, directiveTurn (Setup.builtin template settings) 1 r.cursor name args
        { r with cursor := r.cursor + 1 } = some t ∧ Settles template .instruction r t := by
  have hnext : Plain { r with cursor := r.cursor + 1 } := ⟨h.vars, h.pipe⟩
  cases hdir : (Directive.builtins : DirectiveRegistry TextFilter μ).directive? name with
  | none =>
    refine ⟨failTurn (.unknownDirective name r.cursor) { r with cursor := r.cursor + 1 }, ?_,
      settles_failTurn hnext _⟩
    rw [directiveTurn, Setup.builtin, hdir]
  | some d =>
    rcases hreach : reach d r.cursor { r with cursor := r.cursor + 1 } with ⟨err | frame, r'⟩
    · exact ⟨_, directiveTurn_of_error hdir hreach,
        settles_failTurn (reach_plain hnext hreach).1 err⟩
    · obtain ⟨hplain, hcursor⟩ := reach_plain hnext hreach
      have hcloser : ∀ task : Task TextFilter, task.rank template.instructions.length r'.cursor <
          Task.rank template.instructions.length r.cursor .instruction := by
        intro task
        rw [hcursor]
        exact Task.rank_succ hlength task
      rw [directiveTurn_of_ok hdir hreach]
      split
      · exact ⟨_, rfl, .next .instruction hplain (hcloser _)⟩
      · refine settles_bodyTurn hplain (call_returns hdir args r') ?_
        rintro flow (rfl | ⟨path, rfl⟩)
        · exact ⟨.advance, hcloser _⟩
        · exact ⟨.await, hcloser _⟩

/-- At the end of the template the render is complete. A literal is passed, or the sink refuses
it. -/
theorem settles_instruction (h : r.Plain) :
    ∃ t, instructionTurn (Setup.builtin template settings) 1 r = some t ∧
      Settles template .instruction r t := by
  rw [instructionTurn]
  cases hget : (Setup.builtin template settings : Setup TextFilter μ).template.get? r.cursor with
  | none => exact ⟨_, rfl, settles_complete h⟩
  | some instruction =>
    obtain ⟨hlength, -⟩ := List.getElem?_eq_some_iff.mp hget
    have hcloser := Task.rank_succ hlength .instruction
    cases instruction with
    | literal text =>
      dsimp only
      split
      · exact ⟨_, rfl, .next .instruction ⟨h.vars, h.pipe⟩ hcloser⟩
      · rcases hemit : emit text { r with cursor := r.cursor + 1 } with ⟨err | ⟨⟩, r'⟩ <;>
          obtain ⟨sink, rfl⟩ := exists_of_emit hemit
        · have hplain : Plain { r with cursor := r.cursor + 1, sink } := ⟨h.vars, h.pipe⟩
          exact ⟨_, rfl, settles_failTurn hplain err⟩
        · exact ⟨_, rfl, .next .instruction ⟨h.vars, h.pipe⟩ hcloser⟩
    | directive name args => exact settles_directive h hlength

/-- **A turn of a plain render** stops it at rest, or brings it closer to the end of the
template. By cases on the task; a pipe never comes up, as no stream was given. -/
theorem turn_settles (settings : RenderSettings) {task : Task TextFilter} (htask : task.Plain)
    (h : r.Plain) :
    ∃ t, turn (Setup.builtin template settings) 1 task r = some t ∧ Settles template task r t := by
  cases htask with
  | instruction => exact settles_instruction h
  | advance => exact ⟨_, rfl, .next .instruction h (by simp [Task.rank])⟩
  | await =>
    rename_i index path
    rw [turn, flowTurn]
    cases hres : r.store.resolve path with
    | none => exact ⟨_, rfl, .stop ⟨⟨h.vars, h.pipe⟩, by simp, rfl⟩⟩
    | some value =>
      have hvalue := Store.streamFree_lookup h.vars hres
      exact ⟨_, rfl, .next (.resume hvalue) h (by simp [Task.rank])⟩
  | resume hvalue =>
    rename_i index value
    rw [turn]
    cases hresume :
        (Setup.builtin template settings : Setup TextFilter μ).resumption index value with
    | error err => exact ⟨_, rfl, settles_failTurn h err⟩
    | ok body =>
      obtain ⟨name, args, d, hdir, rfl⟩ : ∃ name args d,
          Directive.builtins.directive? name = some d ∧ body = d.resume args value := by
        unfold Setup.resumption at hresume
        split at hresume
        · rename_i name args _
          split at hresume
          · rename_i d hdir
            exact ⟨name, args, d, hdir, (Except.ok.inj hresume).symm⟩
          · cases hresume
        · cases hresume
      refine settles_bodyTurn h (resume_returns hdir args hvalue r) ?_
      rintro flow rfl
      exact ⟨.advance, by simp [Task.rank]⟩

/-! ## Runs

The fuel that a run needs is put together along the way, from that of its turns. -/

/-- **A run of a plain render** returns and leaves it at rest, by induction on the distance to the
end of the template. -/
theorem run_rests {task : Task TextFilter} (htask : task.Plain) (h : r.Plain) :
    ∃ fuel o, run (Setup.builtin template settings) fuel task r = some o ∧ o.2.Rested := by
  induction hn : task.rank template.instructions.length r.cursor using Nat.strongRecOn
    generalizing task r with
  | ind n ih =>
    obtain ⟨t, hturn, hsettles⟩ := turn_settles settings htask h
    cases hsettles with
    | stop hrested => exact ⟨2, _, run_stop hturn, hrested⟩
    | next htask' h' hrank =>
      obtain ⟨fuel, o, hrun, hrested⟩ := ih _ (hn ▸ hrank) htask' h' rfl
      refine ⟨fuel + 2, o, ?_, hrested⟩
      rw [run_next (turn_mono (by omega) hturn)]
      exact run_mono (by omega) hrun

/-! ## Calls of the host

A call starts one run, and a write starts one for each time it wakes the engine. Every run ends
at rest, from where the next can be started. -/

/-- A woken render waits again or runs to where it rests. -/
theorem resumeParked_rests (template : Template) (settings : RenderSettings) (h : r.Rested) :
    ∃ fuel o, resumeParked (Setup.builtin template settings) fuel r = some o ∧ o.2.Rested := by
  unfold resumeParked
  split
  · rename_i path index since hstatus
    cases hres : r.store.resolve path with
    | none => exact ⟨0, _, rfl, ⟨h.vars, h.pipe⟩, h.settled, h.unpiped⟩
    | some value =>
      have hplain : Plain { r with status := .running } := ⟨h.vars, h.pipe⟩
      exact run_rests (.resume (Store.streamFree_lookup h.vars hres)) hplain
  · exact ⟨0, _, rfl, h⟩

namespace Rested

variable {σ : Type} {r : Render σ κ μ} (h : r.Rested)

include h

omit [OutputSink κ] in
theorem ask (path : Path) (ticket : String) : (r.ask path ticket).Rested := by
  obtain ⟨store, answers, hframe, hvars⟩ := ask_frame path ticket r
  rw [hframe]
  refine ⟨⟨?_, h.pipe⟩, h.settled, h.unpiped⟩
  rw [hvars]
  exact h.vars

theorem emit (chunk : String) : (r.emit chunk).2.Rested := by
  obtain ⟨sink, hframe⟩ := emit_frame chunk r
  rw [hframe]
  exact ⟨⟨h.vars, h.pipe⟩, h.settled, h.unpiped⟩

omit [OutputSink κ] in
theorem restartBlock : r.restartBlock.2.Rested := by
  obtain ⟨blocks, skip, cursor, hframe⟩ := restartBlock_frame r
  rw [hframe]
  exact ⟨⟨h.vars, h.pipe⟩, h.settled, h.unpiped⟩

omit [OutputSink κ] in
theorem closeCurrent : r.closeCurrent.2.Rested := by
  obtain ⟨blocks, skip, hframe⟩ := closeCurrent_frame r
  rw [hframe]
  exact ⟨⟨h.vars, h.pipe⟩, h.settled, h.unpiped⟩

omit [OutputSink κ] in
/-- A check renews a wait or does nothing, and the render rests as before. -/
theorem checkTimeout (settings : RenderSettings) (now : Instant) :
    (r.checkTimeout settings now).2.Rested := by
  unfold Render.checkTimeout
  split
  · dsimp only
    split
    · exact ⟨⟨h.vars, h.pipe⟩, nofun, rfl⟩
    · exact h
  · exact h

end Rested

/-- Serving waits leaves the render at rest: the host's are asked again, and the render's own is
resumed. -/
theorem wake_rests (woken : List Waiter) {o : Outcome TextFilter κ μ Unit} (h : o.2.Rested) :
    ∃ fuel o', wake (Setup.builtin template settings) fuel woken o = some o' ∧ o'.2.Rested := by
  induction woken generalizing o with
  | nil => exact ⟨0, o, rfl, h⟩
  | cons wait rest ih =>
    cases wait with
    | host path ticket => exact ih (o := (o.1, o.2.ask path ticket)) (h.ask path ticket)
    | engine =>
      obtain ⟨fuel, o₁, hresume, hrested⟩ := resumeParked_rests template settings h
      obtain ⟨fuel', o', hrest, hrested'⟩ := ih hrested
      refine ⟨max fuel fuel', o', ?_, hrested'⟩
      rw [wake, resumeParked_mono (Nat.le_max_left fuel fuel') hresume]
      exact wake_mono (Nat.le_max_right fuel fuel') hrest

/-- **A write** of a value without streams returns and leaves the render at rest. -/
theorem set_rests (h : r.Rested) (path : Path) {value : Value} (hvalue : value.streamFree = true) :
    ∃ fuel o, set (Setup.builtin template settings) fuel path value r = some o ∧ o.2.Rested := by
  unfold set
  split
  · exact ⟨0, _, rfl, h⟩
  · rename_i store woken hset
    obtain ⟨hwrite, -, -⟩ := Store.set_eq_ok hset
    exact wake_rests woken
      ⟨⟨Store.streamFree_write hvalue h.vars hwrite, h.pipe⟩, h.settled, h.unpiped⟩

end Render

namespace HostCall

omit [OutputSink κ] in
/-- Whether a call brings no stream in. -/
def streamFree : HostCall κ → Bool
  | .set _ value => value.streamFree
  | _ => true

/-- **A call returns** and leaves a render that rests at rest, if it brings no stream in. -/
theorem rests {r : Render TextFilter κ μ} {call : HostCall κ} (hcall : call.streamFree = true)
    (h : r.Rested) :
    ∃ fuel o, call.run (Setup.builtin template settings) fuel r = some o ∧ o.2.Rested := by
  have hpump : ∀ fuel, Render.pump (Setup.builtin template settings) fuel r = some (.ok (), r) := by
    intro fuel
    rw [Render.pump, h.unpiped]
  cases call with
  | attach sink =>
    simp only [run, Render.attach]
    split
    · have hplain : Plain { r with sink := some sink, status := .running } := ⟨h.vars, h.pipe⟩
      exact run_rests .instruction hplain
    · exact ⟨0, _, rfl, h⟩
  | advance =>
    simp only [run, Render.advance, if_neg h.settled]
    exact ⟨0, _, rfl, h⟩
  | pump => exact ⟨0, _, hpump 0, h⟩
  | set path value => exact set_rests h path hcall
  | get path ticket =>
    refine ⟨0, _, rfl, ?_⟩
    rw [Render.get]
    split
    · exact h
    · exact h.ask path ticket
  | checkTimeout now => exact ⟨0, _, rfl, h.checkTimeout settings now⟩
  | emit chunk => exact ⟨0, _, rfl, h.emit chunk⟩
  | skip => exact ⟨0, _, rfl, ⟨h.vars, h.pipe⟩, h.settled, h.unpiped⟩
  | restart => exact ⟨0, _, rfl, h.restartBlock⟩
  | close => exact ⟨0, _, rfl, h.closeCurrent⟩
  | feed event =>
    refine ⟨0, (.ok (), r), ?_, h⟩
    rw [run, feedPipe_of_none h.pipe, hpump]
  | forward side =>
    refine ⟨0, (.ok (), r), ?_, h⟩
    rw [run, waitSide?, h.pipe]

end HostCall

/-- **Between two calls a render is at rest**, if no call has brought a stream in. -/
theorem History.rested {memory : μ} {lines : Lines} {clock : Instant}
    {record : List (HostCall κ × Except RenderError Unit)} {r : Render TextFilter κ μ}
    (h : History (Setup.builtin template settings) (fresh memory lines clock) record r)
    (hrecord : ∀ entry ∈ record, entry.1.streamFree = true) : r.Rested := by
  induction h with
  | start => exact ⟨⟨rfl, rfl⟩, nofun, rfl⟩
  | call before hcall ih =>
    have hrested := ih fun entry hentry => hrecord entry (List.mem_append_left _ hentry)
    have hfree := hrecord _ (List.mem_append_right _ List.mem_cons_self)
    obtain ⟨fuel, o, hrun, hlast⟩ := HostCall.rests hfree hrested
    rwa [HostCall.run_unique hrun hcall] at hlast
  | outside before move ih =>
    rename_i record r
    have hrested := ih hrecord
    obtain ⟨pipe, lines, clock, hframe, hnone⟩ := move.apply_frame r
    rw [hframe]
    exact ⟨⟨hrested.vars, hnone hrested.pipe⟩, hrested.settled, hrested.unpiped⟩

end StreamingTemplate

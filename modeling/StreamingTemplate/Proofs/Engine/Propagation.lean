import StreamingTemplate.Filter.Text
import StreamingTemplate.Proofs.Engine.Moment
import StreamingTemplate.Proofs.Engine.Waits

/-!
# How errors reach the host

The render itself fails with errors that are not recoverable only. A body may fail with any error;
one that hands on the errors of what it does comes to a recoverable one in a single way, by a write
that is rejected. Whatever the error is, a run that ends with it has aborted the render.

* `Body.Propagates` — bodies that fail with the errors of what they do;
* `BodyStep.propagates`, `Body.Propagates.failed` — such a body comes to a recoverable error only by
  a rejected write;
* `run_ended` — a run ends with an error exactly if it has aborted the render;
* `builtins_propagate` — the built-in directives hand errors on.
-/

namespace StreamingTemplate

open Render

variable {σ κ μ : Type}

/-! ## Bodies that hand errors on

A body is handed the outcome of each thing it does and may go on as it likes. `Body.Propagates`
are those bodies that go on only after success and otherwise fail with the error they got. For
them the errors of a render have three sources: the body itself, the engine, and a rejected
write. -/

/-- Bodies that fail with the errors of what they do, or on their own with errors that end a
render. -/
inductive Body.Propagates : Body σ μ → Prop where
  | done (flow : Flow σ) : Propagates (.done flow)
  | fail {err : RenderError} (h : err.isRecoverable = false) : Propagates (.fail err)
  | emit {chunk next} (ok : Propagates (next (.ok ())))
      (error : ∀ err, next (.error err) = .fail err) : Propagates (.emit chunk next)
  | skip {next} (h : Propagates next) : Propagates (.skip next)
  | restart {next} (ok : Propagates (next (.ok ())))
      (error : ∀ err, next (.error err) = .fail err) : Propagates (.restart next)
  | close {next} (ok : Propagates (next (.ok ())))
      (error : ∀ err, next (.error err) = .fail err) : Propagates (.close next)
  | set {path value next} (ok : Propagates (next (.ok ())))
      (error : ∀ err, next (.error err) = .fail err) : Propagates (.set path value next)
  | build {specs next} (ok : ∀ chain, Propagates (next (.ok chain)))
      (error : ∀ err, next (.error err) = .fail err) : Propagates (.build specs next)
  | feed {chain chunk next} (h : ∀ chunks chain, Propagates (next chunks chain)) :
      Propagates (.feed chain chunk next)
  | finish {chain next} (h : ∀ chunks chain, Propagates (next chunks chain)) :
      Propagates (.finish chain next)
  | recall {next} (h : ∀ memory, Propagates (next memory)) : Propagates (.recall next)
  | remember {memory next} (h : Propagates next) : Propagates (.remember memory next)

/-- Directives with bodies that hand errors on. -/
structure Directive.Propagates (d : Directive σ μ) : Prop where
  call : ∀ args, (d.call args).Propagates
  resume : ∀ args value, (d.resume args value).Propagates

/-- Directives that hand errors on, and filters that are refused with errors that end a render. -/
structure Setup.Propagates (setup : Setup σ μ) : Prop where
  directives : ∀ {name d}, setup.directives.directive? name = some d → d.Propagates
  filters : ∀ {spec err}, setup.filters.stage spec = .error err → err.isRecoverable = false

/-! ## Errors of the render itself

Everything that the engine does for a body fails with errors of one kind, those by which a render
ends. One lemma for each operation, read off the errors that it can raise. -/

section Errors

/-- The sink is the only reason for which emitting fails. -/
theorem emit_error [OutputSink κ] {chunk : String} {r r' : Render σ κ μ} {err : RenderError}
    (h : r.emit chunk = (.error err, r')) : err.isRecoverable = false := by
  unfold emit at h
  split at h
  · cases h
  · split at h <;> cases h
    rfl

/-- Chunks are emitted up to the first that is refused. -/
theorem emitAll_error [OutputSink κ] {chunks : List String} {r r' : Render σ κ μ}
    {err : RenderError} (h : emitAll chunks r = (.error err, r')) : err.isRecoverable = false := by
  induction chunks generalizing r with
  | nil => cases h
  | cons chunk rest ih =>
    rw [emitAll] at h
    split at h
    · exact ih h
    · rename_i hemit
      cases h
      exact emit_error hemit

theorem closeBlock_error {index : Nat} {r r' : Render σ κ μ} {err : RenderError}
    (h : r.closeBlock index = (.error err, r')) : err.isRecoverable = false := by
  unfold closeBlock at h
  split at h <;> cases h
  rfl

/-- Closing without an open block is an unbalanced template, -/
theorem closeCurrent_error {r r' : Render σ κ μ} {err : RenderError}
    (h : r.closeCurrent = (.error err, r')) : err.isRecoverable = false := by
  unfold closeCurrent at h
  split at h
  · cases h
  · rename_i hclose
    cases h
    exact closeBlock_error hclose

/-- and so is restarting without one. -/
theorem restartBlock_error {r r' : Render σ κ μ} {err : RenderError}
    (h : r.restartBlock = (.error err, r')) : err.isRecoverable = false := by
  unfold restartBlock at h
  split at h
  · cases h
  · rename_i hclose
    cases h
    exact closeBlock_error hclose

/-- On the way to a directive, only the block that it closes can be missing. -/
theorem reach_error {d : Directive σ μ} {index : Nat} {r r' : Render σ κ μ} {err : RenderError}
    (h : reach d index r = (.error err, r')) : err.isRecoverable = false := by
  unfold reach at h
  dsimp only at h
  split at h
  · exact closeBlock_error h
  · cases h

theorem resumption_error {setup : Setup σ μ} {index : Nat} {value : Value} {err : RenderError}
    (h : setup.resumption index value = .error err) : err.isRecoverable = false := by
  unfold Setup.resumption at h
  split at h
  · split at h <;> cases h
    rfl
  · cases h
    rfl

/-- A chain is built stage by stage, and fails with the error of the first stage that is refused. -/
theorem chain_error [FilterStage σ] {setup : Setup σ μ} (hsetup : setup.Propagates)
    {handles : Handles} {specs : List FilterSpec} {err : RenderError}
    (h : setup.filters.chain handles specs = .error err) : err.isRecoverable = false := by
  have hstages : ∀ {specs : List FilterSpec} {err}, setup.filters.stages specs = .error err →
      err.isRecoverable = false := by
    intro specs
    induction specs with
    | nil => exact nofun
    | cons spec rest ih =>
      intro err h
      rw [FilterRegistry.stages] at h
      split at h
      · rename_i hstage
        cases h
        exact hsetup.filters hstage
      · rcases hrest : setup.filters.stages rest with err' | stages <;> rw [hrest] at h <;> cases h
        exact ih hrest
  rw [FilterRegistry.chain] at h
  rcases hspecs : setup.filters.stages specs with err' | stages <;> rw [hspecs] at h <;> cases h
  exact hstages hspecs

/-- Reading a pipe fails only if its chain has stalled: of the operations it consists of, none
has an error, and the decision at its end raises only this one. -/
theorem read_error [FilterStage σ] {pipe pipe' : Pipe σ} {fuel : Nat} {lines lines' : Lines}
    {err : RenderError} (h : pipe.read fuel lines = some (.error err, pipe', lines')) :
    err = .filterStalled := by
  have hsettle : ∀ {chunks : List String} {pipe : Pipe σ} {lines : Lines},
      pipe.settle fuel chunks lines = some (.error err, pipe', lines') → err = .filterStalled := by
    intro chunks pipe lines h
    unfold Pipe.settle at h
    split at h
    · cases h
    · obtain ⟨passed, -, heq⟩ := Option.map_eq_some_iff.mp h
      have hres := congrArg Prod.fst heq
      dsimp only at hres
      split at hres
      · cases hres
      · split at hres <;> cases hres
        rfl
  unfold Pipe.read at h
  split at h
  · exact hsettle h
  · obtain ⟨passed, -, h⟩ := Option.bind_eq_some_iff.mp h
    split at h
    · obtain ⟨polled, -, heq⟩ := Option.map_eq_some_iff.mp h
      cases heq
    · obtain ⟨finished, -, h⟩ := Option.bind_eq_some_iff.mp h
      exact hsettle h

end Errors

/-! ## Rejected writes

The proof of `Body.Propagates.failed` follows the effects of the body one by one. As long as none
fails with a recoverable error the body that is left propagates too, and the first that does is a
rejected write, after which nothing is left to be done. -/

variable [FilterStage σ] [OutputSink κ]

variable {setup : Setup σ μ} {r r' : Render σ κ μ} {fuel : Nat}

omit [FilterStage σ] [OutputSink κ] in
/-- After an effect that fails with errors that end a render only. -/
theorem Body.Propagates.next {next : Except RenderError Unit → Body σ μ}
    (ok : (next (.ok ())).Propagates) (error : ∀ err, next (.error err) = .fail err)
    {α : Type} {o : Except RenderError Unit × α}
    (h : ∀ {err a}, o = (.error err, a) → err.isRecoverable = false) :
    (next o.1).Propagates := by
  obtain ⟨err | ⟨⟩, a⟩ := o
  · rw [error]
    exact .fail (h rfl)
  · exact ok

/-- One effect of a body that hands errors on: only a rejected write leaves it with an error that
does not end a render. -/
theorem Render.BodyStep.propagates (hsetup : setup.Propagates) {body body' : Body σ μ}
    (hstep : BodyStep setup fuel body r body' r') (h : body.Propagates) :
    body'.Propagates ∨ ∃ path value next err, body = .set path value next ∧
      (r.setWithin path value).1 = .error err ∧ body' = .fail err := by
  cases h with
  | done | fail => cases hstep
  | emit ok error =>
    cases hstep
    exact .inl (ok.next error emit_error)
  | skip h =>
    cases hstep
    exact .inl h
  | restart ok error =>
    cases hstep
    exact .inl (ok.next error restartBlock_error)
  | close ok error =>
    cases hstep
    exact .inl (ok.next error closeCurrent_error)
  | @set path value next ok error =>
    cases hstep
    rcases hwrite : (r.setWithin path value).1 with err | ⟨⟩
    · exact .inr ⟨path, value, next, err, rfl, hwrite, error err⟩
    · exact .inl ok
  | build ok error =>
    cases hstep with
    | build hchain => exact .inl (ok _)
    | buildFailed hchain =>
      rw [error]
      exact .inl (.fail (chain_error hsetup hchain))
  | feed h =>
    cases hstep
    exact .inl (h _ _)
  | finish h =>
    cases hstep
    exact .inl (h _ _)
  | «recall» h =>
    cases hstep
    exact .inl (h _)
  | remember h =>
    cases hstep
    exact .inl h

/-- **A body that hands errors on** fails with an error that ends a render, or with that of a write
that was rejected on the way. -/
theorem Body.Propagates.failed (hsetup : setup.Propagates) {body : Body σ μ} (h : body.Propagates)
    {err : RenderError} (hperform : perform setup fuel body r = some (.error err, r')) :
    err.isRecoverable = false ∨ ∃ path value next r₁,
      BodySteps setup fuel (body, r) (.set path value next, r₁) ∧
        (r₁.setWithin path value).1 = .error err := by
  -- as long as no write is rejected what is left of the body hands errors on
  have hsteps {s : Body σ μ × Render σ κ μ} (hs : BodySteps setup fuel (body, r) s) :
      s.1.Propagates ∨ ∃ path value next r₁ err,
        BodySteps setup fuel (body, r) (.set path value next, r₁) ∧
          (r₁.setWithin path value).1 = .error err ∧ s.1 = .fail err := by
    induction hs with
    | refl => exact .inl h
    | @tail s s' before hstep ih =>
      obtain ⟨last, r₁⟩ := s
      obtain ⟨body₁, r₂⟩ := s'
      rcases ih with hbody | ⟨-, -, -, -, err, -, -, hfail⟩
      · rcases hstep.propagates hsetup hbody with hnext | ⟨path, value, next, err, rfl, hset, hfail⟩
        · exact .inl hnext
        · exact .inr ⟨path, value, next, r₁, err, before, hset, hfail⟩
      · -- a body that has failed does nothing any more
        dsimp only at hfail
        subst hfail
        cases hstep
  rcases hsteps (perform_steps hperform) with
    hlast | ⟨path, value, next, r₁, err', hto, hset, hfail⟩
  · cases hlast with
    | fail h => exact .inl h
  · cases hfail
    exact .inr ⟨path, value, next, r₁, hto, hset⟩

/-! ## Runs

Whatever kind of error a run ends with, it has passed through `fail` on the way out. So the
render has failed and its pipe is gone, also where the error itself is a recoverable one. -/

/-- A render that was aborted: it has failed and given its pipe up. -/
structure Aborted (r : Render σ κ μ) : Prop where
  failed : r.status = .failed
  pipe : r.pipe = none

/-- What the outcome of a run says about the render: with an error it was aborted. -/
def Ended : Except RenderError Unit → Render σ κ μ → Prop
  | .ok (), r => r.status ≠ .failed
  | .error _, r => Aborted r

omit [FilterStage σ] [OutputSink κ] in
/-- Failing aborts a render, -/
theorem aborted_fail (err : RenderError) (r : Render σ κ μ) : Aborted (fail err r).2 :=
  ⟨rfl, dropPipe_pipe r⟩

omit [FilterStage σ] in
/-- and completing one does so only if the sink cannot be closed; otherwise the render is done. -/
theorem ended_complete (r : Render σ κ μ) : Ended (complete r).1 (complete r).2 := by
  rw [complete]
  split
  · simp [Ended]
  · split
    · simp [Ended]
    · exact aborted_fail _ _

/-- A turn that stops goes through `fail` wherever it stops with an error. -/
theorem Render.Turned.ended {task : Render.Task σ} {outcome : Except RenderError Unit}
    (ht : Turned setup fuel task r (.stop outcome) r') : Ended outcome r' := by
  cases ht with
  | complete hget => exact ended_complete r
  | suspended | drained => exact nofun
  | literalRefused | unknown | unbalanced | callFailed | consumed | resumeFailed | resumeUnknown
  | drainFailed | drainRefused => exact aborted_fail _ _

/-- **A run** ends with an error exactly if it has aborted the render. -/
theorem run_ended {task : Render.Task σ} {outcome : Except RenderError Unit}
    (hrun : run setup fuel task r = some (outcome, r')) : Ended outcome r' :=
  run_induction (I := fun _ _ => True) (fun _ _ => trivial) (fun ht _ => ht.ended) hrun trivial

/-! ## Directives and filters that come with the library

The built-in directives do what they do through `orFail` and the like, which hand errors on by
their very form. Their own errors are about arguments, and those end a render. -/

section Builtin

omit [FilterStage σ] [OutputSink κ]

/-- An argument that is missing, or is no path, is an error in the template. -/
theorem pathArg_error {directive : String} {args : List Argument} {position : Nat}
    {err : RenderError} (h : pathArg directive args position = .error err) :
    err.isRecoverable = false := by
  unfold pathArg at h
  split at h
  · split at h <;> cases h
    rfl
  · cases h
    rfl

/-- Going on after something that can only fail with errors that end a render. -/
theorem Body.Propagates.orFail {α : Type} {next : α → Body σ μ} {res : Except RenderError α}
    (h : ∀ err, res = .error err → err.isRecoverable = false)
    (hnext : ∀ a, (next a).Propagates) : (Body.orFail next res).Propagates := by
  cases res with
  | ok a => exact hnext a
  | error err => exact .fail (h err rfl)

theorem Body.Propagates.emitAll {next : Body σ μ} (h : next.Propagates) (chunks : List String) :
    (Body.emitAll chunks next).Propagates := by
  induction chunks with
  | nil => exact h
  | cons chunk rest ih => exact .emit ih fun err => rfl

/-- Emitting a value, through filters or not, hands on the errors of the sink. -/
theorem emitValue_propagates (path : Path) (value : Value) (chain : Option (Chain σ)) :
    (Directive.emitValue path value chain : Body σ μ).Propagates := by
  unfold Directive.emitValue
  split
  · exact .done _
  · exact (Body.Propagates.done _).emitAll _
  · exact .feed fun _ _ => .finish fun _ _ => (Body.Propagates.done _).emitAll _

theorem ifBlock_propagates : (Directive.ifBlock : Directive σ μ).Propagates where
  call _ := .orFail (fun _ => pathArg_error) fun _ => .done _
  resume _ value := by
    unfold Directive.ifBlock
    dsimp only
    split
    · exact .done _
    · exact .skip (.done _)

theorem var_propagates : (Directive.var : Directive σ μ).Propagates where
  call _ := .orFail (fun _ => pathArg_error) fun _ => .build (fun _ => .done _) fun _ => rfl
  resume args value := by
    refine .orFail (fun _ => pathArg_error) fun path => ?_
    split
    · exact emitValue_propagates path value none
    · exact .build (fun chain => emitValue_propagates path value (some chain)) fun _ => rfl

/-- There are three built-in directives. -/
theorem builtins_cases {name : String} {d : Directive σ μ}
    (h : Directive.builtins.directive? name = some d) :
    d = Directive.var ∨ d = Directive.endIf ∨ d = Directive.ifBlock := by
  unfold Directive.builtins DirectiveRegistry.register at h
  dsimp only at h
  split at h
  · exact .inl (Option.some.inj h).symm
  · split at h
    · exact .inr (.inl (Option.some.inj h).symm)
    · split at h
      · exact .inr (.inr (Option.some.inj h).symm)
      · cases h

/-- **The built-in directives** hand errors on. -/
theorem builtins_propagate {name : String} {d : Directive σ μ}
    (h : Directive.builtins.directive? name = some d) : d.Propagates := by
  rcases builtins_cases h with rfl | rfl | rfl
  · exact var_propagates
  · exact ⟨fun _ => .done _, fun _ _ => .done _⟩
  · exact ifBlock_propagates

/-- Arguments that the wrapping filter does not take are refused with an error that ends the
render. -/
theorem ofWrapArgs_error {args : List Literal} {err : RenderError}
    (h : TextFilter.ofWrapArgs args = .error err) : err.isRecoverable = false := by
  have htext : ∀ {arg}, TextFilter.wrapText arg = .error err → err.isRecoverable = false := by
    intro arg h
    cases arg <;> cases h
    rfl
  unfold TextFilter.ofWrapArgs at h
  split at h
  · rename_i before after
    cases hbefore : TextFilter.wrapText before with
    | error err' =>
      rw [hbefore] at h
      cases h
      exact htext hbefore
    | ok _ =>
      cases hafter : TextFilter.wrapText after with
      | error err' =>
        rw [hbefore, hafter] at h
        cases h
        exact htext hafter
      | ok _ =>
        rw [hbefore, hafter] at h
        cases h
  · cases h
    rfl

/-- The registry of text filters refuses unknown names and wrong arguments, both for good. -/
theorem textFilter_error {spec : FilterSpec} {err : RenderError}
    (h : (TextFilter.registry id).stage spec = .error err) : err.isRecoverable = false := by
  unfold FilterRegistry.stage TextFilter.registry FilterRegistry.register at h
  dsimp only at h
  split at h
  · rename_i hconstructor
    split at hconstructor
    · cases hconstructor
      dsimp only at h
      cases hwrap : TextFilter.ofWrapArgs spec.args with
      | error err' =>
        rw [hwrap] at h
        cases h
        exact ofWrapArgs_error hwrap
      | ok stage =>
        rw [hwrap] at h
        cases h
    · split at hconstructor <;> cases hconstructor
      cases h
  · cases h
    rfl

end Builtin

end StreamingTemplate

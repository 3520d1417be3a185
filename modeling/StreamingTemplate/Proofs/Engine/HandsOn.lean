import StreamingTemplate.Proofs.Engine.Blocks
import StreamingTemplate.Proofs.Engine.Propagation
import StreamingTemplate.Proofs.Store.Rejection

/-!
# Bodies by what they raise

A body that hands on the errors of what it does fails with one of these or with an error of its own.
`Body.HandsOn` tells such bodies, with the errors that they raise and whether they may close blocks
as parameters.

* `BodyStep.handsOn` — one effect of such a body, and what a close without an open block leads to;
* `HandsOn.perform` — a body that closes no block leaves the blocks and the cursor alone;
* `HandsOn.unbalanced` — one that may fails over a block that is not open where it finds none;
* `builtins_handOn` — the built-in directives close no block, and miss an argument at worst.
-/

namespace StreamingTemplate

open Render

variable {σ κ μ : Type}

/-- Bodies that fail with the errors of what they do, or with certain errors of their own, and
close or restart blocks only if they may. An effect that can fail is followed by a body of the
same kind if it has succeeded, and by the failure with just its error if it has not. So a body
that looks at an error, and goes on in spite of it, is none of these. -/
inductive Body.HandsOn (own : RenderError → Prop) (closes : Prop) : Body σ μ → Prop where
  | done (flow : Flow σ) : HandsOn own closes (.done flow)
  | fail {err : RenderError} (h : own err) : HandsOn own closes (.fail err)
  | emit {chunk next} (ok : HandsOn own closes (next (.ok ())))
      (error : ∀ err, next (.error err) = .fail err) : HandsOn own closes (.emit chunk next)
  | skip {next} (h : HandsOn own closes next) : HandsOn own closes (.skip next)
  | restart {next} (may : closes) (ok : HandsOn own closes (next (.ok ())))
      (error : ∀ err, next (.error err) = .fail err) : HandsOn own closes (.restart next)
  | close {next} (may : closes) (ok : HandsOn own closes (next (.ok ())))
      (error : ∀ err, next (.error err) = .fail err) : HandsOn own closes (.close next)
  | set {path value next} (ok : HandsOn own closes (next (.ok ())))
      (error : ∀ err, next (.error err) = .fail err) : HandsOn own closes (.set path value next)
  | build {specs next} (ok : ∀ chain, HandsOn own closes (next (.ok chain)))
      (error : ∀ err, next (.error err) = .fail err) : HandsOn own closes (.build specs next)
  | feed {chain chunk next} (h : ∀ chunks chain, HandsOn own closes (next chunks chain)) :
      HandsOn own closes (.feed chain chunk next)
  | finish {chain next} (h : ∀ chunks chain, HandsOn own closes (next chunks chain)) :
      HandsOn own closes (.finish chain next)
  | recall {next} (h : ∀ memory, HandsOn own closes (next memory)) :
      HandsOn own closes (.recall next)
  | remember {memory next} (h : HandsOn own closes next) :
      HandsOn own closes (.remember memory next)

/-- Directives with such bodies. -/
structure Directive.HandsOn (own : RenderError → Prop) (closes : Prop) (d : Directive σ μ) :
    Prop where
  call : ∀ args, (d.call args).HandsOn own closes
  resume : ∀ args value, (d.resume args value).HandsOn own closes

/-! ## The built-in directives

They check their arguments, and hand on what sinks and filters say. -/

section Builtin

variable {own : RenderError → Prop} {closes : Prop}

theorem Body.HandsOn.orFail {α : Type} {next : α → Body σ μ} {res : Except RenderError α}
    (h : ∀ err, res = .error err → own err) (hnext : ∀ a, (next a).HandsOn own closes) :
    (Body.orFail next res).HandsOn own closes := by
  cases res with
  | ok a => exact hnext a
  | error err => exact .fail (h err rfl)

theorem Body.HandsOn.emitAll {next : Body σ μ} (h : next.HandsOn own closes)
    (chunks : List String) : (Body.emitAll chunks next).HandsOn own closes := by
  induction chunks with
  | nil => exact h
  | cons chunk rest ih => exact .emit ih fun _ => rfl

theorem emitValue_handsOn (path : Path) (value : Value) (chain : Option (Chain σ)) :
    (Directive.emitValue path value chain : Body σ μ).HandsOn own closes := by
  unfold Directive.emitValue
  split
  · exact .done _
  · exact (Body.HandsOn.done _).emitAll _
  · exact .feed fun _ _ => .finish fun _ _ => (Body.HandsOn.done _).emitAll _

variable (hmissing : ∀ directive position, own (.missingArgument directive position))

include hmissing

theorem pathArg_own {directive : String} {args : List Argument} {position : Nat}
    {err : RenderError} (h : pathArg directive args position = .error err) : own err := by
  unfold pathArg at h
  split at h
  · split at h <;> cases h
    exact hmissing directive position
  · cases h
    exact hmissing directive position

/-- **The built-in directives** raise by themselves only that they miss an argument. They neither
close nor restart a block by an effect of their bodies, so nothing is asked of `closes`: `endif`
closes its block by being a closing directive. -/
theorem builtins_handOn {name : String} {d : Directive σ μ}
    (hdir : Directive.builtins.directive? name = some d) : d.HandsOn own closes := by
  have hpath {directive args position} (err : RenderError)
      (h : pathArg directive args position = .error err) : own err := pathArg_own hmissing h
  rcases builtins_cases hdir with rfl | rfl | rfl
  · refine ⟨fun args => ?_, fun args value => ?_⟩
    · exact .orFail hpath fun _ => .build (fun _ => .done _) fun _ => rfl
    · refine .orFail hpath fun path => ?_
      split
      · exact emitValue_handsOn path value none
      · exact .build (fun chain => emitValue_handsOn path value (some chain)) fun _ => rfl
  · exact ⟨fun _ => .done _, fun _ _ => .done _⟩
  · refine ⟨fun args => .orFail hpath fun _ => .done _, fun args value => ?_⟩
    rw [Directive.ifBlock]
    dsimp only
    split
    · exact .done _
    · exact .skip (.done _)

end Builtin

/-! ## What a body hands on

The errors of the effects a body can have, by their kinds. -/

/-- An error that a body can hand on: what the sink says, a write that is rejected, and a filter
that cannot be constructed. -/
def Setup.HandedOn (setup : Setup σ μ) (err : RenderError) : Prop :=
  (∃ reason, err = .sink reason) ∨ (∃ path fault, err = .malformedPath path fault) ∨
    ∃ spec, setup.filters.stage spec = .error err

section Errors

variable {setup : Setup σ μ} {r r' : Render σ κ μ} {err : RenderError}

/-- An emission fails with an error of the sink. -/
theorem emit_sinkError [OutputSink κ] {chunk : String} (h : r.emit chunk = (.error err, r')) :
    ∃ reason, err = .sink reason := by
  unfold Render.emit at h
  split at h
  · cases h
  · split at h
    · cases h
    · cases h
      exact ⟨_, rfl⟩

theorem emitAll_sinkError [OutputSink κ] {chunks : List String}
    (h : emitAll chunks r = (.error err, r')) : ∃ reason, err = .sink reason := by
  induction chunks generalizing r with
  | nil => cases h
  | cons chunk rest ih =>
    rw [emitAll] at h
    split at h
    · exact ih h
    · rename_i hemit
      cases h
      exact emit_sinkError hemit

/-- A render that is complete fails with an error of the sink. -/
theorem complete_sinkError [OutputSink κ] (h : (complete r).1 = .error err) :
    ∃ reason, err = .sink reason := by
  rw [complete] at h
  split at h
  · cases h
  · split at h <;> cases h
    exact ⟨_, rfl⟩

theorem setWithin_malformed {path : Path} {value : Value}
    (h : r.setWithin path value = (.error err, r')) :
    ∃ path fault, err = .malformedPath path fault := by
  rw [setWithin] at h
  split at h
  · rename_i hset
    cases h
    obtain ⟨-, rfl⟩ | ⟨above, segment, -, rfl⟩ := Store.set_error_cases hset
    · exact ⟨_, _, rfl⟩
    · exact ⟨_, _, rfl⟩
  · cases h

/-- A chain is refused for a filter that cannot be constructed. -/
theorem exists_stage_of_chain [FilterStage σ] {handles : Handles} {specs : List FilterSpec}
    (h : setup.filters.chain handles specs = .error err) :
    ∃ spec, setup.filters.stage spec = .error err := by
  have hstages : ∀ {specs : List FilterSpec}, setup.filters.stages specs = .error err →
      ∃ spec, setup.filters.stage spec = .error err := by
    intro specs
    induction specs with
    | nil => exact nofun
    | cons spec rest ih =>
      intro h
      rw [FilterRegistry.stages] at h
      split at h
      · rename_i hstage
        cases h
        exact ⟨spec, hstage⟩
      · rcases hrest : setup.filters.stages rest with err' | stages <;> rw [hrest] at h <;> cases h
        exact ih hrest
  rw [FilterRegistry.chain] at h
  rcases hspecs : setup.filters.stages specs with err' | stages <;> rw [hspecs] at h <;> cases h
  exact hstages hspecs

end Errors

/-! ## Effect by effect

A body is followed effect by effect (`BodySteps`), and each effect leaves a body of the same
kind. The one exception is a close without an open block, whose error is not among those handed
on. -/

/-- The next effect of a body closes or restarts a block. -/
def Body.Closing : Body σ μ → Prop
  | .restart _ | .close _ => True
  | _ => False

variable [FilterStage σ] [OutputSink κ] {setup : Setup σ μ} {fuel : Nat}

variable {body body' : Body σ μ} {r r' : Render σ κ μ}

/-- An effect that closes no block leaves the blocks and the cursor alone. -/
theorem Render.BodyStep.keeps (hstep : BodyStep setup fuel body r body' r')
    (h : ¬ body.Closing) : r'.cursor = r.cursor ∧ r'.blocks = r.blocks := by
  cases hstep with
  | restart | close => exact absurd trivial h
  | @emit chunk next =>
    obtain ⟨sink, hframe⟩ := emit_frame chunk r
    rw [hframe]
    exact ⟨rfl, rfl⟩
  | @set path value next =>
    obtain ⟨store, answers, hframe⟩ := setWithin_frame path value r
    rw [hframe]
    exact ⟨rfl, rfl⟩
  | skip | build | buildFailed | feed | finish | «recall» | remember => exact ⟨rfl, rfl⟩

section HandsOn

variable {own : RenderError → Prop} {closes : Prop}
  (hown : ∀ err, setup.HandedOn err → own err)

omit [FilterStage σ] [OutputSink κ] in
theorem Body.HandsOn.not_closing (h : body.HandsOn own False) : ¬ body.Closing := by
  intro hclosing
  cases h with
  | restart may | close may => exact may
  | _ => exact hclosing

omit [FilterStage σ] [OutputSink κ] in
/-- After an effect that fails with errors that are handed on. -/
theorem Body.HandsOn.next {next : Except RenderError Unit → Body σ μ}
    (ok : (next (.ok ())).HandsOn own closes) (error : ∀ err, next (.error err) = .fail err)
    {α : Type} {o : Except RenderError Unit × α} (h : ∀ {err a}, o = (.error err, a) → own err) :
    (next o.1).HandsOn own closes := by
  obtain ⟨err | ⟨⟩, a⟩ := o
  · rw [error]
    exact .fail (h rfl)
  · exact ok

include hown

/-- **One effect** of a body that hands errors on: only a close without an open block leads to an
error that the body does not raise otherwise. -/
theorem Render.BodyStep.handsOn (hstep : BodyStep setup fuel body r body' r')
    (h : body.HandsOn own closes) :
    body'.HandsOn own closes ∨ closes ∧ body.Closing ∧ r.blocks.frames = [] ∧
      body' = .fail (.unbalancedBlock r.currentIndex) ∧ r' = r := by
  cases h with
  | done | fail => cases hstep
  | emit ok error =>
    cases hstep
    exact .inl (ok.next error fun hemit => hown _ (.inl (emit_sinkError hemit)))
  | restart may ok error =>
    cases hstep
    cases hframes : r.blocks.frames with
    | nil =>
      -- no block is open, so nothing is popped and the body is handed the error
      have hrestart : r.restartBlock = (.error (.unbalancedBlock r.currentIndex), r) := by
        rw [restartBlock, closeBlock_of_nil hframes]
      rw [hrestart]
      exact .inr ⟨may, trivial, rfl, error _, rfl⟩
    | cons frame rest =>
      rw [restartBlock, closeBlock_of_cons hframes]
      exact .inl ok
  | close may ok error =>
    cases hstep
    cases hframes : r.blocks.frames with
    | nil =>
      have hclose : r.closeCurrent = (.error (.unbalancedBlock r.currentIndex), r) := by
        rw [closeCurrent, closeBlock_of_nil hframes]
      rw [hclose]
      exact .inr ⟨may, trivial, rfl, error _, rfl⟩
    | cons frame rest =>
      rw [closeCurrent, closeBlock_of_cons hframes]
      exact .inl ok
  | set ok error =>
    cases hstep
    exact .inl (ok.next error fun hset => hown _ (.inr (.inl (setWithin_malformed hset))))
  | build ok error =>
    cases hstep with
    | build hchain => exact .inl (ok _)
    | buildFailed hchain =>
      rw [error]
      exact .inl (.fail (hown _ (.inr (.inr (exists_stage_of_chain hchain)))))
  | skip h | remember h =>
    cases hstep
    exact .inl h
  | feed h | finish h =>
    cases hstep
    exact .inl (h _ _)
  | «recall» h =>
    cases hstep
    exact .inl (h _)

/-- **A body that closes no block** leaves the blocks and the cursor alone, and fails with an error
that it raises. -/
theorem Body.HandsOn.perform {res : Except RenderError (Flow σ)} (h : body.HandsOn own False)
    (hperform : Render.perform setup fuel body r = some (res, r')) :
    r'.cursor = r.cursor ∧ r'.blocks = r.blocks ∧ ∀ err, res = .error err → own err := by
  have hsteps {s : Body σ μ × Render σ κ μ} (hs : BodySteps setup fuel (body, r) s) :
      s.1.HandsOn own False ∧ s.2.cursor = r.cursor ∧ s.2.blocks = r.blocks := by
    induction hs with
    | refl => exact ⟨h, rfl, rfl⟩
    | tail before hstep ih =>
      obtain ⟨hbody, hcursor, hblocks⟩ := ih
      obtain ⟨hcursor', hblocks'⟩ := hstep.keeps hbody.not_closing
      exact ⟨(hstep.handsOn hown hbody).resolve_right fun h => h.1, hcursor'.trans hcursor,
        hblocks'.trans hblocks⟩
  obtain ⟨hlast, hcursor, hblocks⟩ := hsteps (perform_steps hperform)
  refine ⟨hcursor, hblocks, ?_⟩
  rintro err rfl
  cases hlast with
  | fail h => exact h

/-- **A body that fails over a block that is not open**, and raises no such error otherwise, has
come to a close or a restart without an open block, and has failed there. -/
theorem Body.HandsOn.unbalanced {index : Nat} (h : body.HandsOn own closes)
    (hnot : ¬ own (.unbalancedBlock index))
    (hperform : Render.perform setup fuel body r = some (.error (.unbalancedBlock index), r')) :
    ∃ last : Body σ μ, last.Closing ∧ BodySteps setup fuel (body, r) (last, r') ∧
      r'.blocks.frames = [] ∧ index = r'.currentIndex := by
  have hsteps {s : Body σ μ × Render σ κ μ} (hs : BodySteps setup fuel (body, r) s) :
      s.1.HandsOn own closes ∨ ∃ last : Body σ μ, last.Closing ∧
        BodySteps setup fuel (body, r) (last, s.2) ∧ s.2.blocks.frames = [] ∧
        s.1 = .fail (.unbalancedBlock s.2.currentIndex) := by
    induction hs with
    | refl => exact .inl h
    | @tail s s' before hstep ih =>
      obtain ⟨last, r₁⟩ := s
      obtain ⟨body₁, r₂⟩ := s'
      rcases ih with hbody | ⟨-, -, -, -, hfail⟩
      · refine (hstep.handsOn hown hbody).imp id ?_
        rintro ⟨-, hclosing, hframes, hfail, rfl⟩
        exact ⟨last, hclosing, before, hframes, hfail⟩
      · dsimp only at hfail
        subst hfail
        cases hstep
  -- a body of the kind that has failed has raised the error itself, which was excluded
  rcases hsteps (perform_steps hperform) with hlast | ⟨last, hclosing, hto, hframes, hfail⟩
  · cases hlast with
    | fail h => exact absurd h hnot
  · exact ⟨last, hclosing, hto, hframes, RenderError.unbalancedBlock.inj (Body.fail.inj hfail)⟩

end HandsOn

end StreamingTemplate

import StreamingTemplate.Engine.Host
import StreamingTemplate.Proofs.Engine.Turn
import StreamingTemplate.Proofs.Engine.Walk

/-!
# Renders with the built-in directives

A run over the built-in directives and filters, into a sink that never fails, is a walk through the
template: `run_along` for a run that starts at an instruction, `resume_along` for one that starts
with a value which was waited for. Both say how much fuel is enough. They hold of any part of a
template in which there are no other directives, whatever the directives are that come behind it
(`Setup.BuiltinOn`, `Follows`); `run_walk` and `run_onward` are the case that nothing comes behind.

Each instruction takes at most four turns: the instruction itself, its question, the answer, and the
flow behind it.
-/

namespace StreamingTemplate

/-- What a render over the built-in directives and filters is given. -/
def Setup.builtin {μ : Type} (template : Template) (settings : RenderSettings := {}) :
    Setup TextFilter μ :=
  { template, directives := Directive.builtins, filters := TextFilter.registry id, settings }

/-- A setup in which some instructions mean what they mean to the built-in directives and filters.
-/
structure Setup.BuiltinOn {μ : Type} (setup : Setup TextFilter μ) (part : List Instruction) :
    Prop where
  filters : setup.filters = TextFilter.registry id
  directives : ∀ name args, .directive name args ∈ part →
    setup.directives.directive? name = Directive.builtins.directive? name

/-- In a setup of built-in directives every part of a template has them only. -/
theorem Setup.builtinOn {μ : Type} (template : Template) (settings : RenderSettings)
    (part : List Instruction) :
    (Setup.builtin template settings : Setup TextFilter μ).BuiltinOn part :=
  ⟨rfl, fun _ _ _ => rfl⟩

theorem Setup.BuiltinOn.mono {μ : Type} {setup : Setup TextFilter μ} {part part' : List Instruction}
    (h : setup.BuiltinOn part) (hpart : part' ⊆ part) : setup.BuiltinOn part' :=
  ⟨h.filters, fun name args hmem => h.directives name args (hpart hmem)⟩

theorem Setup.BuiltinOn.tail {μ : Type} {setup : Setup TextFilter μ} {instruction : Instruction}
    {rest : List Instruction} (h : setup.BuiltinOn (instruction :: rest)) : setup.BuiltinOn rest :=
  h.mono fun _ => List.mem_cons_of_mem instruction

/-! ## Sinks that never fail

A walk says which chunks are emitted, not what a sink makes of them. So the sink is arbitrary,
but for never failing, and `deliver` is what it has become after the chunks. -/

/-- A sink that takes every chunk and can always be closed. -/
class SteadySink (κ : Type) [OutputSink κ] : Prop where
  -- an error of the sink would end the walk at a place that the template does not tell
  accept_steady (sink : κ) (chunk : String) : (OutputSink.accept sink chunk).2 = none
  close_steady (sink : κ) : (OutputSink.close sink).2 = none

instance : SteadySink Collector := ⟨fun _ _ => rfl, fun _ => rfl⟩

instance : SteadySink ChunkLog := ⟨fun _ _ => rfl, fun _ => rfl⟩

/-- The sink after some chunks. -/
def OutputSink.deliver {κ : Type} [OutputSink κ] (sink : κ) (chunks : List String) : κ :=
  chunks.foldl (fun sink chunk => (OutputSink.accept sink chunk).1) sink

theorem OutputSink.deliver_append {κ : Type} [OutputSink κ] (sink : κ)
    (first second : List String) :
    deliver sink (first ++ second) = deliver (deliver sink first) second :=
  List.foldl_append

open OutputSink

namespace Render

variable {κ μ : Type} [OutputSink κ]

/-- The place of a render. -/
def place {σ : Type} (r : Render σ κ μ) : Place := ⟨r.cursor, r.blocks, r.skip⟩

/-- The render at another place. -/
def moveTo {σ : Type} (p : Place) (r : Render σ κ μ) : Render σ κ μ :=
  { r with cursor := p.cursor, blocks := p.blocks, skip := p.skip }

/-- The render that has walked to a place and has emitted some chunks. -/
def walked (place : Place) (sink : κ) (lines : Lines) (r : Render TextFilter κ μ) :
    Render TextFilter κ μ :=
  { r.moveTo place with sink := some sink, lines }

/-- What a run returns, and the render it leaves, if it comes to a walk. -/
def landed (w : Walk) (sink : κ) (lines : Lines) (r : Render TextFilter κ μ) :
    Outcome TextFilter κ μ Unit :=
  let sink := deliver sink w.chunks
  match w.halt with
  | .done => (.ok (), { r.walked w.place (close sink).1 lines with status := .done })
  | .waits path index _ =>
    (.ok (), { r.walked w.place sink lines with
      store := r.store.subscribe path .engine
      status := .suspended (.variable path index r.clock) })
  | .fails err => (.error err, { r.walked w.place sink lines with status := .failed })
  | .streams => (.ok (), r.walked w.place sink lines)

theorem landed_after (chunks : List String) (w : Walk) (sink : κ) (lines : Lines)
    (r : Render TextFilter κ μ) :
    landed (w.after chunks) sink lines r = landed w (deliver sink chunks) lines r := by
  simp only [landed, Walk.after, deliver_append]

/-- Where a render lands depends on the place it comes from only through the walk. -/
theorem landed_walked (w : Walk) (sink : κ) (lines : Lines) (place : Place) (sink' : κ)
    (lines' : Lines) (r : Render TextFilter κ μ) :
    landed w sink lines (r.walked place sink' lines') = landed w sink lines r := by
  unfold landed
  cases w.halt <;> rfl

variable {template : Template} {settings : RenderSettings} {r : Render TextFilter κ μ} {sink : κ}

/-! ## Bodies

The bodies of the built-in directives in terms of a walk: `if` hides its block or does not, `var`
emits the text of the value or what its filters make of that. A stream is left out throughout,
for it is drained in turns of its own. -/

section Bodies

variable [SteadySink κ]

/-- Emitting to a sink that never fails succeeds, and only the sink changes. -/
theorem emit_steady {σ : Type} {r : Render σ κ μ} (chunk : String) (hsink : r.sink = some sink) :
    r.emit chunk = (.ok (), { r with sink := some (accept sink chunk).1 }) := by
  have := SteadySink.accept_steady sink chunk
  rw [emit, hsink]
  dsimp only
  split
  · rename_i heq
    rw [heq]
  · rename_i heq
    rw [heq] at this
    cases this

/-- A body that emits chunks first goes on with a sink that has taken them. -/
theorem perform_emitAll (setup : Setup TextFilter μ) (fuel : Nat) (chunks : List String)
    (next : Body TextFilter μ) (hsink : r.sink = some sink) :
    perform setup fuel (Body.emitAll chunks next) r =
      perform setup fuel next { r with sink := some (deliver sink chunks) } := by
  induction chunks generalizing r sink with
  | nil =>
    cases r
    cases hsink
    rfl
  | cons chunk rest ih =>
    rw [Body.emitAll, perform, emit_steady chunk hsink]
    exact ih rfl

omit [OutputSink κ] [SteadySink κ] in
/-- Without filters the text of a value is emitted as it is. -/
theorem emitValue_none {path : Path} {value : Value} (h : ∀ id, value ≠ .stream id) :
    (Directive.emitValue path value none : Body TextFilter μ) =
      Body.emitAll [value.text] (.done .advance) := by
  cases value with
  | stream id => exact absurd rfl (h id)
  | _ => rfl

omit [OutputSink κ] [SteadySink κ] in
/-- With filters the text of a value is sent through the chain, which is finished behind it. -/
theorem emitValue_some {σ : Type} {path : Path} {value : Value} (chain : Chain σ)
    (h : ∀ id, value ≠ .stream id) :
    (Directive.emitValue path value (some chain) : Body σ μ) =
      .feed chain value.text fun fed chain =>
        .finish chain fun finished chain =>
          Body.emitAll (fed ++ finished)
            (.done (if chain.isEnded then .advance else .drain chain)) := by
  cases value with
  | stream id => exact absurd rfl (h id)
  | _ => rfl

omit [SteadySink κ] in
/-- The body of a filtered `var` sends the value through a new chain of the filters. -/
theorem perform_var_filtered {σ : Type} [FilterStage σ] {setup : Setup σ μ} {args : List Argument}
    {path : Path} {stages : List σ} (hpath : pathArg "var" args 0 = .ok path)
    (hstages : setup.filters.stages (filterSpecs args) = .ok stages)
    (hfiltered : filterSpecs args ≠ []) (value : Value) (fuel : Nat) (r : Render σ κ μ) :
    perform setup fuel (Directive.var.resume args value) r =
      perform setup fuel
        (Directive.emitValue path value (some (Chain.ofStages r.lines.handles stages).1))
        { r with
          lines := { r.lines with handles := (Chain.ofStages r.lines.handles stages).2 } } := by
  have hchain : setup.filters.chain r.lines.handles (filterSpecs args) =
      .ok (Chain.ofStages r.lines.handles stages) := by
    rw [FilterRegistry.chain, hstages]
    rfl
  simp only [Directive.var, hpath, Body.orFail]
  rcases hspecs : filterSpecs args with _ | ⟨spec, specs⟩
  · exact absurd hspecs hfiltered
  · rw [hspecs] at hchain
    rw [perform, hchain]
    rfl

/-- The body of `var` emits what the filters make of the text of the value. -/
theorem perform_var {args : List Argument} {path : Path} {filters : List TextFilter} {value : Value}
    (fuel : Nat) (hpath : pathArg "var" args 0 = .ok path)
    (hfilters : (TextFilter.registry id).stages (filterSpecs args) = .ok filters)
    (hvalue : ∀ id, value ≠ .stream id) (hsink : r.sink = some sink) :
    ∃ lines, perform (Setup.builtin template settings) (fuel + 1)
        (Directive.var.resume args value) r =
      some (.ok .advance, { r with
        sink := some (deliver sink (TextFilter.transformAll filters [value.text])), lines }) := by
  rcases hspecs : filterSpecs args with _ | ⟨spec, specs⟩
  · rw [hspecs] at hfilters
    obtain rfl : [] = filters := Except.ok.inj hfilters
    refine ⟨r.lines, ?_⟩
    simp only [Directive.var, hpath, Body.orFail, hspecs]
    rw [emitValue_none hvalue, perform_emitAll _ _ _ _ hsink]
    rfl
  · obtain ⟨fed, finished, haccept, hfed, hfinish, hfinished, hended, hchunks⟩ :=
      TextFilter.accept_finish filters r.lines.handles (Chain.ofStages r.lines.handles filters).2
        value.text fuel
    refine ⟨{ r.lines with handles := (Chain.ofStages r.lines.handles filters).2 }, ?_⟩
    rw [perform_var_filtered hpath hfilters (by simp [hspecs]), emitValue_some _ hvalue, perform,
      haccept]
    dsimp only
    rw [perform, hfed, hfinish]
    dsimp only
    rw [hended, hchunks, hfinished]
    exact perform_emitAll _ _ _ (.done .advance) (by exact hsink)

/-- The body of the directive that asked takes the answer. -/
theorem perform_resume {name : String} {args : List Argument} {path : Path} {question : Question}
    {value : Value} {chunks : List String} {place : Place} (template : Template)
    (settings : RenderSettings) (fuel : Nat) (hask : question.AskedBy name args path)
    (hsink : r.sink = some sink) (hanswer : question.answer value r.place = some (chunks, place)) :
    ∃ d lines, Directive.builtins.directive? name = some d ∧
      perform (Setup.builtin template settings) (fuel + 1) (d.resume args value) r =
        some (.ok .advance, r.walked place (deliver sink chunks) lines) := by
  cases hask with
  | condition hpath =>
    obtain ⟨rfl, rfl⟩ := Prod.mk.inj (Option.some.inj hanswer)
    refine ⟨Directive.ifBlock, r.lines, rfl, ?_⟩
    cases r
    cases hsink
    cases htruthy : value.isTruthy <;> simp [Directive.ifBlock, htruthy] <;> rfl
  | shown hpath hfilters =>
    obtain ⟨hvalue, rfl, rfl⟩ := Question.answer_shown_eq_some hanswer
    obtain ⟨lines, hperform⟩ := perform_var fuel hpath hfilters hvalue hsink
    exact ⟨Directive.var, lines, rfl, hperform⟩

end Bodies

/-! ## Instructions

What one instruction does depends on the place and the store only, and `Place.directive` says it
as a function of the place: the block and the skip state are changed first, then the body runs
unless it is hidden. There is one lemma for each built-in directive, and one for all other names. -/

/-- What a turn at a directive does, in the terms of a walk. -/
def Reaches (template : Template) (settings : RenderSettings) (fuel : Nat)
    (r : Render TextFilter κ μ) : Reached → Prop
  | .passed place =>
    turn (Setup.builtin template settings) fuel .instruction r =
        some (.next .instruction, r.moveTo place) ∨
      turn (Setup.builtin template settings) fuel .instruction r =
        some (.next (.flow r.cursor .advance), r.moveTo place)
  | .fails place err =>
    turn (Setup.builtin template settings) fuel .instruction r =
      some (.stop (.error err), { r.moveTo place with status := .failed })
  | .asks place path _ =>
    ∃ lines, turn (Setup.builtin template settings) fuel .instruction r =
      some (.next (.flow r.cursor (.await path)), { r.moveTo place with lines })

/-- A turn at a directive is the turn of this directive, with the cursor behind it. -/
theorem turn_instruction (setup : Setup TextFilter μ) (fuel : Nat) {name : String}
    {args : List Argument} (hget : setup.template.get? r.cursor = some (.directive name args)) :
    turn setup fuel .instruction r =
      directiveTurn setup fuel r.cursor name args { r with cursor := r.cursor + 1 } := by
  rw [turn, instructionTurn, hget]

omit [OutputSink κ] in
/-- Without a pipe a failing turn only sets the status. -/
theorem failTurn_of_none (err : RenderError) (hpipe : r.pipe = none) :
    failTurn err r = (.stop (.error err), { r with status := .failed }) := by
  rw [failTurn, fail, dropPipe_of_none hpipe]

/-- A body that fails stops the run. -/
theorem bodyTurn_error {setup : Setup TextFilter μ} {fuel index : Nat} {body : Body TextFilter μ}
    {r' : Render TextFilter κ μ} {err : RenderError}
    (h : perform setup fuel body r = some (.error err, r')) (hpipe : r'.pipe = none) :
    bodyTurn setup fuel index body r =
      some (.stop (.error err), { r' with status := .failed }) := by
  rw [bodyTurn, h, ← failTurn_of_none err hpipe]
  rfl

/-- `var` checks its filters before it asks for the value. -/
theorem reaches_var (fuel : Nat) {args : List Argument}
    (hget : template.get? r.cursor = some (.directive "var" args)) (hpipe : r.pipe = none) :
    Reaches template settings fuel r (r.place.directive "var" args) := by
  have hturn := turn_instruction (Setup.builtin template settings) fuel hget
  rw [directiveTurn_of_ok (d := Directive.var) rfl rfl] at hturn
  change _ = if r.skip.isSkipping then some (.next .instruction, r.moveTo r.place.next)
    else bodyTurn _ fuel r.cursor (Directive.var.call args) (r.moveTo r.place.next) at hturn
  have hcall : (Directive.var.call args : Body TextFilter μ) =
      Body.orFail (fun path => .build (filterSpecs args) (Body.orFail fun _ => .done (.await path)))
        (pathArg "var" args 0) := rfl
  have hchain : ∀ handles, (Setup.builtin template settings : Setup TextFilter μ).filters.chain
      handles (filterSpecs args) =
        ((TextFilter.registry id).stages (filterSpecs args)).map (Chain.ofStages handles) :=
    fun _ => rfl
  rw [Place.directive, if_pos rfl]
  change Reaches _ _ _ _ (if r.skip.isSkipping then _ else _)
  cases hskip : r.skip.isSkipping
  · rw [if_neg (by simp [hskip]), hcall] at hturn
    rcases hpath : pathArg "var" args 0 with err | path <;> rw [hpath] at hturn
    · exact hturn.trans (bodyTurn_error rfl hpipe)
    · rcases hfilters : (TextFilter.registry id).stages (filterSpecs args) with err | filters
      · refine hturn.trans (bodyTurn_error ?_ hpipe)
        rw [Body.orFail, perform, hchain, hfilters]
        rfl
      · refine ⟨{ r.lines with handles := (Chain.ofStages r.lines.handles filters).2 },
          hturn.trans (bodyTurn_ok ?_)⟩
        rw [Body.orFail, perform, hchain, hfilters]
        rfl
  · rw [if_pos hskip] at hturn
    exact .inl hturn

/-- `if` opens its block before it asks for the value. -/
theorem reaches_if (fuel : Nat) {args : List Argument}
    (hget : template.get? r.cursor = some (.directive "if" args)) (hpipe : r.pipe = none) :
    Reaches template settings fuel r (r.place.directive "if" args) := by
  have hturn := turn_instruction (Setup.builtin template settings) fuel hget
  rw [directiveTurn_of_ok (d := Directive.ifBlock) rfl rfl] at hturn
  change _ = if r.skip.isSkipping then some (.next .instruction, r.moveTo r.place.opened)
    else bodyTurn _ fuel r.cursor (Directive.ifBlock.call args) (r.moveTo r.place.opened) at hturn
  have hcall : (Directive.ifBlock.call args : Body TextFilter μ) =
      Body.orFail (fun path => .done (.await path)) (pathArg "if" args 0) := rfl
  rw [Place.directive, if_neg (by decide), if_neg (by decide), if_pos rfl]
  change Reaches _ _ _ _ (if r.skip.isSkipping then _ else _)
  cases hskip : r.skip.isSkipping
  · rw [if_neg (by simp [hskip]), hcall] at hturn
    rcases hpath : pathArg "if" args 0 with err | path <;> rw [hpath] at hturn
    · exact hturn.trans (bodyTurn_error rfl hpipe)
    · exact ⟨r.lines, hturn.trans (bodyTurn_ok rfl)⟩
  · rw [if_pos hskip] at hturn
    exact .inl hturn

/-- `endif` closes a block, also while output is suppressed. -/
theorem reaches_endIf (fuel : Nat) {args : List Argument}
    (hget : template.get? r.cursor = some (.directive "endif" args)) (hpipe : r.pipe = none) :
    Reaches template settings fuel r (r.place.directive "endif" args) := by
  have hturn := turn_instruction (Setup.builtin template settings) fuel hget
  have hclose : reach Directive.endIf r.cursor { r with cursor := r.cursor + 1 } =
      closeBlock r.cursor (r.moveTo r.place.next) := rfl
  have hblocks : (r.moveTo r.place.next).blocks.pop? = r.blocks.pop? := rfl
  have hplace : r.place.blocks.pop? = r.blocks.pop? := rfl
  rw [Place.directive, if_neg (by decide), if_pos rfl, hplace]
  cases hpop : r.blocks.pop? with
  | none =>
    rw [closeBlock, hblocks, hpop] at hclose
    rw [directiveTurn_of_error rfl hclose] at hturn
    exact hturn.trans (congrArg some (failTurn_of_none _ hpipe))
  | some popped =>
    rw [closeBlock, hblocks, hpop] at hclose
    rw [directiveTurn_of_ok rfl hclose] at hturn
    split at hturn
    · exact .inl hturn
    · exact .inr (hturn.trans (bodyTurn_ok rfl))

/-- **A directive.** A turn at a directive does what the directive does at its place. -/
theorem reaches_directive (settings : RenderSettings) (fuel : Nat) {name : String}
    {args : List Argument} (hget : template.get? r.cursor = some (.directive name args))
    (hpipe : r.pipe = none) :
    Reaches template settings fuel r (r.place.directive name args) := by
  by_cases hvar : name = "var"
  · subst hvar
    exact reaches_var fuel hget hpipe
  · by_cases hendIf : name = "endif"
    · subst hendIf
      exact reaches_endIf fuel hget hpipe
    · by_cases hif : name = "if"
      · subst hif
        exact reaches_if fuel hget hpipe
      · have hdir : (Directive.builtins : DirectiveRegistry TextFilter μ).directive? name =
            none := by
          simp [Directive.builtins, DirectiveRegistry.register, DirectiveRegistry.empty, hvar,
            hendIf, hif]
        rw [Place.directive, if_neg hvar, if_neg hendIf, if_neg hif]
        refine (turn_instruction _ fuel hget).trans ?_
        rw [directiveTurn, Setup.builtin, hdir]
        exact congrArg some (failTurn_of_none _ hpipe)

/-! ## Setups with other directives

A part of a template may stand in a setup that knows more directives, such as loops. A turn at
one of its instructions is that of the built-in setup, if the directives of the part mean the
same in both, because what a body does depends on the setup through its filters only. -/

omit [OutputSink κ] in
/-- What a body does depends on the filters alone. -/
theorem perform_congr {σ : Type} [FilterStage σ] [OutputSink κ] {setup setup' : Setup σ μ}
    (h : setup.filters = setup'.filters) {fuel : Nat} {body : Body σ μ} {r : Render σ κ μ} :
    perform setup fuel body r = perform setup' fuel body r := by
  induction body generalizing r with
  | done flow | fail err => rfl
  | emit chunk next ih | restart next ih | close next ih | set path value next ih => exact ih _
  | skip next ih | remember memory next ih => exact ih
  | «recall» next ih => exact ih _
  | build specs next ih =>
    rw [perform, perform, h]
    split
    · exact ih _
    · exact ih _
  | feed chain chunk next ih | finish chain next ih =>
    rw [perform, perform]
    split
    · rfl
    · exact ih _ _

/-- Where the instructions mean the same, a turn at one of them does the same. -/
theorem turn_builtinOn {setup : Setup TextFilter μ} {part : List Instruction}
    {instruction : Instruction} (hon : setup.BuiltinOn part)
    (hget : setup.template.get? r.cursor = some instruction) (hmem : instruction ∈ part)
    (fuel : Nat) :
    turn setup fuel .instruction r =
      turn (Setup.builtin setup.template) fuel .instruction r := by
  cases instruction with
  | literal text =>
    rw [turn, turn, instructionTurn, instructionTurn, hget,
      show (Setup.builtin setup.template : Setup TextFilter μ).template.get? r.cursor = _ from hget]
  | directive name args =>
    have hbody : ∀ (body : Body TextFilter μ) (r' : Render TextFilter κ μ),
        bodyTurn setup fuel r.cursor body r' =
          bodyTurn (Setup.builtin setup.template) fuel r.cursor body r' := fun body r' => by
      rw [bodyTurn, bodyTurn,
        perform_congr (show setup.filters = (Setup.builtin setup.template).filters from
          hon.filters)]
    rw [turn_instruction setup fuel hget, turn_instruction _ fuel (by exact hget), directiveTurn,
      directiveTurn, hon.directives name args hmem]
    simp only [hbody]
    rfl

/-! ## Runs

A run follows a walk if it lands where the walk does, or, where the walk is done, goes on with
the instructions behind it from there (`Follows`). The induction is on the part of the template
that is walked; what is said of the rest of the part is `GoesOn`, for any place from which it may
be reached, since each instruction leaves the render at another one. -/

omit [OutputSink κ] in
theorem moveTo_eq_walked (place : Place) (lines : Lines) (hsink : r.sink = some sink) :
    { r.moveTo place with lines } = r.walked place sink lines := by
  cases r
  cases hsink
  rfl

theorem run_await_none {setup : Setup TextFilter μ} {fuel index : Nat} {path : Path}
    (hvalue : r.store.resolve path = none) :
    run setup (fuel + 1) (.flow index (.await path)) r = some (.ok (), { r with
      store := r.store.subscribe path .engine
      status := .suspended (.variable path index r.clock) }) :=
  run_stop (by rw [turn, flowTurn, hvalue])

variable [SteadySink κ]

/-- A render completes and closes its sink. -/
theorem complete_steady (hsink : r.sink = some sink) :
    complete r = (.ok (), { r with sink := some (close sink).1, status := .done }) := by
  have := SteadySink.close_steady sink
  rw [complete]
  dsimp only
  rw [hsink]
  dsimp only
  split
  · rename_i heq
    rw [heq]
  · rename_i heq
    rw [heq] at this
    cases this

/-- A literal is emitted unless it is hidden. -/
theorem turn_literal {text : String} (setup : Setup TextFilter μ) (fuel : Nat)
    (hget : setup.template.get? r.cursor = some (.literal text)) (hsink : r.sink = some sink) :
    turn setup fuel .instruction r =
      some (.next .instruction, r.walked r.place.next
        (deliver sink (if r.place.skip.isSkipping then [] else [text])) r.lines) := by
  rw [turn, instructionTurn, hget]
  dsimp only
  cases hskip : r.skip.isSkipping
  · rw [if_neg (by simp), emit_steady text (by exact hsink),
      show r.place.skip.isSkipping = false from hskip]
    rfl
  · rw [if_pos rfl, show r.place.skip.isSkipping = true from hskip, if_pos rfl]
    exact congrArg (fun r => some (_, r)) (moveTo_eq_walked r.place.next r.lines hsink)

/-- A run that starts with an awaited value goes on behind the directive. -/
theorem run_answer {setup : Setup TextFilter μ} {part : List Instruction} {name : String}
    {args : List Argument} {path : Path} {question : Question} {index : Nat} {value : Value}
    {chunks : List String} {place : Place} (fuel : Nat)
    (hon : setup.BuiltinOn (.directive name args :: part))
    (hget : setup.template.get? index = some (.directive name args))
    (hask : question.AskedBy name args path) (hsink : r.sink = some sink)
    (hanswer : question.answer value r.place = some (chunks, place)) :
    ∃ lines, run setup (fuel + 2) (.resume index value) r =
      run setup fuel .instruction (r.walked place (deliver sink chunks) lines) := by
  obtain ⟨d, lines, hdir, hbody⟩ := perform_resume setup.template {} fuel hask hsink hanswer
  rw [← perform_congr hon.filters] at hbody
  have hdir : setup.directives.directive? name = some d :=
    (hon.directives name args List.mem_cons_self).trans hdir
  exact ⟨lines, (run_resumed hget hdir hbody).trans (run_next rfl)⟩

/-- What a run comes to if it comes to a walk through a part of the template. Where the walk is
done, the instructions `more` are left, and the run goes on with at least so much fuel. -/
def Follows (setup : Setup TextFilter μ) (fuel : Nat) (more : List Instruction) (w : Walk)
    (sink : κ) (r : Render TextFilter κ μ) (o : Option (Outcome TextFilter κ μ Unit)) : Prop :=
  match w.halt with
  | .done => setup.template.instructions.drop w.place.cursor = more ∧ ∃ lines left, fuel ≤ left ∧
      o = run setup left .instruction (r.walked w.place (deliver sink w.chunks) lines)
  | .streams => True
  | .waits .. | .fails _ => ∃ lines, o = some (landed w sink lines r)

section Follows

variable {setup : Setup TextFilter μ} {more : List Instruction} {fuel : Nat}
  {o : Option (Outcome TextFilter κ μ Unit)}

omit [SteadySink κ] in
theorem Follows.after {chunks : List String} {w : Walk}
    (h : Follows setup fuel more w (deliver sink chunks) r o) :
    Follows setup fuel more (w.after chunks) sink r o := by
  obtain ⟨chunks', place, halt⟩ := w
  cases halt with
  | streams => trivial
  | done =>
    obtain ⟨hmore, lines, left, hleft, ho⟩ := h
    refine ⟨hmore, lines, left, hleft, ?_⟩
    rw [Walk.chunks_after, deliver_append]
    exact ho
  | waits | fails =>
    obtain ⟨lines, ho⟩ := h
    exact ⟨lines, by rw [landed_after, ho]⟩

omit [SteadySink κ] in
/-- It does not matter from which place of the render a run has come to the walk. -/
theorem Follows.of_walked {w : Walk} {place : Place} {sink' : κ} {lines' : Lines}
    (h : Follows setup fuel more w sink (r.walked place sink' lines') o) :
    Follows setup fuel more w sink r o := by
  unfold Follows at *
  cases hhalt : w.halt <;> rw [hhalt] at h
  · exact h
  · obtain ⟨lines, ho⟩ := h
    exact ⟨lines, ho.trans (congrArg some (landed_walked ..))⟩
  · obtain ⟨lines, ho⟩ := h
    exact ⟨lines, ho.trans (congrArg some (landed_walked ..))⟩
  · trivial

/-- With enough fuel, a run from any place behind the next instruction is the walk from there. -/
def GoesOn (setup : Setup TextFilter μ) (fuel : Nat) (rest more : List Instruction)
    (r : Render TextFilter κ μ) : Prop :=
  ∀ (place : Place) (sink : κ) (lines : Lines) (fuel' : Nat), place.cursor = r.cursor + 1 →
    fuel + 4 * rest.length ≤ fuel' →
    Follows setup fuel more (walk r.store.resolve place rest) sink r
      (run setup fuel' .instruction (r.walked place sink lines))

/-- A run at a directive: what the directive does at its place, and the walk from there. -/
theorem run_directive {name : String} {args : List Argument} {rest : List Instruction}
    {fuel' : Nat} (hgoesOn : GoesOn setup fuel rest more r)
    (hon : setup.BuiltinOn (.directive name args :: rest))
    (hget : setup.template.get? r.cursor = some (.directive name args)) (hsink : r.sink = some sink)
    (hpipe : r.pipe = none) (hfuel : fuel + 4 * rest.length ≤ fuel') :
    Follows setup fuel more (walk r.store.resolve r.place (.directive name args :: rest)) sink r
      (run setup (fuel' + 4) .instruction r) := by
  have hcursor := r.place.cursor_directive name args
  have hreach : Reaches setup.template {} (fuel' + 3) r (r.place.directive name args) :=
    reaches_directive {} (fuel' + 3) hget hpipe
  have hagree := turn_builtinOn hon hget List.mem_cons_self (fuel' + 3)
  rw [walk]
  cases hreached : r.place.directive name args with
  | passed place =>
    rw [hreached] at hcursor hreach
    have hwalked : r.moveTo place = r.walked place sink r.lines :=
      moveTo_eq_walked place r.lines hsink
    -- a directive that is passed by takes one turn, one that runs and asks nothing takes two
    rcases hreach with hturn | hturn <;> rw [hwalked, ← hagree] at hturn <;> rw [run_next hturn]
    · exact hgoesOn place sink r.lines (fuel' + 3) hcursor (by omega)
    · rw [show run setup (fuel' + 3) (.flow r.cursor .advance) _ = _ from run_next rfl]
      exact hgoesOn place sink r.lines (fuel' + 2) hcursor (by omega)
  | asks place path question =>
    rw [hreached] at hcursor hreach
    dsimp only
    obtain ⟨lines, hturn⟩ := hreach
    rw [moveTo_eq_walked place lines hsink, ← hagree] at hturn
    rw [run_next hturn]
    cases hvalue : r.store.resolve path with
    | none => exact ⟨lines, run_await_none hvalue⟩
    | some value =>
      rw [run_await_some (by exact hvalue)]
      dsimp only [Question.onward]
      rcases hanswer : question.answer value place with _ | ⟨chunks, place'⟩
      · trivial
      · obtain ⟨lines', hresume⟩ := run_answer (r := r.walked place sink lines) fuel' hon hget
          (Place.directive_eq_asks hreached) rfl hanswer
        rw [hresume]
        exact (hgoesOn place' (deliver sink chunks) lines' fuel'
          ((Question.cursor_answer hanswer).trans hcursor) hfuel).after
  | fails place err =>
    rw [hreached] at hreach
    have hwalked : r.moveTo place = r.walked place sink r.lines :=
      moveTo_eq_walked place r.lines hsink
    exact ⟨r.lines, (run_stop (hagree.trans hreach)).trans (by rw [hwalked]; rfl)⟩

/-- **A run is a walk.** A run that starts at an instruction does what the walk through a part of
the template says, if the directives of this part are the built-in ones. -/
theorem run_along {part : List Instruction} {fuel' : Nat} (hon : setup.BuiltinOn part)
    (hcode : setup.template.instructions.drop r.cursor = part ++ more) (hsink : r.sink = some sink)
    (hpipe : r.pipe = none) (hfuel : fuel + 4 * part.length ≤ fuel') :
    Follows setup fuel more (walk r.store.resolve r.place part) sink r
      (run setup fuel' .instruction r) := by
  induction part generalizing r sink fuel' with
  | nil =>
    refine ⟨hcode, r.lines, fuel', hfuel, ?_⟩
    cases r
    cases hsink
    rfl
  | cons instruction rest ih =>
    -- a directive takes four turns at most: reaching it, its wait, its answer, and going on
    obtain ⟨fuel', rfl⟩ := Nat.exists_eq_add_of_le' (show 4 ≤ fuel' by simp at hfuel; omega)
    have hrest : fuel + 4 * rest.length ≤ fuel' := by simp at hfuel; omega
    obtain ⟨hget, hdrop⟩ := getElem?_of_drop hcode
    have hgoesOn : GoesOn setup fuel rest more r := by
      intro place sink lines fuel₁ hplace hfuel₁
      rw [← hplace] at hdrop
      exact (ih (r := r.walked place sink lines) hon.tail hdrop rfl hpipe hfuel₁).of_walked
    cases instruction with
    | literal text =>
      rw [run_next (turn_literal setup (fuel' + 3) hget hsink)]
      exact (hgoesOn r.place.next _ r.lines (fuel' + 3) rfl (by omega)).after
    | directive name args => exact run_directive hgoesOn hon hget hsink hpipe hrest

/-- **A resumed run is a walk.** A run that starts with an awaited value does what the walk behind
the answered question says. -/
theorem resume_along {part : List Instruction} {name : String} {args : List Argument} {path : Path}
    {question : Question} {index fuel' : Nat} {value : Value}
    (hon : setup.BuiltinOn (.directive name args :: part))
    (hget : setup.template.get? index = some (.directive name args))
    (hask : question.AskedBy name args path) (hsink : r.sink = some sink) (hpipe : r.pipe = none)
    (hcode : setup.template.instructions.drop r.cursor = part ++ more)
    (hfuel : fuel + 4 * part.length + 2 ≤ fuel') :
    Follows setup fuel more
      (question.onward value r.place fun place => walk r.store.resolve place part) sink r
      (run setup fuel' (.resume index value) r) := by
  obtain ⟨fuel', rfl⟩ := Nat.exists_eq_add_of_le' (show 2 ≤ fuel' by omega)
  rw [Question.onward]
  rcases hanswer : question.answer value r.place with _ | ⟨chunks, place⟩
  · trivial
  · obtain ⟨lines, hresume⟩ := run_answer fuel' hon hget hask hsink hanswer
    rw [hresume]
    refine (Follows.of_walked (run_along (r := r.walked place (deliver sink chunks) lines) hon.tail
      ?_ rfl hpipe (by omega))).after
    rw [← hcode, ← show place.cursor = r.cursor from Question.cursor_answer hanswer]
    rfl

/-- Behind the last instruction there is nothing but the end of the render. -/
theorem Follows.lands {w : Walk} (h : Follows setup (fuel + 1) [] w sink r o)
    (hstreams : w.halt ≠ .streams) : ∃ lines, o = some (landed w sink lines r) := by
  unfold Follows at h
  cases hhalt : w.halt <;> rw [hhalt] at h
  · obtain ⟨hend, lines, left, hleft, rfl⟩ := h
    obtain ⟨left, rfl⟩ := Nat.exists_eq_add_of_le' (Nat.le_of_add_left_le hleft)
    have hget : setup.template.get? w.place.cursor = none :=
      List.getElem?_eq_none (List.drop_eq_nil_iff.mp hend)
    have hlanded : landed w sink lines r = (.ok (), { r.walked w.place
        (close (deliver sink w.chunks)).1 lines with status := .done }) := by
      unfold landed
      rw [hhalt]
    refine ⟨lines, (run_stop ?_).trans (congrArg some hlanded.symm)⟩
    rw [turn, instructionTurn, show setup.template.get? (r.walked w.place _ lines).cursor = _ from
      hget]
    dsimp only
    rw [complete_steady rfl]
    rfl
  · exact h
  · exact h
  · exact absurd hhalt hstreams

end Follows

/-- A run through the rest of the template is the walk to its end. -/
theorem run_walk {rest : List Instruction} {fuel : Nat}
    (hrest : template.instructions.drop r.cursor = rest) (hsink : r.sink = some sink)
    (hpipe : r.pipe = none) (hfuel : 4 * rest.length + 1 ≤ fuel)
    (hstreams : (walk r.store.resolve r.place rest).halt ≠ .streams) :
    ∃ lines, run (Setup.builtin template settings) fuel .instruction r =
      some (landed (walk r.store.resolve r.place rest) sink lines r) :=
  (run_along (Setup.builtinOn template settings rest) (hrest.trans rest.append_nil.symm) hsink hpipe
    (show 0 + 1 + 4 * rest.length ≤ fuel by omega)).lands hstreams

/-- A resumed run through the rest of the template is the walk to its end. -/
theorem run_onward {name : String} {args : List Argument} {path : Path} {question : Question}
    {index : Nat} {value : Value} {rest : List Instruction} {w : Walk} {fuel : Nat}
    (settings : RenderSettings) (hget : template.get? index = some (.directive name args))
    (hask : question.AskedBy name args path) (hsink : r.sink = some sink) (hpipe : r.pipe = none)
    (hrest : template.instructions.drop r.cursor = rest) (hfuel : 4 * rest.length + 3 ≤ fuel)
    (hwalk : (question.onward value r.place fun place => walk r.store.resolve place rest) = w)
    (hstreams : w.halt ≠ .streams) :
    ∃ lines, run (Setup.builtin template settings) fuel (.resume index value) r =
      some (landed w sink lines r) := by
  subst hwalk
  exact (resume_along (Setup.builtinOn template settings _) hget hask hsink hpipe
    (hrest.trans rest.append_nil.symm)
    (show 0 + 1 + 4 * rest.length + 2 ≤ fuel by omega)).lands hstreams

/-- Attaching the sink starts the walk. -/
theorem attach_walk (template : Template) (settings : RenderSettings) (sink : κ)
    {rest : List Instruction} {w : Walk} {fuel : Nat} (hidle : r.status = .idle)
    (hrest : template.instructions.drop r.cursor = rest) (hpipe : r.pipe = none)
    (hfuel : 4 * rest.length + 1 ≤ fuel)
    (hwalk : walk r.store.resolve r.place rest = w) (hstreams : w.halt ≠ .streams) :
    ∃ lines, attach (Setup.builtin template settings) fuel sink r =
      some (landed w sink lines { r with sink := some sink, status := .running }) := by
  subst hwalk
  rw [attach, if_pos hidle]
  exact run_walk (r := { r with sink := some sink, status := .running }) hrest rfl hpipe hfuel
    hstreams

end Render

end StreamingTemplate

import StreamingTemplate.Proofs.Engine.Agreement
import StreamingTemplate.Proofs.Engine.Chronicle
import StreamingTemplate.Proofs.Engine.Propagation
import StreamingTemplate.Proofs.PipeEnding

/-!
# Instructions run once, and calls end

No built-in directive goes back, so the cursor only moves on: the instructions are dispatched one
after the other, over all the calls of a host. A directive that waits or pipes keeps the render
until it is done, since only the call that ends its wait goes on behind it. And between two
instructions a directive takes a bounded number of turns, so each call ends if the filters do.

* `dispatched`, `called`, `completed` — what turns tell of the instructions of the template;
* `call_yields`, `resume_yields` — the bodies of the built-in directives return, and how they go on;
* `Standing`, `OnTask` — where a render stands between its runs, and in a run;
* `standing` — no chronicle leaves this, and every turn comes closer to the end of the template.

`dispatched_once` puts this together.
-/

namespace StreamingTemplate

open Render

variable {σ κ μ : Type}

/-! ## What turns tell of the template

A chronicle has all turns that were taken, with the render before and behind each. Which
instruction was dispatched, which directive was called and which is done can be read off them. -/

namespace TakenTurn

/-- The index of the instruction that a turn executes, or skips. -/
def dispatched? (template : Template) (t : TakenTurn σ κ μ) : Option Nat :=
  match t.task with
  | .instruction => (template.get? t.before.cursor).map fun _ => t.before.cursor
  | .flow .. | .resume .. | .drain _ => none

/-- The index of the directive that a turn has reached without passing it by. -/
def called? (template : Template) (t : TakenTurn σ κ μ) : Option Nat :=
  match t.task, template.get? t.before.cursor, t.result with
  | .instruction, some (.directive ..), .next .instruction => none
  | .instruction, some (.directive ..), _ => some t.before.cursor
  | _, _, _ => none

/-- The index of the directive that is done with its turn: it moves on, or its pipe is finished. -/
def completed? (t : TakenTurn σ κ μ) : Option Nat :=
  match t.task, t.result with
  | .flow index .advance, _ => some index
  | .drain index, .next .instruction => some index
  | _, _ => none

end TakenTurn

/-- The instructions that turns have dispatched, in order. -/
def dispatched (template : Template) (taken : List (TakenTurn σ κ μ)) : List Nat :=
  taken.filterMap (TakenTurn.dispatched? template)

/-- The directives that turns have reached without passing them by, in order. -/
def called (template : Template) (taken : List (TakenTurn σ κ μ)) : List Nat :=
  taken.filterMap (TakenTurn.called? template)

/-- The directives that are done, in order. -/
def completed (taken : List (TakenTurn σ κ μ)) : List Nat :=
  taken.filterMap TakenTurn.completed?

/-- Every directive that was not passed by is done, but for the one at an index. -/
def DoneBut (template : Template) (index : Option Nat) (taken : List (TakenTurn σ κ μ)) : Prop :=
  ∀ j ∈ called template taken, some j ≠ index → j ∈ completed taken

section Turns

variable {template : Template} {taken : List (TakenTurn σ κ μ)} {t : TakenTurn σ κ μ}

/-- What two lists of turns have dispatched. -/
theorem dispatched_append (template : Template) (taken more : List (TakenTurn σ κ μ)) :
    dispatched template (taken ++ more) =
      dispatched template taken ++ dispatched template more := List.filterMap_append

/-- One more turn calls one more directive at most. -/
theorem mem_called_concat {j : Nat} :
    j ∈ called template (taken ++ [t]) ↔
      j ∈ called template taken ∨ t.called? template = some j := by
  simp [called]

/-- One more turn completes one more directive at most. -/
theorem mem_completed_concat {j : Nat} :
    j ∈ completed (taken ++ [t]) ↔ j ∈ completed taken ∨ t.completed? = some j := by
  simp [completed]

/-- A turn that calls nothing leaves nothing more undone. -/
theorem DoneBut.keep {index : Option Nat} (h : DoneBut template index taken)
    (hcalled : t.called? template = none) : DoneBut template index (taken ++ [t]) := by
  intro j hj hne
  rcases mem_called_concat.mp hj with hj | hj
  · exact mem_completed_concat.mpr (.inl (h j hj hne))
  · rw [hcalled] at hj
    cases hj

/-- A turn that calls a directive leaves this one undone. -/
theorem DoneBut.call {index : Nat} (h : DoneBut template none taken)
    (hcalled : t.called? template = some index) :
    DoneBut template (some index) (taken ++ [t]) := by
  intro j hj hne
  rcases mem_called_concat.mp hj with hj | hj
  · exact mem_completed_concat.mpr (.inl (h j hj nofun))
  · exact absurd (hj.symm.trans hcalled) hne

/-- A turn that ends what a directive does leaves nothing undone. -/
theorem DoneBut.complete {index : Nat} (h : DoneBut template (some index) taken)
    (hcalled : t.called? template = none) (hcompleted : t.completed? = some index) :
    DoneBut template none (taken ++ [t]) := by
  intro j hj _
  by_cases hji : j = index
  · exact mem_completed_concat.mpr (.inr (hji ▸ hcompleted))
  · exact h.keep hcalled j hj (by simpa using hji)

end Turns

/-! ## The bodies of the built-in directives

A body is followed through its operations: each returns, for the chains in use end, and each
leaves the cursor, the blocks, the store and the pipe alone. What is left to know is the flow
that it hands back, and that its chain, if it has one, is in use. -/

/-- The chain that a flow hands on is in use. -/
def Flow.InUse [FilterStage σ] (filters : FilterRegistry σ) (handles : Handles) : Flow σ → Prop
  | .advance | .await _ => True
  | .forward _ _ chain => ∀ c, chain = some c → filters.InUse handles c
  | .drain chain => filters.InUse handles chain

variable [FilterStage σ] [OutputSink κ]

/-- A body returns, changes the sink, the skipping and the handles at most, and goes on in a certain
way if it does not fail. -/
def BodyYields (setup : Setup σ μ) (body : Body σ μ) (r : Render σ κ μ)
    (flows : Handles → Flow σ → Prop) : Prop :=
  Yields (fun fuel => perform setup fuel body r) fun o =>
    (∃ sink skip handles, o.2 = { r with sink, skip, lines := { r.lines with handles } }) ∧
      ∀ flow, o.1 = .ok flow → flows o.2.lines.handles flow

namespace BodyYields

variable {setup : Setup σ μ} {r : Render σ κ μ} {flows : Handles → Flow σ → Prop}

theorem done {flow : Flow σ} (h : flows r.lines.handles flow) :
    BodyYields setup (.done flow) r flows := by
  refine .pure ⟨⟨r.sink, r.skip, r.lines.handles, rfl⟩, ?_⟩
  rintro _ ⟨⟩
  exact h

theorem fail (err : RenderError) : BodyYields setup (.fail err) r flows :=
  .pure ⟨⟨r.sink, r.skip, r.lines.handles, rfl⟩, nofun⟩

theorem orFail {α : Type} {next : α → Body σ μ} (res : Except RenderError α)
    (h : ∀ a, BodyYields setup (next a) r flows) :
    BodyYields setup (Body.orFail next res) r flows := by
  cases res with
  | ok a => exact h a
  | error err => exact fail err

/-- Behind a change of the sink and the handles. -/
theorem behind (sink : Option κ) {handles : Handles} {body : Body σ μ}
    (h : BodyYields setup body { r with sink, lines := { r.lines with handles } } flows) :
    Yields (fun fuel => perform setup fuel body { r with sink, lines := { r.lines with handles } })
      fun o =>
        (∃ sink skip handles, o.2 = { r with sink, skip, lines := { r.lines with handles } }) ∧
        ∀ flow, o.1 = .ok flow → flows o.2.lines.handles flow :=
  h.mono fun _ ho => ho

theorem emitAll (chunks : List String) {flow : Flow σ} (h : flows r.lines.handles flow) :
    BodyYields setup (Body.emitAll chunks (.done flow)) r flows := by
  induction chunks generalizing r with
  | nil => exact done h
  | cons chunk rest ih =>
    rw [BodyYields]
    simp only [Body.emitAll, perform]
    -- a sink that refuses a chunk ends the body with its error
    rcases hemit : r.emit chunk with ⟨err | ⟨⟩, r'⟩ <;> obtain ⟨sink, rfl⟩ := exists_of_emit hemit
    · exact (fail (r := { r with sink }) err).behind sink
    · exact (ih (r := { r with sink }) h).behind sink

theorem build {specs : List FilterSpec} {next : Chain σ → Body σ μ}
    (h : ∀ c handles, setup.filters.InUse handles c →
      BodyYields setup (next c) { r with lines := { r.lines with handles } } flows) :
    BodyYields setup (.build specs (Body.orFail next)) r flows := by
  rw [BodyYields]
  simp only [perform]
  split
  · rename_i c handles hchain
    exact (h c handles (FilterRegistry.inUse_of_chain hchain)).behind r.sink
  · rename_i err hchain
    exact fail err

variable {c : Chain σ} {next : List String → Chain σ → Body σ μ}

theorem feed (hterm : setup.filters.Terminating) (huse : setup.filters.InUse r.lines.handles c)
    (chunk : String)
    (h : ∀ chunks c handles, setup.filters.InUse handles c →
      BodyYields setup (next chunks c) { r with lines := { r.lines with handles } } flows) :
    BodyYields setup (.feed c chunk next) r flows := by
  have hbody (fuel : Nat) : perform setup fuel (.feed c chunk next) r =
      ((Chain.Operation.accept chunk).run fuel r.lines.handles c).bind fun res =>
        perform setup fuel (next res.chunks res.chain)
          { r with lines := { r.lines with handles := res.handles } } := by
    rw [perform, Chain.Operation.run]
    cases c.accept fuel r.lines.handles chunk <;> rfl
  rw [BodyYields]
  simp only [hbody]
  exact (huse.operate hterm _).bind fun res hres =>
    (h res.chunks res.chain res.handles hres).behind r.sink

theorem finish (hterm : setup.filters.Terminating) (huse : setup.filters.InUse r.lines.handles c)
    (h : ∀ chunks c handles, setup.filters.InUse handles c →
      BodyYields setup (next chunks c) { r with lines := { r.lines with handles } } flows) :
    BodyYields setup (.finish c next) r flows := by
  have hbody (fuel : Nat) : perform setup fuel (.finish c next) r =
      (Chain.Operation.finish.run fuel r.lines.handles c).bind fun res =>
        perform setup fuel (next res.chunks res.chain)
          { r with lines := { r.lines with handles := res.handles } } := by
    rw [perform, Chain.Operation.run]
    cases c.finish fuel r.lines.handles <;> rfl
  rw [BodyYields]
  simp only [hbody]
  exact (huse.operate hterm _).bind fun res hres =>
    (h res.chunks res.chain res.handles hres).behind r.sink

end BodyYields

section Bodies

variable {setup : Setup σ μ} {name : String} {d : Directive σ μ}

/-- What `var` does with a value. -/
theorem emitValue_yields (hterm : setup.filters.Terminating) (path : Path) (value : Value)
    (chain : Option (Chain σ)) {r : Render σ κ μ}
    (huse : ∀ c, chain = some c → setup.filters.InUse r.lines.handles c) :
    BodyYields setup (Directive.emitValue path value chain) r fun handles flow =>
      (∀ path, flow ≠ .await path) ∧ flow.InUse setup.filters handles := by
  unfold Directive.emitValue
  split
  · exact .done ⟨nofun, huse⟩
  · exact .emitAll _ ⟨nofun, trivial⟩
  · refine .feed hterm (huse _ rfl) value.text fun fed c handles hfed => ?_
    refine .finish hterm hfed fun finished c handles hfinished => .emitAll _ ?_
    split
    · exact ⟨nofun, trivial⟩
    · exact ⟨nofun, hfinished⟩

/-- **A built-in directive that is called** moves on, or asks for a variable. -/
theorem call_yields (hdir : Directive.builtins.directive? name = some d) (args : List Argument)
    (r : Render σ κ μ) :
    BodyYields setup (d.call args) r fun _ flow =>
      flow = .advance ∨ ∃ path, flow = .await path := by
  rcases builtins_cases hdir with rfl | rfl | rfl
  · refine .orFail _ fun path => .build fun c handles huse => .done (.inr ⟨path, rfl⟩)
  · exact .done (.inl rfl)
  · exact .orFail _ fun path => .done (.inr ⟨path, rfl⟩)

/-- **A built-in directive that is resumed** does not ask again. -/
theorem resume_yields (hterm : setup.filters.Terminating)
    (hdir : Directive.builtins.directive? name = some d) (args : List Argument) (value : Value)
    (r : Render σ κ μ) :
    BodyYields setup (d.resume args value) r fun handles flow =>
      (∀ path, flow ≠ .await path) ∧ flow.InUse setup.filters handles := by
  rcases builtins_cases hdir with rfl | rfl | rfl
  · refine .orFail _ fun path => ?_
    split
    · exact emitValue_yields hterm path value none nofun
    · refine .build fun c handles huse => emitValue_yields hterm path value (some c) ?_
      rintro _ ⟨⟩
      exact huse
  · exact .done ⟨nofun, trivial⟩
  · rw [Directive.ifBlock]
    dsimp only
    split
    · exact .done ⟨nofun, trivial⟩
    · exact .pure ⟨⟨r.sink, r.skipBlock.skip, r.lines.handles, rfl⟩, by
        rintro _ ⟨⟩
        exact ⟨nofun, trivial⟩⟩

end Bodies

/-! ## Where a render stands

Two predicates over the turns taken so far: `Standing` between runs, where the one directive that
is not done is the one that the render waits for, and `OnTask` in a run, where it is the one that
the task is about. That each instruction is dispatched once is a list of numbers: the turns have
dispatched `0, 1, …` up to the cursor. -/

/-- Nothing was dispatched before everything in front of it was done: the render had no wait and no
pipe, and the directives that were not passed by had moved on. -/
def Punctual (template : Template) (taken : List (TakenTurn σ κ μ)) : Prop :=
  ∀ before t, before ++ [t] <+: taken → (t.dispatched? template).isSome →
    t.before.status = .running ∧ t.before.pipe = none ∧ DoneBut template none before

/-- The turns have dispatched the instructions in front of the cursor, one after the other. Since
the dispatched indices are `0, 1, …` up to the cursor, none is missing and none is there twice. -/
structure Numbered (setup : Setup σ μ) (taken : List (TakenTurn σ κ μ)) (cursor : Nat) : Prop where
  within : cursor ≤ setup.template.instructions.length
  dispatched : dispatched setup.template taken = List.range cursor
  prompt : Punctual setup.template taken

/-- Where a render stands between its runs. -/
structure Standing (setup : Setup σ μ) (taken : List (TakenTurn σ κ μ)) (r : Render σ κ μ) : Prop
    extends Numbered setup taken r.cursor, Halted setup r.status r.pipe where
  /-- before it starts nothing is undone -/
  idle : r.status = .idle → DoneBut setup.template none taken
  waiting : ∀ wait, r.status = .suspended wait →
    DoneBut setup.template (some wait.directive) taken
  inUse : ∀ p, r.pipe = some p → p.InUse setup.filters r.lines.handles

/-- A render that no sink was attached to, with any variables, streams and memory. -/
structure Render.Unstarted (r : Render σ κ μ) : Prop where
  status : r.status = .idle
  cursor : r.cursor = 0
  blocks : r.blocks = {}
  pipe : r.pipe = none

/-- The chain that a task goes on with is in use. -/
def Render.Task.InUse (filters : FilterRegistry σ) (r : Render σ κ μ) : Render.Task σ → Prop
  | .instruction | .resume .. => True
  | .flow _ onward => onward.InUse filters r.lines.handles
  | .drain _ => ∀ p, r.pipe = some p → p.InUse filters r.lines.handles

/-- Where a render stands in a run, before its next turn. -/
structure OnTask (setup : Setup σ μ) (taken : List (TakenTurn σ κ μ)) (task : Render.Task σ)
    (r : Render σ κ μ) : Prop extends Numbered setup taken r.cursor where
  onTurn : OnTurn setup task r
  undone : DoneBut setup.template task.busy? taken
  inUse : task.InUse setup.filters r

/-- How far a task is from the end of the template, in turns: an instruction takes at most five. -/
def distance (setup : Setup σ μ) (task : Render.Task σ) (r : Render σ κ μ) : Nat :=
  5 * (setup.template.instructions.length - r.cursor) +
    match task with
    | .instruction => 0
    | .drain _ => 1
    | .flow _ (.await _) => 4
    | .flow .. => 2
    | .resume .. => 3

section Standing

variable {setup : Setup σ μ} {taken : List (TakenTurn σ κ μ)} {r r' : Render σ κ μ}
  {t : TakenTurn σ κ μ} {cursor : Nat}

omit [FilterStage σ] [OutputSink κ] in
/-- A turn that dispatches nothing. -/
theorem Numbered.keep (h : Numbered setup taken cursor)
    (hdispatched : t.dispatched? setup.template = none) :
    Numbered setup (taken ++ [t]) cursor where
  within := h.within
  dispatched := by
    rw [dispatched_append, h.dispatched]
    simp [StreamingTemplate.dispatched, hdispatched]
  prompt before t' hprefix hsome := by
    rcases List.prefix_concat_iff.mp hprefix with hlast | hprefix
    · obtain ⟨-, heq⟩ := List.append_inj' hlast rfl
      cases heq
      rw [hdispatched] at hsome
      cases hsome
    · exact h.prompt before t' hprefix hsome

omit [FilterStage σ] [OutputSink κ] in
/-- A turn that dispatches the instruction at the cursor. -/
theorem Numbered.dispatch (h : Numbered setup taken cursor)
    (hdispatched : t.dispatched? setup.template = some cursor)
    (hlt : cursor < setup.template.instructions.length) (hstatus : t.before.status = .running)
    (hpipe : t.before.pipe = none) (hdone : DoneBut setup.template none taken) :
    Numbered setup (taken ++ [t]) (cursor + 1) where
  within := hlt
  dispatched := by
    rw [dispatched_append, h.dispatched, List.range_succ]
    simp [StreamingTemplate.dispatched, hdispatched]
  prompt before t' hprefix hsome := by
    rcases List.prefix_concat_iff.mp hprefix with hlast | hprefix
    · obtain ⟨rfl, heq⟩ := List.append_inj' hlast rfl
      obtain rfl := List.singleton_inj.mp heq
      exact ⟨hstatus, hpipe, hdone⟩
    · exact h.prompt before t' hprefix hsome

omit [OutputSink κ] in
/-- A render that has not started stands in front of the template. -/
theorem Standing.unstarted (h : r.Unstarted) : Standing setup [] r := by
  have hhalted : Halted setup r.status r.pipe := by
    rw [h.status, h.pipe]
    exact .of_none nofun nofun
  refine ⟨⟨by rw [h.cursor]; exact Nat.zero_le _, by rw [h.cursor]; rfl, ?_⟩, hhalted,
    fun _ => nofun, ?_, ?_⟩
  · intro before t hprefix
    simp at hprefix
  · rw [h.status]
    exact nofun
  · rw [h.pipe]
    exact nofun

/-! ## The steps of a run

A turn that goes on keeps `OnTask`, a turn that stops leads to `Standing`, and `distance` falls
with each turn that goes on. The distance of a task counts the turns that its directive may still
take, and five for each instruction that is left, which is the most that one takes. -/

omit [OutputSink κ] in
/-- A render that has failed. -/
theorem Standing.failed (h : Numbered setup taken r.cursor) (err : RenderError) :
    Standing setup taken (fail err r).2 := by
  have hhalted := (agreed_fail setup err r).toHalted
  have hpipe : (fail err r).2.pipe = none := dropPipe_pipe r
  obtain ⟨pipe, lines, hfail⟩ := fail_frame err r
  rw [hfail] at hhalted hpipe ⊢
  obtain rfl : pipe = none := hpipe
  exact ⟨h, hhalted, nofun, nofun, nofun⟩

/-- A render that has completed, also if its sink could not be closed. -/
theorem Standing.completed (h : Numbered setup taken r.cursor) (hpipe : r.pipe = none) :
    Standing setup taken (complete r).2 := by
  have hdone (sink : Option κ) : Standing setup taken { r with sink, status := .done } := by
    refine ⟨h, ?_, nofun, nofun, ?_⟩
    · rw [hpipe]
      exact .of_none nofun nofun
    · rw [hpipe]
      exact nofun
  rw [complete]
  split
  · exact hdone r.sink
  · split
    · exact hdone _
    · rename_i sink reason _
      have hnumbered : Numbered setup taken
        { r with sink := some sink, status := .done }.cursor := h
      exact .failed hnumbered _

variable {fuel : Nat} {task task' : Render.Task σ}
  (hbuiltin : setup.directives = Directive.builtins)
  (hterm : setup.filters.Terminating)

/-- What a body that has returned a flow has done. -/
theorem BodyYields.of_ok {body : Body σ μ} {flow : Flow σ} {flows : Handles → Flow σ → Prop}
    (h : BodyYields setup body r flows) (hbody : perform setup fuel body r = some (.ok flow, r')) :
    (∃ sink skip handles, r' = { r with sink, skip, lines := { r.lines with handles } }) ∧
      flows r'.lines.handles flow := by
  obtain ⟨hframe, hflow⟩ := Yields.of_some h (fun hle => perform_mono hle hbody)
  exact ⟨hframe, hflow flow rfl⟩

/-- What a body that has failed has done. -/
theorem BodyYields.of_error {body : Body σ μ} {err : RenderError} {flows : Handles → Flow σ → Prop}
    (h : BodyYields setup body r flows)
    (hbody : perform setup fuel body r = some (.error err, r')) :
    ∃ sink skip handles, r' = { r with sink, skip, lines := { r.lines with handles } } :=
  (Yields.of_some h (fun hle => perform_mono hle hbody)).1

omit [OutputSink κ] in
/-- **Executing an instruction** dispatches the one at the cursor. This holds for all results
alike, also where the instruction fails: it counts as dispatched when the cursor has moved behind
it. -/
theorem OnTask.dispatch (h : OnTask setup taken .instruction r) {instruction : Instruction}
    (hget : setup.template.get? r.cursor = some instruction) (result : Turn σ) (r' : Render σ κ μ) :
    Numbered setup (taken ++ [⟨.instruction, r, result, r'⟩]) (r.cursor + 1) := by
  refine h.toNumbered.dispatch ?_ (List.getElem?_eq_some_iff.mp hget).1 h.onTurn.status
    h.onTurn.pipe h.undone
  simp [TakenTurn.dispatched?, hget]

include hbuiltin hterm

/-- **A turn that goes on.** -/
theorem Render.Turned.onTask (ht : Turned setup fuel task r (.next task') r')
    (h : OnTask setup taken task r) :
    OnTask setup (taken ++ [⟨task, r, .next task', r'⟩]) task' r' := by
  have honTurn := ht.onTurn h.onTurn
  cases ht with
  | literalSkipped hget hskip =>
    refine ⟨h.dispatch hget _ _, honTurn, h.undone.keep ?_, trivial⟩
    simp [TakenTurn.called?, hget]
  | literalEmitted hget hskip hemit =>
    obtain ⟨sink, rfl⟩ := exists_of_emit hemit
    refine ⟨h.dispatch hget _ _, honTurn, h.undone.keep ?_, trivial⟩
    simp [TakenTurn.called?, hget]
  | passedBy hget hdir hreach hskip =>
    obtain ⟨blocks, skip, rfl⟩ := exists_of_reach hreach
    refine ⟨h.dispatch hget _ _, honTurn, h.undone.keep ?_, trivial⟩
    simp [TakenTurn.called?, hget]
  | called hget hdir hreach hskip hbody =>
    rw [hbuiltin] at hdir
    obtain ⟨blocks, skip, rfl⟩ := exists_of_reach hreach
    obtain ⟨⟨sink, skip', handles, rfl⟩, hflow⟩ := (call_yields hdir _ _).of_ok hbody
    refine ⟨h.dispatch hget _ _, honTurn, h.undone.call ?_, ?_⟩
    · simp [TakenTurn.called?, hget]
    · obtain rfl | ⟨path, rfl⟩ := hflow
      · trivial
      · trivial
  -- the turns of a directive that was called dispatch nothing; the last of them completes it
  | advanced => exact ⟨h.toNumbered.keep rfl, honTurn, h.undone.complete rfl rfl, trivial⟩
  | resolved hres => exact ⟨h.toNumbered.keep rfl, honTurn, h.undone.keep rfl, trivial⟩
  | piped hopen =>
    refine ⟨h.toNumbered.keep rfl, honTurn, h.undone.keep rfl, ?_⟩
    obtain ⟨streams, -, heq⟩ := Option.map_eq_some_iff.mp hopen
    cases heq
    rintro _ ⟨⟩
    exact h.inUse
  | draining =>
    refine ⟨h.toNumbered.keep rfl, honTurn, h.undone.keep rfl, ?_⟩
    rintro _ ⟨⟩ _ ⟨⟩
    exact h.inUse
  | resumed hresume hbody =>
    obtain ⟨name, args, d, hdir, rfl⟩ := exists_of_resumption hresume
    rw [hbuiltin] at hdir
    obtain ⟨⟨sink, skip, handles, rfl⟩, -, huse⟩ :=
      (resume_yields hterm hdir args _ _).of_ok hbody
    exact ⟨h.toNumbered.keep rfl, honTurn, h.undone.keep rfl, huse⟩
  -- a task that drains has a pipe
  | nothingToDrain hpipe =>
    have hpiped := h.onTurn.1
    rw [hpipe] at hpiped
    cases hpiped
  | closed hpipe hread hemit =>
    obtain ⟨sink, rfl⟩ := exists_of_emitAll hemit
    exact ⟨h.toNumbered.keep rfl, honTurn, h.undone.complete rfl rfl, trivial⟩

/-- **A turn that stops.** -/
theorem Render.Turned.standing {outcome : Except RenderError Unit}
    (ht : Turned setup fuel task r (.stop outcome) r') (h : OnTask setup taken task r) :
    Standing setup (taken ++ [⟨task, r, .stop outcome, r'⟩]) r' := by
  have hhalted := (ht.agreed h.onTurn).toHalted
  cases ht with
  | complete hget =>
    refine .completed (h.toNumbered.keep ?_) h.onTurn.pipe
    simp [TakenTurn.dispatched?, hget]
  | literalRefused hget hskip hemit =>
    obtain ⟨sink, rfl⟩ := exists_of_emit hemit
    refine .failed ?_ _
    exact h.dispatch hget _ _
  | unknown hget hdir =>
    refine .failed ?_ _
    exact h.dispatch hget _ _
  | unbalanced hget hdir hreach =>
    obtain ⟨blocks, skip, rfl⟩ := exists_of_reach hreach
    refine .failed ?_ _
    exact h.dispatch hget _ _
  | callFailed hget hdir hreach hskip hbody =>
    rw [hbuiltin] at hdir
    obtain ⟨blocks, skip, rfl⟩ := exists_of_reach hreach
    obtain ⟨sink, skip', handles, rfl⟩ := (call_yields hdir _ _).of_error hbody
    refine .failed ?_ _
    exact h.dispatch hget _ _
  | suspended hres =>
    refine ⟨h.toNumbered.keep rfl, hhalted, nofun, ?_, ?_⟩
    · rintro _ ⟨⟩
      exact h.undone.keep rfl
    · rw [show r.pipe = none from h.onTurn.1.pipe]
      exact nofun
  | consumed hopen =>
    refine .failed ?_ _
    exact h.toNumbered.keep rfl
  | resumeFailed hresume hbody =>
    obtain ⟨name, args, d, hdir, rfl⟩ := exists_of_resumption hresume
    rw [hbuiltin] at hdir
    obtain ⟨sink, skip, handles, rfl⟩ := (resume_yields hterm hdir args _ _).of_error hbody
    refine .failed ?_ _
    exact h.toNumbered.keep rfl
  | resumeUnknown hresume =>
    refine .failed ?_ _
    exact h.toNumbered.keep rfl
  | drainFailed hpipe hread =>
    refine .failed ?_ _
    exact h.toNumbered.keep rfl
  | @drained _ index pipe chunks pipe' lines r₁ hpipe hread hemit =>
    obtain ⟨sink, rfl⟩ := exists_of_emitAll hemit
    have huse := Yields.of_some ((h.inUse pipe hpipe).read hterm)
      (fun hle => Pipe.read_mono hle hread)
    refine ⟨h.toNumbered.keep rfl, hhalted, nofun, ?_, ?_⟩
    · intro wait hwait
      have hdirective : wait.directive = index := by
        obtain rfl := Status.suspended.inj hwait
        split <;> rfl
      rw [hdirective]
      exact h.undone.keep rfl
    · rintro _ ⟨⟩
      exact huse
  | drainRefused hpipe hread hchunks hemit =>
    obtain ⟨sink, rfl⟩ := exists_of_emitAll hemit
    refine .failed ?_ _
    exact h.toNumbered.keep rfl

/-- **Every turn comes closer to the end** of the template. -/
theorem Render.Turned.distance_lt (ht : Turned setup fuel task r (.next task') r')
    (h : OnTask setup taken task r) : distance setup task' r' < distance setup task r := by
  -- the cursor moves on by one, which counts five, and what a task adds to it is less
  have hdispatch {instruction : Instruction} (task' : Render.Task σ) {r' : Render σ κ μ}
      (hget : setup.template.get? r.cursor = some instruction)
      (hcursor : r'.cursor = r.cursor + 1) :
      distance setup task' r' < distance setup .instruction r := by
    have hlt := (List.getElem?_eq_some_iff.mp hget).1
    simp only [distance, hcursor]
    split <;> omega
  cases ht with
  | literalSkipped hget hskip => exact hdispatch _ hget rfl
  | literalEmitted hget hskip hemit =>
    obtain ⟨sink, rfl⟩ := exists_of_emit hemit
    exact hdispatch _ hget rfl
  | passedBy hget hdir hreach hskip =>
    obtain ⟨blocks, skip, rfl⟩ := exists_of_reach hreach
    exact hdispatch _ hget rfl
  | called hget hdir hreach hskip hbody =>
    rw [hbuiltin] at hdir
    obtain ⟨blocks, skip, rfl⟩ := exists_of_reach hreach
    obtain ⟨⟨sink, skip', handles, rfl⟩, -⟩ := (call_yields hdir _ _).of_ok hbody
    exact hdispatch _ hget rfl
  | advanced | resolved | piped | draining => simp [distance]
  | @resumed _ index value body flow _ hresume hbody =>
    obtain ⟨name, args, d, hdir, rfl⟩ := exists_of_resumption hresume
    rw [hbuiltin] at hdir
    obtain ⟨⟨sink, skip, handles, rfl⟩, hgoes, -⟩ :=
      (resume_yields hterm hdir args _ _).of_ok hbody
    cases flow with
    | await path => exact absurd rfl (hgoes path)
    | advance | forward | drain => simp [distance]
  | nothingToDrain hpipe => simp [distance]
  | closed hpipe hread hemit =>
    obtain ⟨sink, rfl⟩ := exists_of_emitAll hemit
    simp [distance, dropPipe_stays]

omit hbuiltin hterm in
theorem bodyTurn_isSome {body : Body σ μ} {flows : Handles → Flow σ → Prop}
    (h : BodyYields setup body r flows) (index : Nat) :
    ∃ fuel, (bodyTurn setup fuel index body r).isSome := by
  obtain ⟨fuel, o, hperform, -⟩ := Yields.returns h
  refine ⟨fuel, ?_⟩
  rw [bodyTurn, hperform]
  rfl

/-- **Every turn returns.** -/
theorem OnTask.turn_returns (h : OnTask setup taken task r) :
    ∃ fuel t r', Render.turn setup fuel task r = some (t, r') := by
  -- only the body of a directive and the reading of a pipe ask for fuel
  have hsome : ∃ fuel, (Render.turn setup fuel task r).isSome := by
    cases task with
    | instruction =>
      simp only [Render.turn, instructionTurn]
      split
      · exact ⟨0, rfl⟩
      · split
        · split
          · exact ⟨0, rfl⟩
          · split <;> exact ⟨0, rfl⟩
        · rename_i name args hget
          rcases hdir : setup.directives.directive? name with _ | d
          · refine ⟨0, ?_⟩
            rw [directiveTurn, hdir]
            rfl
          · rcases hreach : reach d r.cursor { r with cursor := r.cursor + 1 } with
              ⟨err | frame, r₁⟩
            · refine ⟨0, ?_⟩
              rw [directiveTurn_of_error hdir hreach]
              rfl
            · simp only [directiveTurn_of_ok hdir hreach]
              split
              · exact ⟨0, rfl⟩
              · rw [hbuiltin] at hdir
                exact bodyTurn_isSome (call_yields hdir args r₁) r.cursor
    | flow index flow => exact ⟨0, rfl⟩
    | resume index value =>
      simp only [Render.turn]
      split
      · rename_i body hresume
        obtain ⟨name, args, d, hdir, rfl⟩ := exists_of_resumption hresume
        rw [hbuiltin] at hdir
        exact bodyTurn_isSome (resume_yields hterm hdir args value r) index
      · exact ⟨0, rfl⟩
    | drain index =>
      simp only [Render.turn, drainTurn]
      split
      · exact ⟨0, rfl⟩
      · rename_i pipe hpipe
        obtain ⟨fuel, res, hread, -⟩ := ((h.inUse pipe hpipe).read hterm).returns
        refine ⟨fuel, ?_⟩
        rw [hread]
        rfl
  obtain ⟨fuel, hsome⟩ := hsome
  obtain ⟨⟨t, r'⟩, hturn⟩ := Option.isSome_iff_exists.mp hsome
  exact ⟨fuel, t, r', hturn⟩

omit hbuiltin hterm [OutputSink κ] in
/-- What happens to a pipe and the lines between two runs leaves the render where it stands. -/
theorem Standing.repiped {pipe : Option (Pipe σ)} {lines : Lines} (h : Standing setup taken r)
    (hpipe : pipe.isSome = r.pipe.isSome)
    (huse : ∀ p, pipe = some p → p.InUse setup.filters lines.handles) (clock : Instant) :
    Standing setup taken { r with pipe, lines, clock } :=
  ⟨h.toNumbered, ⟨h.stopped, hpipe.trans h.piped, h.directive⟩, h.idle, h.waiting, huse⟩

omit hbuiltin hterm [OutputSink κ] in
/-- Nothing that happens outside moves the render. -/
theorem Standing.outside (h : Standing setup taken r) (move : OutsideMove) :
    Standing setup taken (move.apply r) := by
  cases move with
  | write stream chunk =>
    rw [OutsideMove.apply]
    split
    · exact h.repiped rfl (by exact h.inUse) r.clock
    · exact h
  | send slot output =>
    rw [OutsideMove.apply, Render.send]
    split
    · exact h
    · rename_i pipe hpipe
      refine h.repiped (by rw [hpipe]; rfl) ?_ r.clock
      rintro _ ⟨⟩
      exact (h.inUse pipe hpipe).send slot output
  | release slot => exact h.repiped rfl (fun p hp => (h.inUse p hp).release slot) r.clock
  | copy source target =>
    exact h.repiped rfl (fun p hp => (h.inUse p hp).copy source target) r.clock
  | createStream | endStream | tick => exact h.repiped rfl (by exact h.inUse) _

/-- Where a render stands, along every chronicle. -/
def standing : ChronicleInvariant setup κ where
  rest := Standing setup
  turn := OnTask setup
  waits h _ _ := ⟨h.toNumbered, h.toHalted, h.idle, h.waiting, h.inUse⟩
  sink h _ := ⟨h.toNumbered, h.toHalted, h.idle, h.waiting, h.inUse⟩
  skip h := ⟨h.toNumbered, h.toHalted, h.idle, h.waiting, h.inUse⟩
  report {taken r path index since} h hstatus now := by
    have hpipe : r.pipe = none := h.pipe_eq_none (by rw [hstatus]; rfl)
    refine ⟨h.toNumbered, ⟨nofun, by rw [hpipe]; rfl, ?_⟩, nofun, ?_, h.inUse⟩
    · rintro _ ⟨⟩
      exact h.directive (.variable path index since) hstatus
    · rintro _ ⟨⟩
      exact h.waiting (.variable path index since) hstatus
  outside h move := h.outside move
  wait {taken r side event r'} h hwait := by
    rw [waitSide?] at hwait
    split at hwait
    · cases hwait
    · rename_i pipe hpipe
      obtain ⟨⟨event', pipe', lines⟩, hside, heq⟩ := Option.map_eq_some_iff.mp hwait
      obtain ⟨-, rfl⟩ := Prod.mk.inj heq
      refine h.repiped (by rw [hpipe]; rfl) ?_ r.clock
      rintro _ ⟨⟩
      cases side with
      | source => exact (h.inUse pipe hpipe).waitSource hside
      | chain => exact (h.inUse pipe hpipe).waitChain hside
  pass {taken r pipe fuel chunk passed} h hpipe hpass := by
    refine h.repiped (by rw [hpipe]; rfl) ?_ r.clock
    rintro _ ⟨⟩
    exact Yields.of_some ((h.inUse pipe hpipe).pass hterm chunk)
      (fun hle => Pipe.pass_mono hle hpass)
  fail h err := .failed h.toNumbered err
  attach h hstatus _ :=
    ⟨h.toNumbered, ⟨rfl, h.pipe_eq_none (by rw [hstatus]; rfl)⟩, h.idle hstatus, trivial⟩
  advance h hstatus := absurd hstatus h.stopped
  drain h hstatus := by
    obtain ⟨wait, hwait, rfl⟩ := Status.suspended_of_piping hstatus
    exact ⟨h.toNumbered, h.piping hstatus, h.waiting wait hwait, h.inUse⟩
  resume h hstatus _ :=
    ⟨h.toNumbered, ⟨⟨rfl, h.pipe_eq_none (by rw [hstatus]; rfl)⟩, h.directive _ hstatus⟩,
      h.waiting _ hstatus, trivial⟩
  next ht h := ht.onTask hbuiltin hterm h
  stop ht h := ht.standing hbuiltin hterm h

/-- Every call on a render that stands somewhere returns. -/
theorem standing_ends : (standing (κ := κ) hbuiltin hterm).Ends (distance setup) where
  turn h := by
    obtain ⟨fuel, t, r', hturn⟩ := h.turn_returns hbuiltin hterm
    refine ⟨fuel, t, r', hturn, ?_⟩
    rintro task' rfl
    exact (turn_turned hturn).distance_lt hbuiltin hterm h
  pass h hpipe chunk := by
    obtain ⟨fuel, passed, hpass, -⟩ := ((h.inUse _ hpipe).pass hterm chunk).returns
    exact ⟨fuel, passed, hpass⟩

end Standing

/-- **Every call ends, and no instruction runs twice.** Take the built-in directives and filters
whose chains always come to an end, and whatever the host has done with a render of any template but
going back by itself. Then every call returns, and dispatches exactly the instructions from the
cursor that it finds to the cursor that it leaves, in order, so no more than are left of the
template. All calls together have dispatched the instructions in front of the cursor, each once and
in order. And whenever one is dispatched, the render neither waits nor has a pipe, and every
directive that was reached before and not passed by has moved on, or has finished its pipe. -/
theorem dispatched_once {setup : Setup σ μ} (hbuiltin : setup.directives = Directive.builtins)
    (hterm : setup.filters.Terminating) {memory : μ} {lines : Lines} {clock : Instant}
    {record : List (HostCall κ × Except RenderError Unit)} {taken : List (TakenTurn σ κ μ)}
    {r : Render σ κ μ} (h : Chronicle setup (fresh memory lines clock) record taken r) :
    (∀ call : HostCall κ, ∃ fuel outcome r', call.run setup fuel r = some (outcome, r')) ∧
    (∀ (call : HostCall κ) fuel outcome r', call.leavesBlocks = true →
      call.run setup fuel r = some (outcome, r') →
      r.cursor ≤ r'.cursor ∧
      dispatched setup.template (call.turns setup fuel r) =
        List.range' r.cursor (r'.cursor - r.cursor) ∧
      (dispatched setup.template (call.turns setup fuel r)).length ≤
        setup.template.instructions.length - r.cursor) ∧
    dispatched setup.template taken = List.range r.cursor ∧
    ∀ before t, before ++ [t] <+: taken → (t.dispatched? setup.template).isSome →
      t.before.status = .running ∧ t.before.pipe = none ∧
        ∀ j ∈ called setup.template before, j ∈ completed before := by
  have hstanding : Standing setup taken r :=
    (standing hbuiltin hterm).chronicle h (.unstarted ⟨rfl, rfl, rfl, rfl⟩)
  refine ⟨?_, ?_, hstanding.dispatched, ?_⟩
  · intro call
    obtain ⟨fuel, ⟨outcome, r'⟩, hcall⟩ := (standing_ends hbuiltin hterm).hostCall hstanding call
    exact ⟨fuel, outcome, r', hcall⟩
  · intro call fuel outcome r' hleaves hcall
    have hafter : Standing setup (taken ++ call.turns setup fuel r) r' :=
      (standing hbuiltin hterm).hostCall hstanding hleaves hcall
    have hrange := hafter.dispatched
    rw [dispatched_append, hstanding.dispatched] at hrange
    have hlength := congrArg List.length hrange
    rw [List.length_append, List.length_range, List.length_range] at hlength
    have hwithin := hafter.within
    refine ⟨by omega, ?_, by omega⟩
    -- what is new is what is behind the instructions dispatched before
    have hsplit : List.range r'.cursor =
        List.range r.cursor ++ List.range' r.cursor (r'.cursor - r.cursor) := by
      have happend := List.range'_append_1 (s := 0) (m := r.cursor) (n := r'.cursor - r.cursor)
      rw [Nat.zero_add, show r.cursor + (r'.cursor - r.cursor) = r'.cursor by omega] at happend
      rw [List.range_eq_range', List.range_eq_range', happend]
    exact List.append_cancel_left (hrange.trans hsplit)
  · intro before t hprefix hsome
    obtain ⟨hstatus, hpipe, hdone⟩ := hstanding.prompt before t hprefix hsome
    exact ⟨hstatus, hpipe, fun j hj => hdone j hj nofun⟩

/-- A variable behind a condition, and a text. -/
def Setup.guarded : Setup TextFilter Unit where
  template := ⟨[.directive "if" [.path ⟨["shown"]⟩], .directive "var" [.path ⟨["x"]⟩],
    .directive "endif" [], .literal "."]⟩
  directives := Directive.builtins
  filters := TextFilter.registry id

/-- The render waits for the condition, is given a stream that it pipes, and goes on when the stream
ends. -/
theorem dispatched_once_guarded : ∃ taken, ∃ r r' : Render TextFilter Collector Unit,
    Chronicle Setup.guarded (fresh ())
      [(.attach {}, .ok ()), (.set ⟨["x"]⟩ (.stream 0), .ok ()),
        (.set ⟨["shown"]⟩ (.bool true), .ok ())] taken r ∧
    r.status = .suspended (.stream 1) ∧
    called Setup.guarded.template taken = [0, 1] ∧ completed taken = [0] ∧
    dispatched Setup.guarded.template taken = List.range 2 ∧
    HostCall.run Setup.guarded 9 .pump r = some (.ok (), r') ∧ r'.status = .done ∧
    dispatched Setup.guarded.template (HostCall.turns Setup.guarded 9 .pump r) =
      List.range' 2 (4 - 2) := by
  have hcreated : Chronicle Setup.guarded (fresh () : Render TextFilter Collector Unit) [] [] _ :=
    Chronicle.start.outside .createStream
  have hattached := @Chronicle.call _ _ _ _ _ _ _ _ _ _ (.attach {}) 9 (.ok ()) _ hcreated rfl rfl
  have hset := @Chronicle.call _ _ _ _ _ _ _ _ _ _ (.set ⟨["x"]⟩ (.stream 0)) 9 (.ok ()) _
    hattached rfl rfl
  have hshown := @Chronicle.call _ _ _ _ _ _ _ _ _ _ (.set ⟨["shown"]⟩ (.bool true)) 9 (.ok ()) _
    hset rfl rfl
  have hended := (hshown.outside (.write 0 "a")).outside (.endStream 0)
  obtain ⟨-, hcalls, hdispatched, -⟩ := dispatched_once rfl TextFilter.terminating hended
  have hpump := hcalls .pump 9 (.ok ())
  exact ⟨_, _, _, hended, rfl, rfl, rfl, hdispatched, rfl, rfl, (hpump _ rfl rfl).2.1⟩

end StreamingTemplate

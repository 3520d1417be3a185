import StreamingTemplate.Proofs.Engine.Blocks
import StreamingTemplate.Proofs.Engine.OnceOnly
import StreamingTemplate.Proofs.Engine.Recovery

/-!
# Defects of a template

With the built-in directives it can be told from a template alone where its structure fails: at the
first name that is not known, or where more blocks have been closed than opened. Names are looked up
and blocks opened and closed whether output is suppressed or not, and no body touches the blocks, so
whatever the variables are, the open blocks are those that the instructions before the cursor have
opened and not closed (`Render.Counted`).

* `Template.Defect` — what is wrong at an index, and the error that says so;
* `Setup.Own` — the errors that directives and filters raise, which are none of those;
* `Turned.intact`, `Turned.stopped` — a turn keeps the count, and stops with the error of a defect
  only where one is;
* `run_defect` — a run that nothing else stops comes to the first defect;
* `Chronicle.own` — without a defect no such error is returned, whatever the host does.

`defects_found` puts the last two together.
-/

namespace StreamingTemplate

open Render

variable {σ κ μ : Type}

/-! ## Defects

A defect is read off the template alone, without a run: an unknown name, or an index up to which
more blocks were closed than opened. Of the errors that a render can end with, `isStructural`
picks those that say so; all others depend on the data. -/

/-- Whether an error blames the structure of the template. -/
def RenderError.isStructural : RenderError → Bool
  | .unknownDirective .. | .unbalancedBlock _ => true
  | .unknownFilter _ | .malformedPath .. | .unresolvedVariable .. | .invalidFilterArgs ..
  | .missingArgument .. | .filterStalled | .streamConsumed _ | .invalidInstruction ..
  | .templateJson | .sink _ => false

/-- Whether an instruction is the directive of a name. -/
def Instruction.isNamed (name : String) : Instruction → Bool
  | .literal _ => false
  | .directive name' _ => name' == name

namespace Template

/-- How many of the first instructions are the directive of a name. -/
def count (template : Template) (name : String) (first : Nat) : Nat :=
  (template.instructions.take first).countP (Instruction.isNamed name)

/-- What is wrong with the structure of a template at an index. -/
inductive Defect (template : Template) (index : Nat) : RenderError → Prop where
  /-- a directive that is not built in -/
  | unknown {name args} (hget : template.get? index = some (.directive name args))
      (hname : name ∉ ["if", "endif", "var"]) :
      Defect template index (.unknownDirective name index)
  /-- up to this index more blocks are closed than opened -/
  | unbalanced (hlt : index < template.size)
      (hcount : template.count "if" (index + 1) < template.count "endif" (index + 1)) :
      Defect template index (.unbalancedBlock index)

/-- The first index at which something is wrong with the structure. -/
structure FirstDefect (template : Template) (index : Nat) (err : RenderError) : Prop where
  here : template.Defect index err
  earlier : ∀ before < index, ∀ err, ¬ template.Defect before err

variable {template : Template} {index : Nat} {instruction : Instruction}

/-- A defect lies in the template. -/
theorem Defect.lt {err : RenderError} (h : template.Defect index err) : index < template.size := by
  cases h with
  | unknown hget => exact (List.getElem?_eq_some_iff.mp hget).1
  | unbalanced hlt => exact hlt

/-- An instruction more is counted if it has the name. -/
theorem count_succ (name : String) (hget : template.get? index = some instruction) :
    template.count name (index + 1) =
      template.count name index + if instruction.isNamed name then 1 else 0 := by
  rw [count, count, List.take_add_one, show template.instructions[index]? = _ from hget,
    List.countP_append]
  simp [List.countP_cons]

end Template

/-- An error that does not blame the structure of the template, or that a filter raises. -/
def Setup.Own (setup : Setup σ μ) (err : RenderError) : Prop :=
  err.isStructural = true → ∃ spec, setup.filters.stage spec = .error err

/-- An error that blames nothing in the structure is always a directive's or a filter's own. -/
theorem Setup.Own.of_not {setup : Setup σ μ} {err : RenderError} (h : err.isStructural = false) :
    setup.Own err := by
  intro hstructural
  rw [h] at hstructural
  cases hstructural

section Errors

variable {setup : Setup σ μ} {name : String} {d : Directive σ μ}

/-- What a body hands on is its own. -/
theorem Setup.HandedOn.own (err : RenderError) (h : setup.HandedOn err) : setup.Own err := by
  rcases h with ⟨reason, rfl⟩ | ⟨path, fault, rfl⟩ | hfilter
  · exact .of_not rfl
  · exact .of_not rfl
  · exact fun _ => hfilter

theorem builtins_own (hdir : Directive.builtins.directive? name = some d) :
    d.HandsOn setup.Own False :=
  builtins_handOn (fun _ _ => .of_not rfl) hdir

end Errors

/-! ## The names of the built-in directives

Only three names are known, and each belongs to one directive: `if` opens a block, `endif` closes
one, and `var` does neither. This is what the count of `if` and `endif` rests on. -/

section Names

variable {name : String} {d : Directive σ μ}

/-- The built-in directives by name. -/
theorem builtins_named (h : Directive.builtins.directive? name = some d) :
    name = "var" ∧ d = Directive.var ∨ name = "endif" ∧ d = Directive.endIf ∨
      name = "if" ∧ d = Directive.ifBlock := by
  unfold Directive.builtins DirectiveRegistry.register at h
  dsimp only at h
  split at h
  · rename_i hname
    exact .inl ⟨hname, (Option.some.inj h).symm⟩
  · split at h
    · rename_i hname
      exact .inr (.inl ⟨hname, (Option.some.inj h).symm⟩)
    · split at h
      · rename_i hname
        exact .inr (.inr ⟨hname, (Option.some.inj h).symm⟩)
      · cases h

theorem builtins_none (h : (Directive.builtins : DirectiveRegistry σ μ).directive? name = none) :
    name ∉ ["if", "endif", "var"] := by
  intro hname
  simp only [List.mem_cons, List.not_mem_nil, or_false] at hname
  rcases hname with rfl | rfl | rfl <;> cases h

/-- What a built-in directive is called is one of three names. -/
theorem builtins_mem (h : Directive.builtins.directive? name = some d) :
    name ∈ ["if", "endif", "var"] := by
  rcases builtins_named h with ⟨rfl, -⟩ | ⟨rfl, -⟩ | ⟨rfl, -⟩ <;> decide

end Names

/-! ## The count of open blocks

The depth of open blocks is the number of `if` before the cursor less that of `endif`. It is kept
by every step because bodies of built-in directives leave the blocks alone, and because skipping
does not keep a block from being opened and closed. -/

namespace Render

/-- The open blocks are those that the instructions before the cursor have opened and not closed. -/
def Counted (template : Template) (r : Render σ κ μ) : Prop :=
  r.blocks.depth + template.count "endif" r.cursor = template.count "if" r.cursor

variable {setup : Setup σ μ} (hbuiltin : setup.directives = Directive.builtins) {fuel : Nat}
  {task : Task σ} {r r' : Render σ κ μ} {name : String} {args : List Argument}

/-- The count depends on the cursor and the blocks only. -/
theorem Counted.of_eq {template : Template} (h : r.Counted template)
    (hcursor : r'.cursor = r.cursor) (hblocks : r'.blocks = r.blocks) : r'.Counted template := by
  rwa [Counted, hcursor, hblocks]

/-- Behind a literal the count is what it was. -/
theorem Counted.literal {text : String} (h : r.Counted setup.template)
    (hget : setup.template.get? r.cursor = some (.literal text)) :
    Counted setup.template { r with cursor := r.cursor + 1 } := by
  rw [Counted] at h ⊢
  rw [setup.template.count_succ "if" hget, setup.template.count_succ "endif" hget]
  simpa [Instruction.isNamed] using h

/-- Where the count holds behind an instruction that is known, nothing is wrong with this one: a
depth is never negative, so no more blocks have been closed than opened. -/
theorem Counted.no_defect {index : Nat} (h : r.Counted setup.template)
    (hcursor : r.cursor = index + 1)
    (hknown : ∀ name args, setup.template.get? index = some (.directive name args) →
      name ∈ ["if", "endif", "var"]) (err : RenderError) : ¬ setup.template.Defect index err := by
  rintro (⟨hget, hname⟩ | ⟨hlt, hcount⟩)
  · exact hname (hknown _ _ hget)
  · rw [Counted, hcursor] at h
    omega

/-- At the cursor at most one thing is wrong. -/
theorem Counted.defect_unique (h : r.Counted setup.template) {err err' : RenderError}
    (hdefect : setup.template.Defect r.cursor err)
    (hdefect' : setup.template.Defect r.cursor err') :
    err = err' := by
  -- a directive that is not known closes nothing
  have hnot {name : String} {args : List Argument}
      (hget : setup.template.get? r.cursor = some (.directive name args))
      (hname : name ∉ ["if", "endif", "var"]) :
      ¬ setup.template.count "if" (r.cursor + 1) < setup.template.count "endif" (r.cursor + 1) := by
    have hendif : name ≠ "endif" := by
      rintro rfl
      simp at hname
    rw [Counted] at h
    rw [setup.template.count_succ "if" hget, setup.template.count_succ "endif" hget]
    simp only [Instruction.isNamed, beq_iff_eq, if_neg hendif]
    omega
  cases hdefect with
  | unknown hget hname =>
    cases hdefect' with
    | unknown hget' hname' =>
      cases hget.symm.trans hget'
      rfl
    | unbalanced hlt hcount => exact absurd hcount (hnot hget hname)
  | unbalanced hlt hcount =>
    cases hdefect' with
    | unknown hget hname => exact absurd hcount (hnot hget hname)
    | unbalanced => rfl

/-- Reaching a built-in directive keeps the count, or there is nothing for it to close. -/
theorem reach_cases {d : Directive σ μ} {res : Except RenderError Nat}
    (hdir : Directive.builtins.directive? name = some d)
    (hget : setup.template.get? r.cursor = some (.directive name args))
    (hreach : reach d r.cursor { r with cursor := r.cursor + 1 } = (res, r'))
    (h : r.Counted setup.template) :
    r'.cursor = r.cursor + 1 ∧
      ((∃ frame, res = .ok frame) ∧ r'.Counted setup.template ∨
        res = .error (.unbalancedBlock r.cursor) ∧
          setup.template.Defect r.cursor (.unbalancedBlock r.cursor)) := by
  have hif := setup.template.count_succ "if" hget
  have hendif := setup.template.count_succ "endif" hget
  have hlt := (List.getElem?_eq_some_iff.mp hget).1
  rw [Counted] at h
  -- `var` changes neither side of the count, `endif` and `if` one side each and the depth
  rcases builtins_named hdir with ⟨rfl, rfl⟩ | ⟨rfl, rfl⟩ | ⟨rfl, rfl⟩ <;>
    simp [Instruction.isNamed] at hif hendif
  · rw [show reach Directive.var r.cursor { r with cursor := r.cursor + 1 } =
      (.ok 0, { r with cursor := r.cursor + 1 }) from rfl] at hreach
    obtain ⟨rfl, rfl⟩ := Prod.mk.inj hreach
    refine ⟨rfl, .inl ⟨⟨0, rfl⟩, ?_⟩⟩
    rw [Counted]
    dsimp only
    omega
  · rw [show reach Directive.endIf r.cursor { r with cursor := r.cursor + 1 } =
      closeBlock r.cursor { r with cursor := r.cursor + 1 } from rfl] at hreach
    cases hframes : r.blocks.frames with
    | nil =>
      rw [closeBlock_of_nil (by exact hframes)] at hreach
      obtain ⟨rfl, rfl⟩ := Prod.mk.inj hreach
      have hdepth : r.blocks.depth = 0 := by rw [BlockStack.depth, hframes, List.length_nil]
      exact ⟨rfl, .inr ⟨rfl, .unbalanced hlt (by omega)⟩⟩
    | cons frame rest =>
      rw [closeBlock_of_cons (by exact hframes)] at hreach
      obtain ⟨rfl, rfl⟩ := Prod.mk.inj hreach
      have hdepth : r.blocks.depth = rest.length + 1 := by
        rw [BlockStack.depth, hframes, List.length_cons]
      refine ⟨rfl, .inl ⟨⟨frame, rfl⟩, ?_⟩⟩
      rw [Counted, BlockStack.depth]
      dsimp only
      omega
  · rw [show reach Directive.ifBlock r.cursor { r with cursor := r.cursor + 1 } =
      (.ok 0, { r with cursor := r.cursor + 1, blocks := r.blocks.push r.cursor }) from rfl]
      at hreach
    obtain ⟨rfl, rfl⟩ := Prod.mk.inj hreach
    refine ⟨rfl, .inl ⟨⟨0, rfl⟩, ?_⟩⟩
    rw [Counted, BlockStack.depth_push]
    dsimp only
    omega

/-- **A built-in directive that is reached** keeps the count, and nothing is wrong with it. -/
theorem reach_counted {d : Directive σ μ} {frame : Nat}
    (hdir : Directive.builtins.directive? name = some d)
    (hget : setup.template.get? r.cursor = some (.directive name args))
    (hreach : reach d r.cursor { r with cursor := r.cursor + 1 } = (.ok frame, r'))
    (h : r.Counted setup.template) :
    r'.cursor = r.cursor + 1 ∧ r'.Counted setup.template ∧
      ∀ err, ¬ setup.template.Defect r.cursor err := by
  obtain ⟨hcursor, ⟨-, hcounted⟩ | ⟨herr, -⟩⟩ := reach_cases hdir hget hreach h
  · refine ⟨hcursor, hcounted, hcounted.no_defect hcursor ?_⟩
    intro name args hget'
    cases hget.symm.trans hget'
    exact builtins_mem hdir
  · cases herr

/-- **A built-in directive that cannot be reached** is a defect. -/
theorem reach_defect {d : Directive σ μ} {err : RenderError}
    (hdir : Directive.builtins.directive? name = some d)
    (hget : setup.template.get? r.cursor = some (.directive name args))
    (hreach : reach d r.cursor { r with cursor := r.cursor + 1 } = (.error err, r'))
    (h : r.Counted setup.template) :
    r'.cursor = r.cursor + 1 ∧ setup.template.Defect r.cursor err := by
  obtain ⟨hcursor, ⟨⟨frame, hok⟩, -⟩ | ⟨herr, hdefect⟩⟩ := reach_cases hdir hget hreach h
  · cases hok
  · cases herr
    exact ⟨hcursor, hdefect⟩

/-! ## The steps of a run

Inside of a run the count is kept from turn to turn. The turns split by how they stop: at a
defect, which is then the first there is, or for a reason of the data, and then there is no
defect at the cursor. -/

/-- Where a render is in a run that has come to no defect. -/
structure Intact (setup : Setup σ μ) (task : Task σ) (r : Render σ κ μ) : Prop where
  counted : r.Counted setup.template
  /-- a task is done on behalf of a directive that was passed -/
  passed : ∀ index, task.busy? = some index → index < r.cursor ∧ ∃ d, setup.DirectiveAt index d

/-- Before an instruction nothing is done on behalf of a directive. -/
theorem Counted.intact (h : r.Counted setup.template) : Intact setup .instruction r where
  counted := h
  passed := by rintro _ ⟨⟩

variable [FilterStage σ] [OutputSink κ]

include hbuiltin

/-- **A turn that goes on** keeps the count, and does not pass a defect. -/
theorem Turned.intact {task' : Task σ} (ht : Turned setup fuel task r (.next task') r')
    (h : Intact setup task r) :
    Intact setup task' r' ∧ (r'.cursor = r.cursor ∨
      r'.cursor = r.cursor + 1 ∧ ∀ err, ¬ setup.template.Defect r.cursor err) := by
  cases ht with
  | literalSkipped hget hskip =>
    have hcounted := h.counted.literal hget
    exact ⟨Counted.intact hcounted, .inr ⟨rfl, hcounted.no_defect rfl (by simp [hget])⟩⟩
  | literalEmitted hget hskip hemit =>
    obtain ⟨sink, rfl⟩ := exists_of_emit hemit
    have hcounted := h.counted.literal hget
    exact ⟨Counted.intact hcounted, .inr ⟨rfl, hcounted.no_defect rfl (by simp [hget])⟩⟩
  | passedBy hget hdir hreach hskip =>
    rw [hbuiltin] at hdir
    obtain ⟨hcursor, hcounted, hnone⟩ := reach_counted hdir hget hreach h.counted
    exact ⟨Counted.intact hcounted, .inr ⟨hcursor, hnone⟩⟩
  | called hget hdir hreach hskip hbody =>
    have hat : ∃ d, setup.DirectiveAt r.cursor d := ⟨_, _, _, hget, hdir⟩
    rw [hbuiltin] at hdir
    obtain ⟨hcursor, hcounted, hnone⟩ := reach_counted hdir hget hreach h.counted
    obtain ⟨hcursor', hblocks, -⟩ := ((builtins_own hdir).call _).perform Setup.HandedOn.own hbody
    refine ⟨⟨hcounted.of_eq hcursor' hblocks, ?_⟩, .inr ⟨hcursor'.trans hcursor, hnone⟩⟩
    rintro _ ⟨⟩
    exact ⟨Nat.lt_of_lt_of_eq (Nat.lt_succ_self _) (hcursor'.trans hcursor).symm, hat⟩
  | advanced | nothingToDrain => exact ⟨Counted.intact h.counted, .inl rfl⟩
  | resolved | piped | draining => exact ⟨⟨h.counted, h.passed⟩, .inl rfl⟩
  | resumed hresume hbody =>
    obtain ⟨name, args, d, hdir, rfl⟩ := exists_of_resumption hresume
    rw [hbuiltin] at hdir
    obtain ⟨hcursor, hblocks, -⟩ :=
      ((builtins_own hdir).resume _ _).perform Setup.HandedOn.own hbody
    refine ⟨⟨h.counted.of_eq hcursor hblocks, ?_⟩, .inl hcursor⟩
    rw [hcursor]
    exact h.passed
  | @closed _ index pipe chunks pipe' lines r₁ hpipe hread hemit =>
    obtain ⟨sink, rfl⟩ := exists_of_emitAll hemit
    obtain ⟨hcursor, hblocks⟩ := dropPipe_stays { r with lines, pipe := some pipe', sink }
    exact ⟨Counted.intact (h.counted.of_eq hcursor hblocks), .inl hcursor⟩

/-- **A turn that stops** has come to a defect, or there is none at the cursor and an error that
it stops with is a directive's or a filter's own. That there is none is said of instructions
only, since every other task belongs to a directive that was passed already. -/
theorem Turned.stopped {outcome : Except RenderError Unit}
    (ht : Turned setup fuel task r (.stop outcome) r') (h : Intact setup task r) :
    (∃ err, setup.template.Defect r.cursor err ∧ outcome = .error err ∧ r'.cursor = r.cursor + 1 ∧
      r'.status = .failed) ∨
    (∀ err, outcome = .error err → setup.Own err) ∧
      (task = .instruction → ∀ err, ¬ setup.template.Defect r.cursor err) := by
  cases ht with
  | complete hget =>
    right
    refine ⟨?_, fun _ err => ?_⟩
    · intro err herr
      obtain ⟨reason, rfl⟩ := complete_sinkError herr
      exact .of_not rfl
    · have hlength := List.getElem?_eq_none_iff.mp hget
      rintro (⟨hget', -⟩ | ⟨hlt, -⟩)
      · cases hget.symm.trans hget'
      · exact absurd hlt (Nat.not_lt.mpr hlength)
  | literalRefused hget hskip hemit =>
    right
    obtain ⟨reason, rfl⟩ := emit_sinkError hemit
    refine ⟨?_, fun _ => (h.counted.literal hget).no_defect rfl (by simp [hget])⟩
    rintro _ ⟨⟩
    exact .of_not rfl
  | unknown hget hdir =>
    rw [hbuiltin] at hdir
    obtain ⟨hfailed, hcursor, -⟩ := fail_failed (.unknownDirective _ r.cursor) _
    exact .inl ⟨_, .unknown hget (builtins_none hdir), rfl, hcursor, hfailed⟩
  | unbalanced hget hdir hreach =>
    rw [hbuiltin] at hdir
    obtain ⟨hcursor, hdefect⟩ := reach_defect hdir hget hreach h.counted
    exact .inl ⟨_, hdefect, rfl, (fail_failed _ _).2.1.trans hcursor, (fail_failed _ _).1⟩
  | callFailed hget hdir hreach hskip hbody =>
    rw [hbuiltin] at hdir
    obtain ⟨-, -, hnone⟩ := reach_counted hdir hget hreach h.counted
    refine .inr ⟨?_, fun _ => hnone⟩
    rintro _ ⟨⟩
    exact (((builtins_own hdir).call _).perform Setup.HandedOn.own hbody).2.2 _ rfl
  | suspended | drained => exact .inr ⟨nofun, nofun⟩
  | consumed =>
    refine .inr ⟨?_, nofun⟩
    rintro _ ⟨⟩
    exact .of_not rfl
  | resumeFailed hresume hbody =>
    obtain ⟨name, args, d, hdir, rfl⟩ := exists_of_resumption hresume
    rw [hbuiltin] at hdir
    refine .inr ⟨?_, nofun⟩
    rintro _ ⟨⟩
    exact (((builtins_own hdir).resume _ _).perform Setup.HandedOn.own hbody).2.2 _ rfl
  -- the directive of a task is in the template, so it can be resumed
  | resumeUnknown hresume =>
    obtain ⟨-, d, hat⟩ := h.passed _ rfl
    obtain ⟨body, hbody⟩ := hat.resumption _
    cases hresume.symm.trans hbody
  | drainFailed hpipe hread =>
    obtain rfl := read_error hread
    refine .inr ⟨?_, nofun⟩
    rintro _ ⟨⟩
    exact .of_not rfl
  | drainRefused hpipe hread hchunks hemit =>
    obtain ⟨reason, rfl⟩ := emitAll_sinkError hemit
    refine .inr ⟨?_, nofun⟩
    rintro _ ⟨⟩
    exact .of_not rfl

end Render

/-! ## The first defect is found

A run goes down the template instruction by instruction. If nothing of the data stops it before,
it comes to the index of the first defect and stops there, with the error that belongs to it. -/

variable [FilterStage σ] [OutputSink κ]

/-- A turn stops the render on account of what a directive is given: it is suspended, or it fails
with an error of its own. -/
def TakenTurn.Balks (setup : Setup σ μ) (t : TakenTurn σ κ μ) : Prop :=
  ∃ outcome, t.result = .stop outcome ∧ ∀ err, outcome = .error err → setup.Own err

section Runs

variable {setup : Setup σ μ} {fuel : Nat} {task : Render.Task σ} {r r' : Render σ κ μ}
  {index : Nat} {err : RenderError}

omit [FilterStage σ] in
/-- A sink that refuses nothing raises no error. -/
theorem emit_ne_error [SteadySink κ] (chunk : String) (r : Render σ κ μ) :
    r.emit chunk ≠ (.error err, r') := by
  intro hemit
  cases hsink : r.sink with
  | none =>
    rw [Render.emit, hsink] at hemit
    cases hemit
  | some sink =>
    rw [emit_steady chunk hsink] at hemit
    cases hemit

/-- With a sink that refuses nothing, every turn that stops inside of the template is about a
directive. -/
theorem Render.Turned.directive_of_stop [SteadySink κ] {outcome : Except RenderError Unit}
    (ht : Turned setup fuel task r (.stop outcome) r') (hlt : r.cursor < setup.template.size) :
    ∃ j, TakenTurn.directive? setup.template ⟨task, r, .stop outcome, r'⟩ = some j ∧
      (task = .instruction ∧ j = r.cursor ∨ task.busy? = some j) := by
  cases task with
  | flow j | resume j | drain j => exact ⟨j, rfl, .inr rfl⟩
  | instruction =>
    obtain ⟨instruction, hget⟩ : ∃ instruction, setup.template.get? r.cursor = some instruction :=
      ⟨_, List.getElem?_eq_getElem hlt⟩
    cases instruction with
    | directive name args => exact ⟨r.cursor, by simp [TakenTurn.directive?, hget], .inl ⟨rfl, rfl⟩⟩
    | literal text =>
      cases ht with
      | complete hget' => cases hget.symm.trans hget'
      | literalRefused hget' hskip hemit => exact absurd hemit (emit_ne_error _ _)
      | unknown hget' | unbalanced hget' | callFailed hget' => cases hget.symm.trans hget'

/-- **A run that nothing else stops** comes to the first defect, by induction on the run: no turn
goes past it, and none that stops before is about a literal. -/
theorem run_defect [SteadySink κ] (hbuiltin : setup.directives = Directive.builtins)
    (hdefect : setup.template.FirstDefect index err) {outcome : Except RenderError Unit}
    (h : Intact setup task r) (hcursor : r.cursor ≤ index)
    (hgoes : ∀ t ∈ runTurns setup fuel task r, ∀ j < index,
      t.directive? setup.template = some j → ¬ t.Balks setup)
    (hrun : run setup fuel task r = some (outcome, r')) :
    outcome = .error err ∧ r'.cursor = index + 1 ∧ r'.status = .failed := by
  induction fuel generalizing task r with
  | zero => cases hrun
  | succ fuel ih =>
    rw [run] at hrun
    rw [runTurns] at hgoes
    rcases hturn : turn setup fuel task r with _ | ⟨task' | outcome', r₁⟩ <;>
      rw [hturn] at hrun hgoes
    · cases hrun
    · obtain ⟨hnext, hmoved⟩ := (turn_turned hturn).intact hbuiltin h
      refine ih hnext ?_ (fun t ht => hgoes t (List.mem_cons_of_mem _ ht)) hrun
      rcases hmoved with hsame | ⟨hsucc, hnone⟩
      · exact hsame ▸ hcursor
      · have hne : r.cursor ≠ index := by
          rintro rfl
          exact hnone err hdefect.here
        omega
    · obtain ⟨rfl, rfl⟩ := Prod.mk.inj (Option.some.inj hrun)
      have ht := turn_turned hturn
      rcases ht.stopped hbuiltin h with ⟨err', hhere, rfl, hmoved, hfailed⟩ | ⟨hown, hnone⟩
      · obtain rfl : r.cursor = index :=
          Nat.le_antisymm hcursor (Nat.not_lt.mp fun hlt => hdefect.earlier _ hlt err' hhere)
        rw [h.counted.defect_unique hhere hdefect.here]
        exact ⟨rfl, hmoved, hfailed⟩
      · obtain ⟨j, hj, hplace⟩ :=
          ht.directive_of_stop (Nat.lt_of_le_of_lt hcursor hdefect.here.lt)
        refine absurd ⟨_, rfl, hown⟩ (hgoes _ (List.mem_singleton_self _) j ?_ hj)
        rcases hplace with ⟨htask, rfl⟩ | hbusy
        · refine Nat.lt_of_le_of_ne hcursor ?_
          rintro rfl
          exact hnone htask err hdefect.here
        · exact Nat.lt_of_lt_of_le (h.passed j hbusy).1 hcursor

end Runs

/-! ## Templates without a defect

Without a defect no call returns a structural error, whatever the data and whatever the host
does. This is an invariant of chronicles: the count is kept, and all turns that have stopped did
so for a reason of their own. -/

section Chronicles

variable {setup : Setup σ μ}

/-- Where a render of a template without defects stands between its runs. -/
structure Render.Structured (setup : Setup σ μ) (taken : List (TakenTurn σ κ μ))
    (r : Render σ κ μ) : Prop where
  counted : r.status.isFinished = false → r.Counted setup.template
  /-- a wait is that of a directive that was passed -/
  passed : ∀ wait, r.status = .suspended wait →
    wait.directive < r.cursor ∧ ∃ d, setup.DirectiveAt wait.directive d
  own : ∀ err, StopsWith err taken → setup.Own err

/-- A template without defects keeps its structure, along every chronicle. -/
def structured (hbuiltin : setup.directives = Directive.builtins)
    (hnone : ∀ index err, ¬ setup.template.Defect index err) : ChronicleInvariant setup κ where
  rest := Structured setup
  turn taken task r := Intact setup task r ∧ ∀ err, StopsWith err taken → setup.Own err
  waits h _ _ := ⟨h.counted, h.passed, h.own⟩
  sink h _ := ⟨h.counted, h.passed, h.own⟩
  skip h := ⟨h.counted, h.passed, h.own⟩
  report {taken r path index since} h hstatus now := by
    refine ⟨fun _ => h.counted (by rw [hstatus]; rfl), ?_, h.own⟩
    rintro _ ⟨⟩
    exact h.passed (.variable path index since) hstatus
  outside {taken r} h move := by
    obtain ⟨pipe, lines, clock, hframe, -⟩ := move.apply_frame r
    rw [hframe]
    exact ⟨h.counted, h.passed, h.own⟩
  wait h hwait := by
    obtain ⟨pipe, pipe', lines, -, rfl⟩ := Invariant.waitSide_frame hwait
    exact ⟨h.counted, h.passed, h.own⟩
  pass h _ _ := ⟨h.counted, h.passed, h.own⟩
  fail h err := by
    refine ⟨?_, ?_, h.own⟩ <;> rw [(fail_failed _ _).1]
    · exact nofun
    · exact nofun
  attach h hstatus _ := ⟨Counted.intact (h.counted (by rw [hstatus]; rfl)), h.own⟩
  advance h hstatus := ⟨Counted.intact (h.counted (by rw [hstatus]; rfl)), h.own⟩
  drain h hstatus := by
    obtain ⟨wait, hwait, rfl⟩ := Status.suspended_of_piping hstatus
    refine ⟨⟨h.counted (by rw [hwait]; rfl), ?_⟩, h.own⟩
    rintro _ ⟨⟩
    exact h.passed wait hwait
  resume h hstatus _ := by
    refine ⟨⟨h.counted (by rw [hstatus]; rfl), ?_⟩, h.own⟩
    rintro _ ⟨⟩
    exact h.passed _ hstatus
  next ht h := by
    refine ⟨(ht.intact hbuiltin h.1).1, fun err hstops => ?_⟩
    exact h.2 err ((stopsWith_concat.mp hstops).resolve_right nofun)
  stop {fuel taken task r outcome r'} ht h := by
    have hown : ∀ err, StopsWith err (taken ++ [⟨task, r, .stop outcome, r'⟩]) →
        setup.Own err := by
      intro err hstops
      rcases stopsWith_concat.mp hstops with hbefore | hlast
      · exact h.2 err hbefore
      · rcases ht.stopped hbuiltin h.1 with ⟨err', hdefect, -⟩ | ⟨hown, -⟩
        · exact absurd hdefect (hnone _ err')
        · exact hown err (Turn.stop.inj hlast)
    rcases ht.parked with hfinished | ⟨wait, hwait, hbusy, hcursor, hblocks⟩
    · refine ⟨fun hnot => ?_, fun wait hwait => ?_, hown⟩
      · rw [hfinished] at hnot
        cases hnot
      · rw [hwait] at hfinished
        cases hfinished
    · refine ⟨fun _ => ?_, fun wait' hwait' => ?_, hown⟩
      · exact h.1.counted.of_eq hcursor hblocks
      · obtain rfl := Status.suspended.inj (hwait.symm.trans hwait')
        rw [hcursor]
        exact h.1.passed _ hbusy

omit [FilterStage σ] [OutputSink κ] in
/-- In front of the template nothing is open and nothing was passed. -/
theorem Render.Unstarted.counted {r : Render σ κ μ} (h : r.Unstarted) :
    r.Counted setup.template := by
  rw [Counted, h.cursor, h.blocks]
  rfl

/-- **Without a defect** every error of a call is a directive's or a filter's own. -/
theorem Chronicle.own (hbuiltin : setup.directives = Directive.builtins)
    (hnone : ∀ index err, ¬ setup.template.Defect index err) {start r : Render σ κ μ}
    (hstart : start.Unstarted) {record : List (HostCall κ × Except RenderError Unit)}
    {taken : List (TakenTurn σ κ μ)} (h : Chronicle setup start record taken r)
    {call : HostCall κ} {err : RenderError} (hentry : (call, .error err) ∈ record) :
    setup.Own err := by
  have hstructured : Structured setup [] start := by
    refine ⟨fun _ => hstart.counted, ?_, ?_⟩
    · rw [hstart.status]
      exact nofun
    · rintro _ ⟨t, ht, -⟩
      cases ht
  induction h with
  | start => cases hentry
  | @call record taken r call' fuel outcome r' before hleaves hcall ih =>
    rcases List.mem_append.mp hentry with hbefore | hlast
    · exact ih hbefore
    · obtain ⟨rfl, rfl⟩ := Prod.mk.inj (List.mem_singleton.mp hlast)
      have hafter : Structured setup (taken ++ call.turns setup fuel r) r' :=
        (structured hbuiltin hnone).hostCall
          ((structured hbuiltin hnone).chronicle before hstructured) hleaves hcall
      rcases HostCall.error_cases hleaves hcall with
        hstops | ⟨reason, rfl⟩ | ⟨⟨path, fault, rfl⟩ | ⟨path, waited, rfl⟩, -⟩
      · exact hafter.own err (hstops.append_right taken)
      · exact .of_not rfl
      · exact .of_not rfl
      · exact .of_not rfl
  | outside before move ih => exact ih hentry

end Chronicles

/-- **Structural defects are found at the same place whatever the data.** Take the built-in
directives, any filters, and a render that has not started, with whatever variables and streams. If
the template has a defect, let the first be at some index. Attaching a sink that never fails returns
if the chains of the filters come to an end, and unless a directive before this index suspends the
render or fails with an error of its own, it returns the error of the defect, with the cursor behind
the index and the render failed, whether output is suppressed there or not. If the template has no
defect, no call and no driver ever returns an error that blames its structure, unless a filter
raises it, as long as the host leaves the blocks alone. -/
theorem defects_found {setup : Setup σ μ} (hbuiltin : setup.directives = Directive.builtins)
    {start : Render σ κ μ} (hstart : start.Unstarted) :
    (∀ index err, setup.template.FirstDefect index err → SteadySink κ → ∀ sink : κ,
      (setup.filters.Terminating →
        ∃ fuel outcome r', (HostCall.attach sink).run setup fuel start = some (outcome, r')) ∧
      ∀ fuel outcome r', (HostCall.attach sink).run setup fuel start = some (outcome, r') →
        (∀ t ∈ (HostCall.attach sink).turns setup fuel start, ∀ before < index,
          t.directive? setup.template = some before → ¬ t.Balks setup) →
        outcome = .error err ∧ r'.cursor = index + 1 ∧ r'.status = .failed) ∧
    ((∀ index err, ¬ setup.template.Defect index err) →
      ∀ record taken r, Chronicle setup start record taken r →
        (∀ call err, (call, .error err) ∈ record → setup.Own err) ∧
        ∀ now fuel listening inbox d err, poll setup now fuel listening inbox r = some d →
          d.result = .returned (.error err) → setup.Own err) := by
  refine ⟨?_, ?_⟩
  · intro index err hdefect hsteady sink
    refine ⟨fun hterm => ?_, fun fuel outcome r' hcall hgoes => ?_⟩
    · obtain ⟨fuel, ⟨outcome, r'⟩, hcall⟩ :=
        (standing_ends hbuiltin hterm).hostCall (.unstarted hstart) (.attach sink)
      exact ⟨fuel, outcome, r', hcall⟩
    · rw [HostCall.run, Render.attach, if_pos hstart.status] at hcall
      rw [HostCall.turns, if_pos hstart.status] at hgoes
      have hintact : Intact setup .instruction
          { start with sink := some sink, status := .running } :=
        Counted.intact hstart.counted
      refine run_defect hbuiltin hdefect hintact ?_ hgoes hcall
      exact Nat.le_trans (Nat.le_of_eq hstart.cursor) (Nat.zero_le index)
  · intro hnone record taken r hchronicle
    refine ⟨fun call err => hchronicle.own hbuiltin hnone hstart, ?_⟩
    intro now fuel listening inbox d err hpoll hresult
    obtain ⟨record', taken', hafter, herr⟩ := hchronicle.poll hpoll
    obtain ⟨call, hentry⟩ := herr err hresult
    exact hafter.own hbuiltin hnone hstart (List.mem_append_right record hentry)

/-- A condition around one instruction. -/
def Setup.conditional (body : Instruction) : Setup TextFilter Unit where
  template := ⟨[.directive "if" [.path ⟨["shown"]⟩], body, .directive "endif" []]⟩
  directives := Directive.builtins
  filters := TextFilter.registry id

/-- A render that has the condition and has not started. -/
def Render.conditional (shown : Bool) : Render TextFilter Collector Unit :=
  { (fresh () : Render TextFilter Collector Unit) with
    store := { vars := [("shown", .bool shown)] } }

/-- Nothing is wrong with a condition around a variable. -/
theorem no_defect_conditional (index : Nat) (err : RenderError) :
    ¬ (Setup.conditional (.directive "var" [])).template.Defect index err := by
  rintro (⟨hget, hname⟩ | ⟨hlt, hcount⟩)
  · match index with
    | 0 | 1 | 2 =>
      cases hget
      simp at hname
    | index + 3 => cases hget
  · match index with
    | 0 | 1 | 2 => revert hcount; decide
    | index + 3 => exact absurd hlt (Nat.not_lt.mpr (Nat.le_add_left 3 index))

/-- A directive that is not known is found in its block, be this skipped or not. A variable without
a path is no defect, and what a render says that comes to it is not about the structure. -/
theorem defects_found_skipped : ∃ r r' r'' : Render TextFilter Collector Unit,
    HostCall.run (Setup.conditional (.directive "bogus" [])) 9 (.attach {}) (.conditional false) =
      some (.error (.unknownDirective "bogus" 1), r) ∧ r.skip = .since 1 ∧ r.cursor = 2 ∧
    HostCall.run (Setup.conditional (.directive "bogus" [])) 9 (.attach {}) (.conditional true) =
      some (.error (.unknownDirective "bogus" 1), r') ∧ r'.skip = .notSkipping ∧ r'.cursor = 2 ∧
    HostCall.run (Setup.conditional (.directive "var" [])) 9 (.attach {}) (.conditional true) =
      some (.error (.missingArgument "var" 0), r'') ∧
    (Setup.conditional (.directive "var" [])).Own (.missingArgument "var" 0) := by
  have hdefect : (Setup.conditional (.directive "bogus" [])).template.FirstDefect 1
      (.unknownDirective "bogus" 1) := by
    refine ⟨.unknown rfl (by decide), ?_⟩
    rintro (_ | before) hbefore err
    · rintro (⟨hget, hname⟩ | ⟨-, hcount⟩)
      · cases hget
        simp at hname
      · revert hcount
        decide
    · omega
  have hunstarted (shown : Bool) : (Render.conditional shown).Unstarted := ⟨rfl, rfl, rfl, rfl⟩
  have hbuiltin (body : Instruction) :
      (Setup.conditional body).directives = Directive.builtins := rfl
  have hfalse := (defects_found (hbuiltin _) (hunstarted false)).1 1 _ hdefect inferInstance {}
  have htrue := (defects_found (hbuiltin _) (hunstarted true)).1 1 _ hdefect inferInstance {}
  have hrest := (defects_found (hbuiltin _) (hunstarted true)).2 no_defect_conditional
  have hattached : Chronicle (Setup.conditional (.directive "var" [])) (.conditional true)
      [(.attach {}, .error (.missingArgument "var" 0))] _ _ :=
    @Chronicle.call _ _ _ _ _ _ _ _ _ _ _ 9 _ _ .start rfl rfl
  -- the condition goes on, whatever it is
  have hgoes (shown : Bool) : ∀ t ∈ (HostCall.attach ({} : Collector)).turns
      (Setup.conditional (.directive "bogus" [])) 9 (.conditional shown), ∀ before < 1,
      t.directive? (Setup.conditional (.directive "bogus" [])).template = some before →
      ¬ t.Balks (Setup.conditional (.directive "bogus" [])) := by
    have hcheck : ((HostCall.attach ({} : Collector)).turns
        (Setup.conditional (.directive "bogus" [])) 9 (.conditional shown)).all (fun t =>
          t.directive? (Setup.conditional (.directive "bogus" [])).template != some 0 ||
            match t.result with
            | .next _ => true
            | .stop _ => false) := by
      cases shown <;> rfl
    rintro t ht before hbefore hdirective ⟨outcome, hstop, -⟩
    have hturn := List.all_eq_true.mp hcheck t ht
    rw [hdirective, hstop, Nat.lt_one_iff.mp hbefore] at hturn
    simp at hturn
  exact ⟨_, _, _, rfl, rfl, (hfalse.2 9 _ _ rfl (hgoes false)).2.1, rfl, rfl,
    (htrue.2 9 _ _ rfl (hgoes true)).2.1, rfl,
    (hrest _ _ _ hattached).1 (.attach {}) _ (List.mem_singleton_self _)⟩

end StreamingTemplate

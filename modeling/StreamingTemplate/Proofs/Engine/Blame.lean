import StreamingTemplate.Proofs.Engine.Chronicle
import StreamingTemplate.Proofs.Engine.HandsOn
import StreamingTemplate.Proofs.Engine.Recovery

/-!
# Which directive a close is blamed on

A close or restart that finds no open block fails with an index. A flag gives its own index; a body
gives the one in front of the cursor. That is the directive which the body belongs to, as long as
the cursor stands behind it. But a restart takes the cursor back, and the body that made it, or the
same directive when it is resumed, may close once more: then what is blamed is the instruction in
front of the one that the restart has gone back to.

* `Render.Working` — where the cursor stands while a directive is at work;
* `workingInvariant` — this holds at every moment, whatever the host and the directives do;
* `ClosesIn` — the close that a turn comes to, by a flag or in a body;
* `Traced` — what the index in an error tells about it.

`unbalanced_traced` says that every such error is traced in this way, and
`unbalanced_blames_other` that the wrong directive is really blamed.
-/

namespace StreamingTemplate

open Render

variable {σ κ μ : Type}

/-! ## Where the cursor stands

A directive is at work from when it is reached until it moves on, over all its waits. Meanwhile
the cursor is behind it unless something restarts a block. A restart of the host counts as well
as one in a body: both go back to a directive that has opened a block. -/

/-- While the directive at an index is at work the cursor stands behind it, or a restart has taken
it back to a directive that opens a block. -/
def Render.Working (setup : Setup σ μ) (index : Nat) (r : Render σ κ μ) : Prop :=
  r.cursor = index + 1 ∨
    r.cursor ≤ index ∧ ∃ d, setup.DirectiveAt r.cursor d ∧ d.opensBlock = true

namespace Render

variable {setup : Setup σ μ} {index : Nat} {r r' : Render σ κ μ}

theorem Working.of_eq (h : r.Working setup index) (hcursor : r'.cursor = r.cursor) :
    r'.Working setup index := by
  rwa [Working, hcursor]

/-- A directive that is reached has the cursor behind it. -/
theorem Working.reached {d : Directive σ μ} {res : Except RenderError Nat}
    (hreach : reach d r.cursor { r with cursor := r.cursor + 1 } = (res, r')) :
    r'.Working setup r.cursor := by
  obtain ⟨blocks, skip, rfl⟩ := exists_of_reach hreach
  exact .inl rfl

/-- A restart goes back to a directive that opens a block, or fails and leaves the cursor alone. -/
theorem Working.restart (h : r.Working setup index) (hsound : r.place.Sound setup) :
    r.restartBlock.2.Working setup index := by
  cases hframes : r.blocks.frames with
  | nil =>
    rw [restartBlock, closeBlock_of_nil hframes]
    exact h
  | cons frame rest =>
    have hmem : frame ∈ r.place.blocks.frames := hframes ▸ List.mem_cons_self
    have hpassed : frame < r.cursor := hsound.passed frame hmem
    rw [restartBlock, closeBlock_of_cons hframes]
    refine .inr ⟨?_, hsound.opens frame hmem⟩
    change frame ≤ index
    rcases h with hbehind | ⟨hback, -⟩ <;> omega

/-- The cursor of a render that works for a directive, whose place is sound. -/
def WorkingAt (setup : Setup σ μ) (index : Nat) (r : Render σ κ μ) : Prop :=
  r.place.Sound setup ∧ r.Working setup index

theorem workingAt_keptByBodies [OutputSink κ] (setup : Setup σ μ) (index : Nat) :
    KeptByBodies (WorkingAt (κ := κ) setup index) where
  emit chunk r h := by
    obtain ⟨sink, hsink⟩ := emit_frame chunk r
    rw [hsink]
    exact h
  skip r h := ⟨h.1.skipped, h.2⟩
  restart r h := ⟨restartBlock_sound h.1, h.2.restart h.1⟩
  close r h := by
    refine ⟨r.closeCurrent_closes.sound h.1, h.2.of_eq ?_⟩
    obtain ⟨blocks, skip, hframe⟩ := closeCurrent_frame r
    rw [hframe]
  set path value r h := by
    obtain ⟨store, answers, hframe⟩ := setWithin_frame path value r
    rw [hframe]
    exact h
  handles handles r h := h
  remember memory r h := h

end Render

section Working

variable [FilterStage σ] [OutputSink κ] {setup : Setup σ μ} {fuel : Nat} {task : Render.Task σ}
  {r r' : Render σ κ μ}

/-- A turn that goes on leaves the cursor where the directive that it goes on with may have it. -/
theorem Render.Turned.working {task' : Render.Task σ}
    (ht : Turned setup fuel task r (.next task') r') (hsound : r.place.Sound setup)
    (h : ∀ index, task.busy? = some index → r.Working setup index) :
    ∀ index, task'.busy? = some index → r'.Working setup index := by
  cases ht with
  | literalSkipped | literalEmitted | passedBy | advanced | nothingToDrain | closed => exact nofun
  | resolved | piped | draining => exact h
  | called hget hdir hreach hskip hbody =>
    have hat : WorkingAt setup r.cursor _ :=
      ⟨reach_sound hsound ⟨_, _, hget, hdir⟩ hreach, .reached hreach⟩
    rintro _ ⟨⟩
    exact ((workingAt_keptByBodies setup _).perform hbody hat).2
  | resumed hresume hbody =>
    rintro _ ⟨⟩
    exact ((workingAt_keptByBodies setup _).perform hbody ⟨hsound, h _ rfl⟩).2

/-- Where the cursor stands, at every moment. -/
def workingInvariant (setup : Setup σ μ) (κ : Type) [OutputSink κ] : Invariant setup κ where
  rest r := r.place.Sound setup ∧
    ∀ wait, r.status = .suspended wait → r.Working setup wait.directive
  inside r := r.place.Sound setup ∧
    ∀ wait, r.status = .suspended wait → r.Working setup wait.directive
  turn task r := r.place.Sound setup ∧ ∀ index, task.busy? = some index → r.Working setup index
  closing index r := r.cursor = index + 1
  body index r := WorkingAt setup index r
  waits h _ _ := h
  sink h _ := h
  skip h := ⟨h.1.skipped, h.2⟩
  restart {r} h := by
    refine ⟨restartBlock_sound h.1, fun wait hwait => (h.2 wait ?_).restart h.1⟩
    obtain ⟨blocks, skip, cursor, hframe⟩ := restartBlock_frame r
    rwa [hframe] at hwait
  close {r} h := by
    refine ⟨r.closeCurrent_closes.sound h.1, ?_⟩
    obtain ⟨blocks, skip, hframe⟩ := closeCurrent_frame r
    rw [hframe]
    exact h.2
  report {r path index since} h hstatus now := by
    refine ⟨h.1, ?_⟩
    rintro _ ⟨⟩
    exact h.2 (.variable path index since) hstatus
  outside {r} h move := by
    obtain ⟨pipe, lines, clock, hframe, -⟩ := move.apply_frame r
    rw [hframe]
    exact h
  enter h := h
  leave h _ := h
  feed h _ _ _ _ := h
  fail {r} h err := by
    obtain ⟨hfailed, -⟩ := fail_failed err r
    refine ⟨by rw [place_fail]; exact h.1, fun wait hwait => ?_⟩
    cases hfailed.symm.trans hwait
  attach h _ _ := ⟨h.1, nofun⟩
  advance h _ := ⟨h.1, nofun⟩
  drain h hstatus := by
    obtain ⟨wait, hwait, rfl⟩ := Status.suspended_of_piping hstatus
    refine ⟨h.1, ?_⟩
    rintro _ ⟨⟩
    exact h.2 wait hwait
  resume h hstatus _ := by
    refine ⟨h.1, ?_⟩
    rintro _ ⟨⟩
    exact h.2 _ hstatus
  next ht h := ⟨ht.sound h.1, ht.working h.1 h.2⟩
  stop ht h := by
    refine ⟨ht.sound h.1, fun wait hwait => ?_⟩
    rcases ht.parked with hfinished | ⟨wait', hwait', hbusy, hcursor, -⟩
    · rw [hwait] at hfinished
      cases hfinished
    · obtain rfl := Status.suspended.inj (hwait'.symm.trans hwait)
      exact (h.2 _ hbusy).of_eq hcursor
  arrive _ _ := rfl
  call h hat hreach := ⟨reach_sound h.1 hat hreach, .reached hreach⟩
  handBack h := ⟨h.1, h.2 _ rfl⟩
  kept index := workingAt_keptByBodies setup index

end Working

/-! ## The close that a turn comes to

The index of an error is compared with where in the turn the close was made. A flag closes when
the directive is reached, before any body, and the cursor stands behind the directive then. -/

section Closes

variable [FilterStage σ] [OutputSink κ] {setup : Setup σ μ} {t : TakenTurn σ κ μ} {index : Nat}

/-- In a turn the directive at a position closes or restarts a block in a render. -/
inductive ClosesIn (setup : Setup σ μ) (t : TakenTurn σ κ μ) : Nat → Render σ κ μ → Prop where
  /-- by its flag -/
  | flag {d} (htask : t.task = .instruction) (hat : setup.DirectiveAt t.before.cursor d)
      (hcloses : d.closesBlock = true) : ClosesIn setup t t.before.cursor (arrive d t.before)
  /-- in the body that it is called with -/
  | call {name args d frame reached fuel body r} (htask : t.task = .instruction)
      (hget : setup.template.get? t.before.cursor = some (.directive name args))
      (hdir : setup.directives.directive? name = some d)
      (hreach : reach d t.before.cursor { t.before with cursor := t.before.cursor + 1 } =
        (.ok frame, reached))
      (hsteps : BodySteps setup fuel (d.call args, reached) (body, r)) (hclosing : body.Closing) :
      ClosesIn setup t t.before.cursor r
  /-- in the body that it is resumed with -/
  | resume {position value resumed fuel body r} (htask : t.task = .resume position value)
      (hresume : setup.resumption position value = .ok resumed)
      (hsteps : BodySteps setup fuel (resumed, t.before) (body, r)) (hclosing : body.Closing) :
      ClosesIn setup t position r

/-- What the index in an error about a block that is not open tells. One of the turns has ended with
this error: in it the directive at a position has come to a close or restart without an open block.
The index is this position, or, where a restart has taken the cursor back since the directive was
reached, the one in front of the directive that the restart has gone back to. -/
def Traced (setup : Setup σ μ) (taken : List (TakenTurn σ κ μ)) (index : Nat) : Prop :=
  ∃ t ∈ taken, t.result = .stop (.error (.unbalancedBlock index)) ∧
    ∃ position r, ClosesIn setup t position r ∧ r.blocks.frames = [] ∧
      (r.cursor = position + 1 ∧ index = position ∨
        r.cursor ≤ position ∧ index = r.cursor - 1 ∧
          ∃ d, setup.DirectiveAt r.cursor d ∧ d.opensBlock = true)

/-- The errors that do not blame a directive for closing a block. -/
def RenderError.Elsewhere (err : RenderError) : Prop := ∀ index, err ≠ .unbalancedBlock index

/-- Directives that hand errors on and never say by themselves that a block is not open, and filters
that do not say so either. They may do with blocks what they like. -/
structure Setup.Honest (setup : Setup σ μ) : Prop where
  directives : ∀ {name d}, setup.directives.directive? name = some d →
    d.HandsOn RenderError.Elsewhere True
  filters : ∀ {spec err}, setup.filters.stage spec = .error err → err.Elsewhere

omit [FilterStage σ] in
theorem Setup.Honest.handedOn (h : setup.Honest) (err : RenderError) (herr : setup.HandedOn err) :
    err.Elsewhere := by
  rcases herr with ⟨reason, rfl⟩ | ⟨path, fault, rfl⟩ | ⟨spec, hstage⟩
  · exact nofun
  · exact nofun
  · exact h.filters hstage

/-- A body that fails over a block that is not open has been at work for its directive. -/
theorem Body.HandsOn.traced (hhonest : setup.Honest) {fuel position : Nat} {body : Body σ μ}
    {r r' : Render σ κ μ} (hbody : body.HandsOn RenderError.Elsewhere True)
    (hworking : WorkingAt setup position r)
    (hperform : Render.perform setup fuel body r = some (.error (.unbalancedBlock index), r')) :
    ∃ last : Body σ μ, last.Closing ∧ BodySteps setup fuel (body, r) (last, r') ∧
      r'.blocks.frames = [] ∧ (r'.cursor = position + 1 ∧ index = position ∨
        r'.cursor ≤ position ∧ index = r'.cursor - 1 ∧
          ∃ d, setup.DirectiveAt r'.cursor d ∧ d.opensBlock = true) := by
  obtain ⟨last, hclosing, hsteps, hframes, rfl⟩ :=
    hbody.unbalanced hhonest.handedOn (fun h => h index rfl) hperform
  refine ⟨last, hclosing, hsteps, hframes, ?_⟩
  -- the cursor stands behind the directive, or where a restart has taken it
  rcases ((workingAt_keptByBodies setup position).steps hsteps hworking).2 with hbehind | hback
  · exact .inl ⟨hbehind, by rw [currentIndex, hbehind, Nat.add_sub_cancel]⟩
  · exact .inr ⟨hback.1, rfl, hback.2⟩

/-- **A turn that ends with such an error** is traced. -/
theorem Render.Turned.traced (hhonest : setup.Honest) {taken : List (TakenTurn σ κ μ)}
    (hmem : t ∈ taken) (htook : (workingInvariant setup κ).Took t)
    (hresult : t.result = .stop (.error (.unbalancedBlock index))) : Traced setup taken index := by
  obtain ⟨⟨hsound, hworking⟩, fuel, ht⟩ := htook
  refine ⟨t, hmem, hresult, ?_⟩
  obtain ⟨task, r, result, r'⟩ := t
  dsimp only at hsound hworking ht hresult
  subst hresult
  generalize houtcome : Except.error (RenderError.unbalancedBlock index) = outcome at ht
  cases ht with
  | complete hget =>
    obtain ⟨reason, hsink⟩ := complete_sinkError houtcome.symm
    cases hsink
  | literalRefused hget hskip hemit =>
    obtain ⟨reason, rfl⟩ := emit_sinkError hemit
    cases houtcome
  | @unbalanced _ name args d err r' hget hdir hreach =>
    cases houtcome
    rw [reach_eq] at hreach
    split at hreach
    · rename_i hcloses
      refine ⟨_, _, .flag rfl ⟨name, args, hget, hdir⟩ hcloses, ?_⟩
      cases hframes : (arrive d r).blocks.frames with
      | nil =>
        rw [closeBlock_of_nil hframes] at hreach
        cases hreach
        exact ⟨rfl, .inl ⟨rfl, rfl⟩⟩
      | cons frame rest =>
        rw [closeBlock_of_cons hframes] at hreach
        cases hreach
    · cases hreach
  | callFailed hget hdir hreach hskip hbody =>
    cases houtcome
    obtain ⟨last, hclosing, hsteps, hframes, hblamed⟩ :=
      ((hhonest.directives hdir).call _).traced hhonest
        ⟨reach_sound hsound ⟨_, _, hget, hdir⟩ hreach, .reached hreach⟩ hbody
    exact ⟨_, _, .call rfl hget hdir hreach hsteps hclosing, hframes, hblamed⟩
  | unknown | suspended | consumed | drained => cases houtcome
  | resumeFailed hresume hbody =>
    cases houtcome
    obtain ⟨name, args, d, hdir, rfl⟩ := exists_of_resumption hresume
    obtain ⟨last, hclosing, hsteps, hframes, hblamed⟩ :=
      ((hhonest.directives hdir).resume _ _).traced hhonest ⟨hsound, hworking _ rfl⟩ hbody
    exact ⟨_, _, .resume rfl hresume hsteps hclosing, hframes, hblamed⟩
  | resumeUnknown hresume =>
    cases houtcome
    unfold Setup.resumption at hresume
    split at hresume
    · split at hresume <;> cases hresume
    · cases hresume
  | drainFailed hpipe hread =>
    obtain rfl := read_error hread
    cases houtcome
  | drainRefused hpipe hread hchunks hemit =>
    obtain ⟨reason, rfl⟩ := emitAll_sinkError hemit
    cases houtcome

end Closes

/-- **An unmatched close is blamed on its directive, unless a block has been restarted.** Take any
template, and directives that do with blocks what they like and hand errors on. Whatever the host
has called before, its own restarts and closes included: an error of a call that lets the render go
on and says that a block was not open is that of a turn of this call, in which a directive has come
to a close or restart without an open block. Where the cursor stands behind this directive, the
error has its position; this is so wherever a flag closes. Otherwise a restart has taken the cursor
back to a directive that opens a block, and the error has the position in front of that one. An
error of a driver is that of one of its calls. -/
theorem unbalanced_traced [FilterStage σ] [OutputSink κ] {setup : Setup σ μ}
    (hhonest : setup.Honest) {memory : μ} {lines : Lines} {clock : Instant}
    {record : List (HostCall κ × Except RenderError Unit)} {r : Render σ κ μ}
    (h : History setup (fresh memory lines clock) record r) :
    (∀ call fuel index r', HostCall.proceeds call = true →
      HostCall.run setup fuel call r = some (.error (.unbalancedBlock index), r') →
      Traced setup (call.turns setup fuel r) index) ∧
    ∀ now fuel listening inbox d index, poll setup now fuel listening inbox r = some d →
      d.result = .returned (.error (.unbalancedBlock index)) →
      ∃ record' r₁ call fuel', History setup (fresh memory lines clock) (record ++ record') r₁ ∧
        (∀ entry ∈ record', entry.2 = .ok ()) ∧
        HostCall.run setup fuel' call r₁ = some (.error (.unbalancedBlock index), d.render) ∧
        Traced setup (call.turns setup fuel' r₁) index := by
  have htraced {record : List (HostCall κ × Except RenderError Unit)} {r r' : Render σ κ μ}
      {call : HostCall κ} {fuel index : Nat} (h : History setup (fresh memory lines clock) record r)
      (hproceeds : call.proceeds = true)
      (hcall : HostCall.run setup fuel call r = some (.error (.unbalancedBlock index), r')) :
      Traced setup (call.turns setup fuel r) index := by
    have hrest := (workingInvariant setup κ).history h ⟨.start setup, nofun⟩
    have hleaves := HostCall.leavesBlocks_of_proceeds hproceeds
    rcases HostCall.error_cases hleaves hcall with
      ⟨t, hmem, hresult⟩ | ⟨reason, herr⟩ | ⟨⟨path, fault, herr⟩ | ⟨path, waited, herr⟩, -⟩
    · have htook := (workingInvariant setup κ).took_turns call hrest t hmem
      exact Turned.traced hhonest hmem htook hresult
    · cases herr
    · cases herr
    · cases herr
  refine ⟨fun call fuel index r' => htraced h, ?_⟩
  intro now fuel listening inbox d index hpoll hresult
  obtain ⟨record', r₁, call, fuel', hhistory, hok, -, hproceeds, hcall⟩ :=
    poll_error h hpoll hresult
  exact ⟨record', r₁, call, fuel', hhistory, hok, hcall, htraced hhistory hproceeds hcall⟩

/-- A directive that opens a block, and one that restarts blocks twice. -/
def Setup.restarting (instructions : List Instruction) : Setup TextFilter Unit where
  template := ⟨instructions⟩
  directives := (DirectiveRegistry.empty.register "open"
      { opensBlock := true, call := fun _ => .done .advance }).register "twice"
    { call := fun _ =>
        .restart (Body.orFail fun _ => .restart (Body.orFail fun _ => .done .advance)) }
  filters := FilterRegistry.empty

theorem restarting_honest (instructions : List Instruction) :
    (Setup.restarting instructions).Honest where
  directives {name d} h := by
    unfold Setup.restarting DirectiveRegistry.register at h
    dsimp only at h
    split at h
    · cases h
      exact ⟨fun _ => .restart trivial (.restart trivial (.done _) fun _ => rfl) fun _ => rfl,
        fun _ _ => .done _⟩
    · split at h
      · cases h
        exact ⟨fun _ => .done _, fun _ _ => .done _⟩
      · cases h
  filters h := by
    cases h
    exact nofun

/-- A block with a directive in it that restarts twice. -/
def Setup.restartingInBlock : Setup TextFilter Unit :=
  .restarting [.directive "open" [], .literal "a", .directive "twice" []]

/-- Outside of all blocks it is the directive that is blamed. In a block its second restart is
blamed on the directive that has opened the block, which is where the first has gone back to. -/
theorem unbalanced_traced_twice : ∃ r r' : Render TextFilter Collector Unit,
    HostCall.run (.restarting [.literal "a", .directive "twice" []]) 9 (.attach {}) (fresh ()) =
      some (.error (.unbalancedBlock 1), r) ∧
    HostCall.run .restartingInBlock 9 (.attach {}) (fresh ()) =
      some (.error (.unbalancedBlock 0), r') ∧
    Traced .restartingInBlock ((HostCall.attach ({} : Collector)).turns .restartingInBlock 9
      (fresh ())) 0 := by
  have hrun : HostCall.run .restartingInBlock 9 (.attach {})
      (fresh () : Render TextFilter Collector Unit) = some (.error (.unbalancedBlock 0), _) := rfl
  have hhonest : Setup.restartingInBlock.Honest := restarting_honest _
  have hstart : History .restartingInBlock (fresh () : Render TextFilter Collector Unit) [] _ :=
    .start
  exact ⟨_, _, rfl, hrun, (unbalanced_traced hhonest hstart).1 (.attach {}) 9 0 _ rfl hrun⟩

/-- The directive that is blamed there has closed nothing. -/
theorem unbalanced_blames_other : ∃ r : Render TextFilter Collector Unit,
    HostCall.run .restartingInBlock 9 (.attach {}) (fresh ()) =
      some (.error (.unbalancedBlock 0), r) ∧
    ∀ (t : TakenTurn TextFilter Collector Unit) r₁, ¬ ClosesIn .restartingInBlock t 0 r₁ := by
  refine ⟨_, rfl, fun t r₁ h => ?_⟩
  -- its body does nothing
  have hdone {fuel : Nat} {r : Render TextFilter Collector Unit} {body : Body TextFilter Unit}
      (hsteps : BodySteps Setup.restartingInBlock fuel (.done .advance, r) (body, r₁)) :
      ¬ body.Closing := by
    rcases Relation.ReflTransGen.cases_head hsteps with heq | ⟨s, hstep, -⟩
    · cases heq
      exact id
    · cases hstep
  generalize hposition : 0 = position at h
  cases h with
  | flag htask hat hcloses =>
    obtain ⟨name, args, hget, hdir⟩ := hat
    rw [← hposition] at hget
    cases hget
    cases hdir
    cases hcloses
  | call htask hget hdir hreach hsteps hclosing =>
    rw [← hposition] at hget
    cases hget
    cases hdir
    exact hdone hsteps hclosing
  | resume htask hresume hsteps hclosing =>
    subst hposition
    cases hresume
    exact hdone hsteps hclosing

end StreamingTemplate

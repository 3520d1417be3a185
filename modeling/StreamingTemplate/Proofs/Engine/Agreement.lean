import StreamingTemplate.Filter.Scripted
import StreamingTemplate.Proofs.Engine.Moment
import StreamingTemplate.Proofs.Engine.Waits
import StreamingTemplate.Proofs.Pipe

/-!
# Status, pipe and waiting directive

What a suspended render waits for is kept in three places: its status names the directive and says
for what it waits, the render has the pipe, and the pipe has the stream and the chain. `Agreed` says
that they agree whenever no call is in progress. During a run they agree in another way, by what the
next turn is to do (`OnTurn`): only a turn that drains has a pipe, all others find the render
running without one. So no turn that drains lacks its pipe, and none that resumes a directive lacks
it.
-/

namespace StreamingTemplate

variable {σ κ μ : Type}

/-! ## Agreement

Between two runs the status decides: it says whether there is a pipe, and which directive is to
be resumed or drains it. The two statuses for a pipe differ in what the pipe waits for. -/

/-- A status and a pipe as they are while nothing runs. -/
structure Halted (setup : Setup σ μ) (status : Status) (pipe : Option (Pipe σ)) : Prop where
  stopped : status ≠ .running
  /-- a pipe is there while the render is suspended on it, and only then -/
  piped : pipe.isSome = status.piping?.isSome
  directive : ∀ wait, status = .suspended wait → ∃ d, setup.DirectiveAt wait.directive d

/-- The status agrees with the pipe, the template and its directives. -/
structure Agreed (setup : Setup σ μ) (status : Status) (pipe : Option (Pipe σ)) : Prop
    extends Halted setup status pipe where
  stream : ∀ index p, status = .suspended (.stream index) → pipe = some p → p.sourceOpen = true
  filter : ∀ index p, status = .suspended (.filter index) → pipe = some p → p.AwaitsChain

namespace Halted

variable {setup : Setup σ μ} {status : Status} {pipe : Option (Pipe σ)}

theorem pipe_eq_none (h : Halted setup status pipe) (hstatus : status.piping? = none) :
    pipe = none := by
  rw [← Option.not_isSome_iff_eq_none, h.piped, hstatus]
  exact Bool.false_ne_true

/-- Without a wait for the pipe there is nothing more to agree. -/
theorem agreed (h : Halted setup status pipe) (hstatus : status.piping? = none) :
    Agreed setup status pipe where
  toHalted := h
  stream index _ hstream := by simp [hstream, Status.piping?] at hstatus
  filter index _ hfilter := by simp [hfilter, Status.piping?] at hstatus

/-- A render that is neither running nor suspended has no pipe. -/
theorem of_none (hstopped : status ≠ .running) (hwait : ∀ wait, status ≠ .suspended wait) :
    Halted setup status none where
  stopped := hstopped
  piped := by
    cases status with
    | suspended wait => exact absurd rfl (hwait wait)
    | _ => rfl
  directive wait hstatus := absurd hstatus (hwait wait)

/-- The directive that drains the pipe is there. -/
theorem piping (h : Halted setup status pipe) {index : Nat}
    (hstatus : status.piping? = some index) :
    pipe.isSome = true ∧ ∃ d, setup.DirectiveAt index d := by
  refine ⟨h.piped.trans (by rw [hstatus]; rfl), ?_⟩
  cases status with
  | suspended wait =>
    cases wait with
    | «variable» => cases hstatus
    | stream | filter => exact Option.some.inj hstatus ▸ h.directive _ rfl
  | _ => cases hstatus

end Halted

/-- What is sent from outside changes nothing that a pipe waits for. -/
theorem Agreed.sent {setup : Setup σ μ} {status : Status} {p : Pipe σ}
    (h : Agreed setup status (some p)) (handles : Handles) (slot : String) (output : LateOutput) :
    Agreed setup status
      (some { p with chain := (Chain.sendFrom handles slot output p.chain).2 }) where
  toHalted := ⟨h.stopped, h.piped, h.directive⟩
  stream index q hstatus hpipe := by
    obtain rfl := Option.some.inj hpipe
    exact h.stream index p hstatus rfl
  filter index q hstatus hpipe := by
    obtain rfl := Option.some.inj hpipe
    obtain ⟨hsource, chain, hchain, hended, hstalled⟩ := h.filter index p hstatus rfl
    refine ⟨hsource, ?_⟩
    simp only [hchain, Chain.sendFrom]
    -- late output that is still in the mailbox is not yet observed
    split
    · exact ⟨chain, rfl, hended, hstalled⟩
    · split
      · exact ⟨_, rfl, hended, hstalled⟩
      · exact ⟨chain, rfl, hended, hstalled⟩

namespace Render

/-- The render runs and has no pipe. -/
structure Unpiped (r : Render σ κ μ) : Prop where
  status : r.status = .running
  pipe : r.pipe = none

/-- What the next turn finds. -/
def OnTurn (setup : Setup σ μ) : Task σ → Render σ κ μ → Prop
  | .instruction, r => r.Unpiped
  | .flow index _, r | .resume index _, r => r.Unpiped ∧ ∃ d, setup.DirectiveAt index d
  | .drain index, r => r.pipe.isSome = true ∧ ∃ d, setup.DirectiveAt index d

/-! ## The steps of a run

In a run the status is `running` throughout, but for a turn that drains, so the task takes the
place of the status. Every turn that stops restores the agreement. -/

theorem unpiped_keptByBodies [OutputSink κ] :
    KeptByBodies (Unpiped (σ := σ) (κ := κ) (μ := μ)) := by
  refine .of_frame (fun _ _ _ _ _ _ _ h => ⟨h.status, h.pipe⟩) fun path value r h => ?_
  obtain ⟨store, answers, hframe⟩ := setWithin_frame path value r
  rw [hframe]
  exact ⟨h.status, h.pipe⟩

theorem Unpiped.moved {r : Render σ κ μ} (h : r.Unpiped) :
    Unpiped { r with cursor := r.cursor + 1 } :=
  ⟨h.status, h.pipe⟩

theorem Unpiped.reach {d : Directive σ μ} {index : Nat} {r r' : Render σ κ μ}
    {res : Except RenderError Nat} (h : r.Unpiped) (hreach : reach d index r = (res, r')) :
    r'.Unpiped := by
  obtain ⟨blocks, skip, rfl⟩ := exists_of_reach hreach
  exact ⟨h.status, h.pipe⟩

theorem agreed_fail (setup : Setup σ μ) (err : RenderError) (r : Render σ κ μ) :
    Agreed setup (fail err r).2.status (fail err r).2.pipe := by
  change Agreed setup .failed r.dropPipe.pipe
  rw [dropPipe_pipe]
  exact Halted.agreed (.of_none nofun nofun) rfl

variable [OutputSink κ]

theorem agreed_complete (setup : Setup σ μ) {r : Render σ κ μ} (h : r.pipe = none) :
    Agreed setup (complete r).2.status (complete r).2.pipe := by
  have hdone : Agreed setup .done r.pipe := by
    rw [h]
    exact Halted.agreed (.of_none nofun nofun) rfl
  rw [complete]
  split
  · exact hdone
  · split
    · exact hdone
    · exact agreed_fail setup _ _

variable [FilterStage σ] {setup : Setup σ μ} {fuel : Nat} {task : Task σ} {r r' : Render σ κ μ}

/-- **A turn that goes on.** It leaves the render running and without a pipe, unless the next
turn is to drain one. A directive that the next task is about is the one that was called or
resumed. -/
theorem Turned.onTurn {next : Task σ} (ht : Turned setup fuel task r (.next next) r')
    (h : OnTurn setup task r) : OnTurn setup next r' := by
  cases ht with
  | literalSkipped => exact h.moved
  | @literalEmitted _ text _ hget hskip hemit =>
    have := unpiped_keptByBodies.emit text _ h.moved
    rwa [hemit] at this
  | passedBy hget hdir hreach hskip => exact h.moved.reach hreach
  | called hget hdir hreach hskip hbody =>
    exact ⟨unpiped_keptByBodies.perform hbody (h.moved.reach hreach), _, _, _, hget, hdir⟩
  | advanced => exact h.1
  | resolved => exact h
  | piped | draining => exact ⟨rfl, h.2⟩
  | resumed hresume hbody => exact ⟨unpiped_keptByBodies.perform hbody h.1, h.2⟩
  -- a task that drains finds a pipe
  | nothingToDrain hpipe =>
    have := h.1
    rw [hpipe] at this
    cases this
  | closed hpipe hread hemit => exact ⟨rfl, dropPipe_pipe _⟩

/-- **A turn that stops.** A render that stops draining is suspended on what its pipe waits for. -/
theorem Turned.agreed {outcome : Except RenderError Unit}
    (ht : Turned setup fuel task r (.stop outcome) r') (h : OnTurn setup task r) :
    Agreed setup r'.status r'.pipe := by
  cases ht with
  | complete hget => exact agreed_complete setup h.pipe
  | suspended hres =>
    refine Halted.agreed ⟨nofun, ?_, ?_⟩ rfl
    · rw [h.1.pipe]
      rfl
    · rintro wait hwait
      exact Status.suspended.inj hwait ▸ h.2
  | @drained _ index pipe chunks pipe' lines r₁ hpipe hread hemit =>
    obtain ⟨sink, rfl⟩ := exists_of_emitAll hemit
    -- the wait is for the stream as long as the pipe has it
    cases hsource : pipe'.sourceOpen with
    | true =>
      refine ⟨⟨nofun, rfl, ?_⟩, ?_, nofun⟩
      · rintro _ hwait
        exact Status.suspended.inj hwait ▸ h.2
      · rintro _ _ - hpipe'
        exact Option.some.inj hpipe' ▸ hsource
    | false =>
      refine ⟨⟨nofun, rfl, ?_⟩, nofun, ?_⟩
      · rintro _ hwait
        exact Status.suspended.inj hwait ▸ h.2
      · rintro _ _ - hpipe'
        have := (Pipe.read_pending hread).resolve_left (by simp [hsource])
        exact Option.some.inj hpipe' ▸ this
  | literalRefused | unknown | unbalanced | callFailed | consumed | resumeFailed | resumeUnknown
  | drainFailed | drainRefused => exact agreed_fail setup _ _

/-- The agreement, at every moment. -/
def agreedInvariant (setup : Setup σ μ) (κ : Type) [OutputSink κ] : Invariant setup κ where
  rest r := Agreed setup r.status r.pipe
  inside r := Halted setup r.status r.pipe
  turn task r := OnTurn setup task r
  closing _ r := r.Unpiped
  body _ r := r.Unpiped
  waits h _ _ := h
  sink h _ := h
  skip h := h
  restart {r} h := by
    obtain ⟨blocks, skip, cursor, hframe⟩ := restartBlock_frame r
    rwa [hframe]
  close {r} h := by
    obtain ⟨blocks, skip, hframe⟩ := closeCurrent_frame r
    rwa [hframe]
  report {r path index since} h hstatus now := by
    refine Halted.agreed ⟨nofun, ?_, ?_⟩ rfl
    · rw [h.piped, hstatus]
      rfl
    · rintro wait hwait
      obtain rfl := Status.suspended.inj hwait
      exact h.directive (.variable path index since) hstatus
  outside {r} h move := by
    cases move with
    | write stream chunk =>
      rw [OutsideMove.apply]
      split <;> exact h
    | send slot output =>
      rw [OutsideMove.apply, send]
      split
      · exact h
      · rename_i pipe hpipe
        rw [hpipe] at h
        exact h.sent _ slot output
    | createStream | endStream | release | copy | tick => exact h
  enter h := h.toHalted
  leave h hstatus := h.agreed hstatus
  feed h hpipe _ _ _ := ⟨h.stopped, by rw [← h.piped, hpipe]; rfl, h.directive⟩
  fail _ err := agreed_fail setup err _
  attach h hstatus _ := ⟨rfl, h.pipe_eq_none (by rw [hstatus]; rfl)⟩
  advance h hstatus := absurd hstatus h.stopped
  drain h hstatus := h.piping hstatus
  resume h hstatus _ := ⟨⟨rfl, h.pipe_eq_none (by rw [hstatus]; rfl)⟩, h.directive _ hstatus⟩
  next ht h := ht.onTurn h
  stop ht h := ht.agreed h
  arrive h _ := ⟨h.status, h.pipe⟩
  call h _ hreach := h.moved.reach hreach
  handBack h := h.1
  kept _ := unpiped_keptByBodies

end Render

open Render

/-- A known directive can be resumed. -/
theorem Setup.DirectiveAt.resumption {setup : Setup σ μ} {index : Nat} {d : Directive σ μ}
    (h : setup.DirectiveAt index d) (value : Value) :
    ∃ body, setup.resumption index value = .ok body := by
  obtain ⟨name, args, hget, hdir⟩ := h
  exact ⟨d.resume args value, Render.resumption_eq_ok hget hdir value⟩

variable [FilterStage σ] [OutputSink κ] {setup : Setup σ μ} {activity : Activity σ μ}
  {r : Render σ κ μ} {memory : μ} {lines : Lines} {clock : Instant}

/-- **Status, pipe and directive agree.** Whatever has been called, with whatever directives,
filters and sink, and whatever has happened outside, they agree while no call is in progress. And in
every call, whether it returns or not: a directive that a value is handed back to can be resumed,
and there is a pipe whenever one is to be drained. -/
theorem status_agrees (h : Moment setup (Render.fresh memory lines clock) activity r) :
    (activity = .rest → Agreed setup r.status r.pipe) ∧
      (∀ index value, activity = .turn (.resume index value) →
        ∃ body, setup.resumption index value = .ok body) ∧
      ∀ index, activity = .turn (.drain index) → ∃ pipe, r.pipe = some pipe := by
  have hmoment := (agreedInvariant setup κ).moment h (Halted.agreed (.of_none nofun nofun) rfl)
  refine ⟨?_, ?_, ?_⟩
  · rintro rfl
    exact hmoment
  · rintro index value rfl
    obtain ⟨-, d, hat⟩ := hmoment
    exact hat.resumption value
  · rintro index rfl
    exact Option.isSome_iff_exists.mp hmoment.1

/-- A variable goes through a filter whose end is left to whoever has its handle. -/
def endedFromOutside : Setup ScriptedStage Unit where
  template := ⟨[.literal "<", .directive "var" [.path ⟨["x"]⟩, .filter ⟨"keep", []⟩]]⟩
  directives := Directive.builtins
  filters := FilterRegistry.empty.register "keep" (ScriptedStage.construct "keep"
    { accept := [.echo], finish := [], keep := some "later" })

/-- A render that waits for a chain to be ended, and the pipe that it has when it is pumped. -/
theorem status_agrees_filter : ∃ r : Render ScriptedStage Collector Unit,
    HostCall.runAll endedFromOutside 9 [.attach {}, .set ⟨["x"]⟩ (.str "a"), .checkTimeout 5]
        (Render.fresh ()) =
      some ([.ok (), .ok (), .ok ()], r) ∧
    r.status = .suspended (.filter 1) ∧ r.sink = some ⟨["<", "a"], false⟩ ∧
    Agreed endedFromOutside r.status r.pipe ∧ ∃ pipe, r.pipe = some pipe := by
  obtain ⟨r, hrun, hstatus, hsink⟩ : ∃ r : Render ScriptedStage Collector Unit,
      HostCall.runAll endedFromOutside 9 [.attach {}, .set ⟨["x"]⟩ (.str "a"), .checkTimeout 5]
          (Render.fresh ()) = some ([.ok (), .ok (), .ok ()], r) ∧
        r.status = .suspended (.filter 1) ∧ r.sink = some ⟨["<", "a"], false⟩ :=
    ⟨_, rfl, rfl, rfl⟩
  have hhistory := History.start.runAll hrun
  have hbegins : HostCall.Begins endedFromOutside 9 .pump r (.drain 1) r :=
    .pump (by rw [hstatus]; rfl)
  exact ⟨r, hrun, hstatus, hsink, (status_agrees (.rest hhistory)).1 rfl,
    (status_agrees (.begins hhistory hbegins)).2.2 1 rfl⟩

end StreamingTemplate

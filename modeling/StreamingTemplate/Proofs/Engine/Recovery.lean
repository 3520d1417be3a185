import StreamingTemplate.Proofs.Engine.Calls
import StreamingTemplate.Proofs.Engine.Propagation

/-!
# Calls that return an error

A call of the host that returns an error was either refused, and then the render is as before and
can go on, or it has aborted the render, which never moves again.

* `HostCall.run_ended` — a call is refused, or returns an error exactly if it has aborted the
  render;
* `driveStep_cases` — what a driver does next, it does to a render that has not failed;
* `poll_error` — the errors of a driver are those of its calls.

By which errors the two can be told apart is said in `RejectedWrite`.
-/

namespace StreamingTemplate

open Render

variable {σ κ μ : Type} [FilterStage σ] [OutputSink κ] {setup : Setup σ μ}
  {start r r' : Render σ κ μ} {fuel : Nat}

/-! ## Calls of the host

`Served` tells what a call can do to a render. Only a run can abort it, or a sink that refuses
what has come for the pipe. -/

omit [FilterStage σ] [OutputSink κ] in
theorem Ended.wakeHosts {outcome : Except RenderError Unit} (woken : List Waiter)
    (h : Ended outcome r) : Ended outcome (wakeHosts woken r) := by
  obtain ⟨store, answers, hframe, -⟩ := wakeHosts_frame woken r
  rw [hframe]
  cases outcome with
  | ok => exact h
  | error err => exact ⟨h.failed, h.pipe⟩

/-- **A call of the host** on a render that has not failed is refused, or it returns an error
exactly if it has aborted the render. -/
theorem HostCall.run_ended {tickets : List String} (hin : r.InOrder [] tickets)
    (hlive : r.status ≠ .failed) {call : HostCall κ} (hproceeds : call.proceeds = true)
    {outcome : Except RenderError Unit} (hcall : call.run setup fuel r = some (outcome, r')) :
    (∃ err, outcome = .error err ∧ Refused r err r') ∨ Ended outcome r' := by
  cases served hin hlive hproceeds hcall with
  | quiet store answers => exact .inr hlive
  | refused h => exact .inl ⟨_, rfl, h⟩
  | ran hbegins hrun woken => exact .inr ((StreamingTemplate.run_ended hrun).wakeHosts woken)
  | unfed hpiping hemit => exact .inr (aborted_fail _ _)

/-! ## Drivers

A driver makes calls of its own, `set`, `checkTimeout`, and handing over what has come for the
pipe. So its error is looked for among theirs. -/

omit [FilterStage σ] [OutputSink κ] in
/-- What a driver does next, it does to a render that has not failed; a wait on the pipe may take
what it reports. -/
theorem driveStep_cases {now : Instant} {listening : Bool} {inbox : Inbox} {step : DriveStep}
    (h : driveStep setup now listening inbox r = (step, r')) :
    (step = .return ∧ r' = r) ∨ r.status ≠ .failed ∧
      ((∃ event, step = .event event ∧ r.waitPipe? = some (event, r')) ∨
        ((∀ event, step ≠ .event event) ∧ r' = r)) := by
  unfold driveStep at h
  dsimp only at h
  split at h
  · cases h
    exact .inl ⟨rfl, rfl⟩
  · rename_i hgoes
    have hlive : r.status ≠ .failed := by
      intro hfailed
      simp [hfailed, Status.isFinished] at hgoes
    refine .inr ⟨hlive, ?_⟩
    split at h
    · cases h
      exact .inr ⟨by simp, rfl⟩
    · split at h
      · cases h
        exact .inr ⟨by simp, rfl⟩
      · split at h
        · split at h <;> cases h <;> exact .inr ⟨by simp, rfl⟩
        · split at h
          · split at h
            · rename_i event r₁ hwait
              cases h
              exact .inl ⟨event, rfl, hwait⟩
            · cases h
              exact .inr ⟨by simp, rfl⟩
          · cases h
            exact .inr ⟨by simp, rfl⟩

omit [FilterStage σ] [OutputSink κ] in
/-- What has come for the pipe has come on one of its sides. -/
theorem waitPipe_side {event : Pipe.Event} (h : r.waitPipe? = some (event, r')) :
    ∃ side, r.waitSide? side = some (event, r') := by
  unfold waitPipe? at h
  split at h
  · cases h
  · rename_i pipe hpipe
    obtain ⟨waited, hwait, heq⟩ := Option.map_eq_some_iff.mp h
    rw [Pipe.wait?, Option.or_eq_some_iff] at hwait
    rcases hwait with hsource | ⟨-, hchain⟩
    · refine ⟨.source, ?_⟩
      rw [waitSide?, hpipe]
      exact Option.map_eq_some_iff.mpr ⟨waited, hsource, heq⟩
    · refine ⟨.chain, ?_⟩
      rw [waitSide?, hpipe]
      exact Option.map_eq_some_iff.mpr ⟨waited, hchain, heq⟩

/-- Behind a history, and behind some more calls that go well, a call on a render that has not
failed returns an error. -/
def ErrsBehind (setup : Setup σ μ) (start : Render σ κ μ)
    (record : List (HostCall κ × Except RenderError Unit)) (err : RenderError)
    (r' : Render σ κ μ) : Prop :=
  ∃ record' r₁ call fuel', History setup start (record ++ record') r₁ ∧
    (∀ entry ∈ record', entry.2 = .ok ()) ∧ r₁.status ≠ .failed ∧
    HostCall.proceeds call = true ∧ HostCall.run setup fuel' call r₁ = some (.error err, r')

section ErrsBehind

variable {record : List (HostCall κ × Except RenderError Unit)} {err : RenderError}
  {call : HostCall κ}

theorem ErrsBehind.last (h : History setup start record r) (hlive : r.status ≠ .failed)
    (hproceeds : call.proceeds = true) (hcall : call.run setup fuel r = some (.error err, r')) :
    ErrsBehind setup start record err r' := by
  refine ⟨[], r, call, fuel, ?_, by simp, hlive, hproceeds, hcall⟩
  rwa [List.append_nil]

theorem ErrsBehind.next (h : ErrsBehind setup start (record ++ [(call, .ok ())]) err r') :
    ErrsBehind setup start record err r' := by
  obtain ⟨record', r₁, call', fuel', hhistory, hok, hlive, hproceeds, hlast⟩ := h
  refine ⟨(call, .ok ()) :: record', r₁, call', fuel', ?_, ?_, hlive, hproceeds, hlast⟩
  · rwa [List.append_assoc] at hhistory
  · exact List.forall_mem_cons.mpr ⟨rfl, hok⟩

end ErrsBehind

/-- **A driver returns the errors of its calls**: each is that of a call on a render that has not
failed, behind calls that went well. -/
theorem poll_error {now : Instant} {listening : Bool} {inbox : Inbox} {d : Driven σ κ μ}
    {err : RenderError} {record : List (HostCall κ × Except RenderError Unit)}
    (h : History setup start record r) (hpoll : poll setup now fuel listening inbox r = some d)
    (herr : d.result = .returned (.error err)) : ErrsBehind setup start record err d.render := by
  induction fuel generalizing listening inbox r record with
  | zero => cases hpoll
  | succ fuel ih =>
    rw [poll] at hpoll
    rcases hstep : driveStep setup now listening inbox r with ⟨step, r'⟩
    rw [hstep] at hpoll
    dsimp only at hpoll
    obtain ⟨rfl, rfl⟩ | ⟨hlive, ⟨event, rfl, hwait⟩ | ⟨hquiet, rfl⟩⟩ := driveStep_cases hstep
    · cases hpoll
      cases herr
    · obtain ⟨side, hside⟩ := waitPipe_side hwait
      have hforward {o} (hfeed : feedPipe setup fuel event r' = some o) :
          HostCall.run setup fuel (.forward side) r = some o := by
        rw [HostCall.run, hside]
        exact hfeed
      dsimp only at hpoll
      split at hpoll
      · cases hpoll
      · rename_i hfeed
        exact (ih (h.call (hforward hfeed)) hpoll).next
      · rename_i hfeed
        cases hpoll
        cases herr
        exact .last h hlive rfl (hforward hfeed)
    · cases step with
      | «return» | wait =>
        cases hpoll
        cases herr
      | closed => exact ih h hpoll
      | command path value rest =>
        dsimp only at hpoll
        split at hpoll
        · cases hpoll
        · rename_i r₁ hset
          have hcall : HostCall.run setup fuel (.set path value) r' = some (.ok (), r₁) := hset
          exact (ih (h.call hcall) hpoll).next
        · rename_i err' r₁ hset
          cases hpoll
          cases herr
          have hcall : HostCall.run setup fuel (.set path value) r' = some (.error err, r₁) := hset
          exact .last h hlive rfl hcall
      | timeout deadline =>
        dsimp only at hpoll
        split at hpoll
        · rename_i r₁ hcheck
          have hcall : HostCall.run setup fuel (.checkTimeout deadline) r' = some (.ok (), r₁) :=
            congrArg some hcheck
          exact (ih (h.call hcall) hpoll).next
        · rename_i err' r₁ hcheck
          cases hpoll
          cases herr
          have hcall :
              HostCall.run setup fuel (.checkTimeout deadline) r' = some (.error err, r₁) :=
            congrArg some hcheck
          exact .last h hlive rfl hcall
      | event event => exact absurd rfl (hquiet event)

end StreamingTemplate

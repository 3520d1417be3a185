import StreamingTemplate.Proofs.Engine.Finished

/-!
# What a call of the host comes down to

A call that lets the render go on starts one run at most. `HostCall.Served` lists what such a call
can come down to: nothing runs, the call is refused, one run begins and its outcome is that of the
call, or the output of a chain is refused before a run begins. That a write resumes the render once
at most is what the accounting of waits says (`HostCall.served_set`); for the other calls it can be
read off (`HostCall.served`).
-/

namespace StreamingTemplate

open Render

variable {σ κ μ : Type}

/-- A call that was refused: nothing has changed, but that the time of a reported wait starts
again. -/
structure Refused (r : Render σ κ μ) (err : RenderError) (r' : Render σ κ μ) : Prop where
  recoverable : err.isRecoverable = true
  live : r'.status ≠ .failed
  kept : r' = r ∨ ∃ path index since now, r.status = .suspended (.variable path index since) ∧
    r' = { r with status := .suspended (.variable path index now) }

variable [FilterStage σ] [OutputSink κ] {setup : Setup σ μ} {r r' : Render σ κ μ} {fuel : Nat}
  {outcome : Except RenderError Unit}

/-- What a call that lets the render go on comes down to. -/
inductive HostCall.Served (setup : Setup σ μ) (fuel : Nat) (call : HostCall κ) (r : Render σ κ μ) :
    Except RenderError Unit → Render σ κ μ → Prop where
  /-- nothing runs; questions of the host may be answered and parked -/
  | quiet (store : Store Waiter) (answers : List (String × Value)) :
    Served setup fuel call r (.ok ()) { r with store, answers }
  | refused {err r'} (h : Refused r err r') : Served setup fuel call r (.error err) r'
  /-- one run, and then the rest of the questions that were woken -/
  | ran {task r₁ outcome r₂} (hbegins : HostCall.Begins setup fuel call r task r₁)
    (hrun : Render.run setup fuel task r₁ = some (outcome, r₂)) (woken : List Waiter) :
    Served setup fuel call r outcome (wakeHosts woken r₂)
  /-- what was waited for makes the chain put out what the sink refuses -/
  | unfed {pipe lines chunks err r₁} (hpiping : r.status.piping? ≠ none)
    (hemit : emitAll chunks { r with pipe, lines } = (.error err, r₁)) :
    Served setup fuel call r (.error err) (fail err r₁).2

omit [FilterStage σ] [OutputSink κ] in
/-- A write wakes the render once at most. -/
theorem Render.InOrder.woken_once {tickets : List String} (hin : r.InOrder [] tickets) {path : Path}
    {value : Value} {store : Store Waiter} {before later : List Waiter}
    (hwrite : r.store.set path value = .ok (store, before ++ .engine :: later)) :
    .engine ∉ before ∧ .engine ∉ later := by
  have hcount := (hin.accounted.set hwrite).own_le
  simp only [List.count_append, List.count_cons_self, List.append_nil] at hcount
  exact ⟨List.count_eq_zero.mp (by omega), List.count_eq_zero.mp (by omega)⟩

omit [FilterStage σ] [OutputSink κ] in
/-- Questions before and behind a wait that is parked again. -/
theorem wakeHosts_around (before later : List Waiter) (store : Store Waiter)
    (r : Render σ κ μ) : ∃ store' answers,
    wakeHosts later { wakeHosts before r with store } = { r with store := store', answers } := by
  obtain ⟨store₁, answers₁, hbefore, -⟩ := wakeHosts_frame before r
  obtain ⟨store₂, answers₂, hlater, -⟩ := wakeHosts_frame later { wakeHosts before r with store }
  refine ⟨store₂, answers₂, hlater.trans ?_⟩
  rw [hbefore]

namespace HostCall

variable {call : HostCall κ}

theorem Served.unchanged : Served setup fuel call r (.ok ()) r := .quiet r.store r.answers

/-- The run of a call that wakes nobody. -/
theorem Served.run {task : Render.Task σ} {r₁ : Render σ κ μ}
    (hbegins : Begins setup fuel call r task r₁)
    (hrun : Render.run setup fuel task r₁ = some (outcome, r')) :
    Served setup fuel call r outcome r' := .ran hbegins hrun []

/-- **A write of the host** is rejected, or the waits that it wakes are served; the render is among
them once at most, and then the outcome is that of its run. -/
theorem served_set {tickets : List String} (hin : r.InOrder [] tickets)
    (hlive : r.status ≠ .failed) {path : Path} {value : Value}
    (hset : Render.set setup fuel path value r = some (outcome, r')) :
    Served setup fuel (.set path value) r outcome r' := by
  rw [Render.set] at hset
  split at hset
  · rename_i err hwrite
    cases hset
    exact .refused ⟨Store.set_error hwrite, hlive, .inl rfl⟩
  · rename_i store woken hwrite
    -- the render's own wait splits the woken ones; those around it are the host's and run nothing
    by_cases hmem : .engine ∈ woken
    · obtain ⟨before, later, rfl⟩ := List.append_of_mem hmem
      obtain ⟨hbefore, hlater⟩ := hin.woken_once hwrite
      have hwake : wake setup fuel before (.ok (), { r with store }) = some (.ok (), _) :=
        wake_of_not_mem hbefore _
      rw [wake_append, hwake, Option.bind_some, Render.wake] at hset
      split at hset
      · cases hset
      · rename_i o hresume
        rw [wake_of_not_mem hlater] at hset
        cases hset
        unfold resumeParked at hresume
        split at hresume
        · rename_i path' index since hsuspended
          split at hresume
          · -- what it waits for is still missing, and the wait is parked again
            cases hresume
            obtain ⟨store', answers, hframe⟩ := wakeHosts_around before later _ { r with store }
            exact hframe ▸ .quiet store' answers
          · rename_i found hres
            exact .ran (.set hwrite hwake hsuspended hres) hresume later
        · -- it no longer waits for a variable, and the wait is dropped
          cases hresume
          obtain ⟨store', answers, hframe⟩ := wakeHosts_around before later
            (wakeHosts before { r with store }).store { r with store }
          exact hframe ▸ .quiet store' answers
    · rw [wake_of_not_mem hmem] at hset
      cases hset
      obtain ⟨store', answers, hframe, -⟩ := wakeHosts_frame woken { r with store }
      exact hframe ▸ .quiet store' answers

/-- Forwarding what the pipe has, given how the run of it begins. -/
theorem served_pump {r₁ : Render σ κ μ} (hpump : Render.pump setup fuel r₁ = some (outcome, r'))
    (hquiet : r₁.status.piping? = none → Served setup fuel call r (.ok ()) r₁)
    (hbegins : ∀ index, r₁.status.piping? = some index →
      Begins setup fuel call r (.drain index) r₁) :
    Served setup fuel call r outcome r' := by
  rw [Render.pump] at hpump
  split at hpump
  · rename_i index hpiping
    exact .run (hbegins index hpiping) hpump
  · rename_i hstatus
    cases hpump
    exact hquiet hstatus

/-- Handing over what was waited for, given how the run of it begins. What was waited for may have
been taken from the pipe before. -/
theorem served_feedPipe {pipe : Option (Pipe σ)} {lines : Lines} {event : Pipe.Event}
    (hfeed : Render.feedPipe setup fuel event { r with pipe, lines } = some (outcome, r'))
    (hunpiped : r.status.piping? = none → pipe = none)
    (hquiet : pipe = none → Served setup fuel call r (.ok ()) { r with pipe, lines })
    (hbegins : ∀ {task r₁}, Begins setup fuel (.feed event) { r with pipe, lines } task r₁ →
      Begins setup fuel call r task r₁) : Served setup fuel call r outcome r' := by
  unfold Render.feedPipe at hfeed
  split at hfeed
  · rename_i chunk pipe₁ hpipe
    split at hfeed
    · cases hfeed
    · rename_i passed hpass
      split at hfeed
      · -- the chunk was passed on before the sink refused, so this is no refused call
        rename_i err r₁ hemit
        cases hfeed
        exact .unfed (fun hnone => by cases (hunpiped hnone).symm.trans hpipe) hemit
      · rename_i r₁ hemit
        refine served_pump hfeed (fun hnone => ?_) fun index hpiping =>
          hbegins (.feedChunk hpipe hpass hemit hpiping)
        -- a render with a pipe forwards it
        obtain ⟨sink, rfl⟩ := exists_of_emitAll hemit
        cases (hunpiped hnone).symm.trans hpipe
  · rename_i hnone
    refine served_pump hfeed (fun hstatus => hquiet (hunpiped hstatus)) fun index hpiping =>
      hbegins (.feed ?_ hpiping)
    intro chunk hchunk
    rcases hpipe : pipe with _ | pipe₁
    · rfl
    · exact absurd hpipe (hnone chunk pipe₁ hchunk)

/-- **What a call comes down to** that lets the render go on. -/
theorem served {tickets : List String} (hin : r.InOrder [] tickets) (hlive : r.status ≠ .failed)
    (hproceeds : call.proceeds = true) (hcall : call.run setup fuel r = some (outcome, r')) :
    Served setup fuel call r outcome r' := by
  cases call with
  | emit | skip | restart | close => cases hproceeds
  | attach sink =>
    rw [run, Render.attach] at hcall
    split at hcall
    · rename_i hidle
      exact .run (.attach hidle) hcall
    · cases hcall
      exact .unchanged
  | advance =>
    rw [run, Render.advance] at hcall
    split at hcall
    · rename_i hrunning
      exact .run (.advance hrunning) hcall
    · cases hcall
      exact .unchanged
  | pump => exact served_pump hcall (fun _ => .unchanged) fun index hpiping => .pump hpiping
  | set path value => exact served_set hin hlive hcall
  | get path ticket =>
    rw [run, Render.get] at hcall
    split at hcall <;> cases hcall
    · exact .refused ⟨rfl, hlive, .inl rfl⟩
    · obtain ⟨store, answers, hframe, -⟩ := ask_frame path ticket r
      exact hframe ▸ .quiet store answers
  | checkTimeout now =>
    rw [run, Render.checkTimeout] at hcall
    split at hcall
    · rename_i timeout path index since htimeout hstatus
      dsimp only at hcall
      split at hcall <;> cases hcall
      · exact .refused ⟨rfl, by simp, .inr ⟨path, index, since, now, hstatus, rfl⟩⟩
      · exact .unchanged
    · cases hcall
      exact .unchanged
  | feed event =>
    exact served_feedPipe hcall hin.unpiped (fun _ => .unchanged) fun hbegins => hbegins
  | forward side =>
    rw [run] at hcall
    rcases hwait : r.waitSide? side with _ | ⟨event, r₁⟩ <;> rw [hwait] at hcall
    · cases hcall
      exact .unchanged
    · obtain ⟨pipe, pipe', lines, hpipe, rfl⟩ := Invariant.waitSide_frame hwait
      refine served_feedPipe hcall (fun hstatus => ?_) (fun hnone => ?_)
        fun hbegins => .forward hwait hbegins
      · cases (hin.unpiped hstatus).symm.trans hpipe
      · cases hnone

end HostCall

end StreamingTemplate

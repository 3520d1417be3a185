import StreamingTemplate.Proofs.Engine.Calls

/-!
# The instant of a wait

A render that waits for a variable knows since when. No call reads this instant but a check: a call
with which the wait goes on does the same whenever it began, and keeps the instant; a call that ends
the wait forgets it; and a wait that begins, begins at the present.

* `Render.waitingSince` — the same render with another instant for its wait;
* `HostCall.leavesWaiting` — the render waits for a variable, and the call does not make it resolve;
* `HostCall.run_leaving`, `HostCall.run_ending` — what a call does to a wait that goes on, and what
  it does otherwise.
-/

namespace StreamingTemplate

variable {σ κ μ : Type}

/-! ## The instant of a wait

`Render.waitingSince` puts another instant in the place of the one since which the render waits,
if it waits for a variable at all. A statement that something does not depend on the instant is
then an equation: the operation commutes with `waitingSince`. -/

/-- The status with another instant since which a variable is waited for. -/
def Status.waitingSince (since : Instant) : Status → Status
  | .suspended (.variable path directive _) => .suspended (.variable path directive since)
  | status => status

/-- Without a wait for a variable there is no instant to replace. -/
theorem Status.waitingSince_of_awaited_none {status : Status} (h : status.awaited? = none)
    (since : Instant) : status.waitingSince since = status := by
  rcases status with _ | _ | (_ | _ | _) | _ | _
  case suspended.variable => cases h
  all_goals rfl

@[simp] theorem Status.waitingSince_waitingSince (status : Status) (since since' : Instant) :
    (status.waitingSince since').waitingSince since = status.waitingSince since := by
  rcases status with _ | _ | (_ | _ | _) | _ | _ <;> rfl

@[simp] theorem Status.awaited?_waitingSince (status : Status) (since : Instant) :
    (status.waitingSince since).awaited? = status.awaited? := by
  rcases status with _ | _ | (_ | _ | _) | _ | _ <;> rfl

theorem Status.exists_of_awaited {status : Status} {path : Path}
    (h : status.awaited? = some path) :
    ∃ directive since, status = .suspended (.variable path directive since) := by
  rcases status with _ | _ | (⟨path', directive, since⟩ | _ | _) | _ | _ <;> cases h
  exact ⟨directive, since, rfl⟩

namespace Render

/-- The render with another instant since which it waits for a variable. -/
def waitingSince (since : Instant) (r : Render σ κ μ) : Render σ κ μ :=
  { r with status := r.status.waitingSince since }

theorem waitingSince_of_awaited_none {r : Render σ κ μ} (h : r.status.awaited? = none)
    (since : Instant) : r.waitingSince since = r := by
  rw [waitingSince, Status.waitingSince_of_awaited_none h]

@[simp] theorem waitingSince_waitingSince (r : Render σ κ μ) (since since' : Instant) :
    (r.waitingSince since').waitingSince since = r.waitingSince since := by
  simp [waitingSince]

/-- Replacing the instant changes nothing exactly if it was that instant, or if there is no wait. -/
theorem waitingSince_eq_self_iff {r : Render σ κ μ} {since : Instant} :
    r.waitingSince since = r ↔ r.status.waitingSince since = r.status := by
  refine ⟨fun h => congrArg Render.status h, fun h => ?_⟩
  rw [waitingSince, h]

/-- A wait has one instant. -/
theorem since_eq {r : Render σ κ μ} {path : Path} {index : Nat} {since since' : Instant}
    (hsince : r.waitingSince since = r)
    (hstatus : r.status = .suspended (.variable path index since')) : since = since' := by
  have hself := waitingSince_eq_self_iff.mp hsince
  rw [hstatus] at hself
  exact (Wait.variable.inj (Status.suspended.inj hself)).2.2

/-- A question of the host does not look at the wait of the render. -/
theorem ask_waitingSince (path : Path) (ticket : String) (since : Instant) (r : Render σ κ μ) :
    (r.waitingSince since).ask path ticket = (r.ask path ticket).waitingSince since := by
  rw [ask, ask]
  rcases hres : r.store.resolve path with _ | value <;>
    simp only [waitingSince, hres]

/-- Waits of the host are woken without a look at that of the render. -/
theorem wakeHosts_waitingSince (woken : List Waiter) (since : Instant) (r : Render σ κ μ) :
    wakeHosts woken (r.waitingSince since) = (wakeHosts woken r).waitingSince since := by
  induction woken generalizing r with
  | nil => rfl
  | cons wait rest ih =>
    cases wait with
    | engine => exact ih r
    | host path ticket =>
      rw [wakeHosts, ask_waitingSince]
      exact ih _

/-- Neither do moves outside. -/
theorem outside_waitingSince (move : OutsideMove) (since : Instant) (r : Render σ κ μ) :
    move.apply (r.waitingSince since) = (move.apply r).waitingSince since := by
  cases move with
  | write stream chunk =>
    cases hopen : (r.lines.streams.state stream).writerOpen <;>
      simp [OutsideMove.apply, waitingSince, hopen]
  | send slot output =>
    rcases hpipe : r.pipe with _ | pipe <;>
      simp only [OutsideMove.apply, waitingSince, send, hpipe]
  | createStream | endStream | release | copy | tick => rfl

/-! ## Waits that begin

A wait is given the time of the clock at which it begins, and the clock does not move inside of a
call. So the instant of a wait in which a run stops is that of the render with which the run
began (`Turned.began`, `run_began`). -/

section Runs

variable [OutputSink κ] {r r' : Render σ κ μ}

/-- The clock stands still in bodies. -/
theorem clock_keptByBodies (now : Instant) :
    KeptByBodies (fun r : Render σ κ μ => r.clock = now) := by
  refine .of_frame (fun _ _ _ _ _ _ _ h => h) fun path value r h => ?_
  obtain ⟨store, answers, hframe⟩ := setWithin_frame path value r
  rw [hframe]
  exact h

omit [OutputSink κ] in
theorem reach_clock {d : Directive σ μ} {index : Nat} {res : Except RenderError Nat}
    (hreach : reach d index r = (res, r')) : r'.clock = r.clock := by
  obtain ⟨blocks, skip, rfl⟩ := exists_of_reach hreach
  rfl

/-- Emitting leaves the clock alone, -/
theorem emitAll_clock {chunks : List String} {res : Except RenderError Unit}
    (hemit : emitAll chunks r = (res, r')) : r'.clock = r.clock := by
  obtain ⟨sink, rfl⟩ := exists_of_emitAll hemit
  rfl

omit [OutputSink κ] in
/-- and so does dropping the pipe. -/
theorem dropPipe_clock (r : Render σ κ μ) : r.dropPipe.clock = r.clock := by
  rw [dropPipe]
  split <;> rfl

/-- A render that has run to its end waits for nothing. -/
theorem complete_awaited (r : Render σ κ μ) : (complete r).2.status.awaited? = none := by
  rw [complete]
  split
  · rfl
  · split <;> rfl

variable [FilterStage σ] {setup : Setup σ μ} {fuel : Nat} {outcome : Except RenderError Unit}

/-- The clock stands still in a turn that goes on. -/
theorem Turned.clock {task next : Task σ} (ht : Turned setup fuel task r (.next next) r') :
    r'.clock = r.clock := by
  cases ht with
  | literalSkipped | advanced | resolved | piped | draining | nothingToDrain => rfl
  | literalEmitted hget hskip hemit =>
    obtain ⟨sink, rfl⟩ := exists_of_emit hemit
    rfl
  | passedBy hget hdir hreach hskip =>
    exact reach_clock (r := { r with cursor := r.cursor + 1 }) hreach
  | called hget hdir hreach hskip hbody =>
    exact (clock_keptByBodies _).perform hbody
      (reach_clock (r := { r with cursor := r.cursor + 1 }) hreach)
  | resumed hresume hbody => exact (clock_keptByBodies _).perform hbody rfl
  | closed hpipe hread hemit =>
    exact (dropPipe_clock _).trans
      (emitAll_clock (r := { r with pipe := some _, lines := _ }) hemit)

/-- A wait in which a run stops has begun now. -/
theorem Turned.began {task : Task σ} (ht : Turned setup fuel task r (.stop outcome) r') :
    r'.waitingSince r.clock = r' := by
  cases ht with
  | complete hget => exact waitingSince_of_awaited_none (complete_awaited r) _
  | suspended hres => rfl
  | drained hpipe hread hemit =>
    refine waitingSince_of_awaited_none ?_ _
    change Status.awaited? (.suspended (if _ then _ else _)) = none
    split <;> rfl
  | _ => exact waitingSince_of_awaited_none rfl _

/-- **A run**: a wait in which it stops has begun now. The clock is carried from turn to turn. -/
theorem run_began {task : Task σ} (hrun : run setup fuel task r = some (outcome, r')) :
    r'.waitingSince r.clock = r' :=
  run_induction (I := fun _ r₁ => r₁.clock = r.clock)
    (Q := fun _ r' => r'.waitingSince r.clock = r')
    (fun ht hclock => ht.clock.trans hclock) (fun ht hclock => hclock ▸ ht.began) hrun rfl

/-- A pump is a run or does nothing, -/
theorem pump_began (hawaited : r.status.awaited? = none)
    (hpump : pump setup fuel r = some (outcome, r')) : r'.waitingSince r.clock = r' := by
  rw [pump] at hpump
  split at hpump
  · exact run_began hpump
  · cases hpump
    exact waitingSince_of_awaited_none hawaited _

/-- and feeding the pipe is a pump after a chunk was passed on and emitted, neither of which
moves the clock. -/
theorem feedPipe_began {event : Pipe.Event} (hawaited : r.status.awaited? = none)
    (hfeed : feedPipe setup fuel event r = some (outcome, r')) :
    r'.waitingSince r.clock = r' := by
  unfold feedPipe at hfeed
  split at hfeed
  · split at hfeed
    · cases hfeed
    · rename_i p hpass
      split at hfeed
      · cases hfeed
        exact waitingSince_of_awaited_none rfl _
      · rename_i r₁ hemit
        obtain ⟨sink, rfl⟩ := exists_of_emitAll hemit
        exact pump_began (r := { r with pipe := some p.pipe, lines := p.lines, sink }) hawaited
          hfeed
  · exact pump_began hawaited hfeed

end Runs

/-! ## Waits that go on

An operation that the host may call while the render waits is compared with itself on a render
that waits since another instant. All of them commute with `waitingSince`, also those that change
the place of the render, such as closing a block. -/

section Leaving

variable {r : Render σ κ μ} {path : Path} {index : Nat} {since : Instant}

theorem emit_waitingSince [OutputSink κ] (chunk : String) (since : Instant) (r : Render σ κ μ) :
    (r.waitingSince since).emit chunk =
      ((r.emit chunk).1, (r.emit chunk).2.waitingSince since) := by
  rw [emit, emit]
  rcases hsink : r.sink with _ | sink <;> simp only [waitingSince, hsink]
  rcases OutputSink.accept sink chunk with ⟨sink', _ | reason⟩ <;> rfl

theorem closeBlock_waitingSince (index : Nat) (since : Instant) (r : Render σ κ μ) :
    (r.waitingSince since).closeBlock index =
      ((r.closeBlock index).1, (r.closeBlock index).2.waitingSince since) := by
  rw [closeBlock, closeBlock]
  rcases hpop : r.blocks.pop? with _ | ⟨frame, blocks⟩ <;> simp only [waitingSince, hpop]

theorem restartBlock_waitingSince (since : Instant) (r : Render σ κ μ) :
    (r.waitingSince since).restartBlock =
      (r.restartBlock.1, r.restartBlock.2.waitingSince since) := by
  rw [restartBlock, restartBlock, closeBlock_waitingSince]
  rcases hclose : r.closeBlock r.currentIndex with ⟨err | frame, r'⟩ <;>
    simp only [waitingSince, currentIndex] at hclose ⊢ <;> rw [hclose]

theorem closeCurrent_waitingSince (since : Instant) (r : Render σ κ μ) :
    (r.waitingSince since).closeCurrent =
      (r.closeCurrent.1, r.closeCurrent.2.waitingSince since) := by
  rw [closeCurrent, closeCurrent, closeBlock_waitingSince]
  rcases hclose : r.closeBlock r.currentIndex with ⟨err | frame, r'⟩ <;>
    simp only [waitingSince, currentIndex] at hclose ⊢ <;> rw [hclose]

variable [FilterStage σ] [OutputSink κ] {setup : Setup σ μ} {fuel : Nat}

/-- Waits that are woken while that of the render goes on. The engine is among them at most once;
it finds no value and waits again, and this changes only the store and the answers. -/
theorem wake_waiting (setup : Setup σ μ) (fuel : Nat) (woken : List Waiter)
    (hstatus : r.status = .suspended (.variable path index since))
    (hres : r.store.resolve path = none) :
    ∃ store answers, ∀ since', wake setup fuel woken (.ok (), r.waitingSince since') =
      some (.ok (), { r.waitingSince since' with store, answers }) := by
  induction woken generalizing r with
  | nil => exact ⟨r.store, r.answers, fun _ => rfl⟩
  | cons wait rest ih =>
    cases wait with
    | host path' ticket =>
      obtain ⟨store, answers, hframe, hvars⟩ := ask_frame path' ticket r
      obtain ⟨store', answers', hrest⟩ := ih (r := r.ask path' ticket)
        ((ask_status path' ticket r).trans hstatus)
        (by rw [hframe, Store.resolve, hvars]; exact hres)
      refine ⟨store', answers', fun since' => ?_⟩
      rw [wake, ask_waitingSince, hrest since', hframe]
      rfl
    | engine =>
      obtain ⟨store, answers, hrest⟩ :=
        ih (r := { r with store := r.store.subscribe path .engine }) hstatus hres
      refine ⟨store, answers, fun since' => ?_⟩
      have hresume : resumeParked setup fuel (r.waitingSince since') = some (.ok (),
          { r with store := r.store.subscribe path .engine }.waitingSince since') := by
        simp only [resumeParked, waitingSince, hstatus, Status.waitingSince, hres]
      rw [wake, hresume]
      exact hrest since'

end Leaving

end Render

/-! ## Calls

Every call falls under one of two laws, by whether the wait of the render goes on after it
(`leavesWaiting`). Only a write can decide this, by making the path resolve or not. -/

namespace HostCall

/-- The call asks for a report. -/
def isCheck : HostCall κ → Bool
  | .checkTimeout _ => true
  | _ => false

/-- The render waits for a variable, and the call does not make it resolve. -/
def leavesWaiting (call : HostCall κ) (r : Render σ κ μ) : Bool :=
  match r.status.awaited?, call with
  | none, _ => false
  | some awaited, .set path value =>
    match r.store.set path value with
    | .ok (store, _) => (store.resolve awaited).isNone
    | .error _ => true
  | some _, _ => true

open Render

variable [FilterStage σ] [OutputSink κ] {setup : Setup σ μ} {fuel : Nat} {call : HostCall κ}
  {r r' : Render σ κ μ} {outcome : Except RenderError Unit}

/-- **A wait that goes on.** The call returns, leaves the status as it is, and does the same
whenever the wait began. -/
theorem run_leaving (setup : Setup σ μ) (fuel : Nat) {tickets : List String}
    (hin : r.InOrder [] tickets) (hleaves : call.leavesWaiting r = true)
    (hcheck : call.isCheck = false) :
    ∃ (outcome : Except RenderError Unit) (r' : Render σ κ μ), r'.status = r.status ∧
      ∀ since, call.run setup fuel (r.waitingSince since) =
        some (outcome, r'.waitingSince since) := by
  have hawaited : r.status.awaited? ≠ none := fun hnone => by
    -- a render that waits for no variable is not left waiting
    unfold leavesWaiting at hleaves
    rw [hnone] at hleaves
    cases hleaves
  obtain ⟨awaited, hawaited⟩ := Option.ne_none_iff_exists'.mp hawaited
  obtain ⟨index, since₀, hstatus⟩ := Status.exists_of_awaited hawaited
  have hpipe : r.pipe = none := hin.unpiped (by rw [hstatus]; rfl)
  have hnot : ∀ since, (r.waitingSince since).status =
      .suspended (.variable awaited index since) := fun since => by
    rw [waitingSince, hstatus]
    rfl
  cases call with
  -- the render has started and has no pipe, so these three find nothing to do
  | attach sink =>
    refine ⟨.ok (), r, rfl, fun since => ?_⟩
    rw [run, Render.attach, if_neg (fun hcreated => by rw [hnot] at hcreated; cases hcreated)]
  | advance =>
    refine ⟨.ok (), r, rfl, fun since => ?_⟩
    rw [run, Render.advance, if_neg (fun hcreated => by rw [hnot] at hcreated; cases hcreated)]
  | pump =>
    refine ⟨.ok (), r, rfl, fun since => ?_⟩
    rw [run, Render.pump, hnot]
    rfl
  | set path value =>
    unfold leavesWaiting at hleaves
    rw [hawaited] at hleaves
    rcases hset : r.store.set path value with err | ⟨store, woken⟩
    · refine ⟨.error err, r, rfl, fun since => ?_⟩
      simp only [run, Render.set, waitingSince, hset]
    · simp only [hset, Option.isNone_iff_eq_none] at hleaves
      obtain ⟨store', answers, hwake⟩ := wake_waiting (r := { r with store }) setup fuel woken
        hstatus hleaves
      refine ⟨.ok (), { r with store := store', answers }, rfl, fun since => ?_⟩
      have : Render.set setup fuel path value (r.waitingSince since) =
          wake setup fuel woken (.ok (), { r with store }.waitingSince since) := by
        simp only [Render.set, waitingSince, hset]
      rw [run, this, hwake since]
      rfl
  | get path ticket =>
    cases hempty : path.isEmpty
    · refine ⟨.ok (), r.ask path ticket, ask_status path ticket r, fun since => ?_⟩
      rw [run, Render.get, hempty, ask_waitingSince]
      rfl
    · refine ⟨.error (.malformedPath path .empty), r, rfl, fun since => ?_⟩
      rw [run, Render.get, hempty]
      rfl
  | checkTimeout now => cases hcheck
  -- effects of bodies, which a host may call by itself, do not look at the status
  | emit chunk =>
    obtain ⟨sink, hframe⟩ := emit_frame chunk r
    refine ⟨(r.emit chunk).1, (r.emit chunk).2, by rw [hframe], fun since => ?_⟩
    rw [run, emit_waitingSince]
  | skip => exact ⟨.ok (), r.skipBlock, rfl, fun since => rfl⟩
  | restart =>
    obtain ⟨blocks, skip, cursor, hframe⟩ := restartBlock_frame r
    refine ⟨r.restartBlock.1, r.restartBlock.2, by rw [hframe], fun since => ?_⟩
    rw [run, restartBlock_waitingSince]
  | close =>
    obtain ⟨blocks, skip, hframe⟩ := closeCurrent_frame r
    refine ⟨r.closeCurrent.1, r.closeCurrent.2, by rw [hframe], fun since => ?_⟩
    rw [run, closeCurrent_waitingSince]
  -- a render that waits for a variable has no pipe to feed
  | feed event =>
    refine ⟨.ok (), r, rfl, fun since => ?_⟩
    rw [run, feedPipe_of_none (r := r.waitingSince since) hpipe, Render.pump, hnot]
    rfl
  | forward side =>
    refine ⟨.ok (), r, rfl, fun since => ?_⟩
    have hside : (r.waitingSince since).waitSide? side = none := by
      simp only [waitSide?, waitingSince, hpipe]
    rw [run, hside]

/-- A call on a render that does not wait: a wait that is there afterwards has begun now. -/
theorem run_began (hawaited : r.status.awaited? = none) (hcheck : call.isCheck = false)
    (hcall : call.run setup fuel r = some (outcome, r')) : r'.waitingSince r.clock = r' := by
  have hkept : r'.status = r.status → r'.waitingSince r.clock = r' := fun hstatus =>
    waitingSince_of_awaited_none (by rw [hstatus, hawaited]) _
  cases call with
  | attach sink =>
    rw [run, Render.attach] at hcall
    split at hcall
    · exact Render.run_began (r := { r with sink := some sink, status := .running }) hcall
    · cases hcall
      exact hkept rfl
  | advance =>
    rw [run, Render.advance] at hcall
    split at hcall
    · exact Render.run_began hcall
    · cases hcall
      exact hkept rfl
  | pump => exact pump_began hawaited hcall
  | set path value =>
    obtain ⟨store, answers, hframe⟩ := setWithin_frame path value r
    rw [run, set_eq_setWithin hawaited] at hcall
    obtain rfl : _ = r' := congrArg Prod.snd (Option.some.inj hcall)
    exact hkept (by rw [hframe])
  | get path ticket =>
    rw [run, Render.get] at hcall
    split at hcall <;> cases hcall
    · exact hkept rfl
    · exact hkept (ask_status path ticket r)
  | checkTimeout now => cases hcheck
  | emit chunk =>
    obtain ⟨sink, hframe⟩ := emit_frame chunk r
    obtain rfl : _ = r' := congrArg Prod.snd (Option.some.inj hcall)
    exact hkept (by rw [hframe])
  | skip =>
    cases hcall
    exact hkept rfl
  | restart =>
    obtain ⟨blocks, skip, cursor, hframe⟩ := restartBlock_frame r
    obtain rfl : _ = r' := congrArg Prod.snd (Option.some.inj hcall)
    exact hkept (by rw [hframe])
  | close =>
    obtain ⟨blocks, skip, hframe⟩ := closeCurrent_frame r
    obtain rfl : _ = r' := congrArg Prod.snd (Option.some.inj hcall)
    exact hkept (by rw [hframe])
  | feed event => exact feedPipe_began hawaited hcall
  | forward side =>
    rw [run] at hcall
    rcases hwait : r.waitSide? side with _ | ⟨event, r₁⟩ <;> rw [hwait] at hcall
    · cases hcall
      exact hkept rfl
    · obtain ⟨pipe, pipe', lines, -, rfl⟩ := Invariant.waitSide_frame hwait
      exact feedPipe_began (r := { r with pipe := some pipe', lines }) hawaited hcall

/-- **A write that ends the wait** wakes the render once, which runs on without a look at when its
wait began. -/
theorem set_ending (setup : Setup σ μ) (fuel : Nat) {tickets : List String}
    (hin : r.InOrder [] tickets) {awaited path : Path} {value found : Value}
    {store : Store Waiter} {woken : List Waiter}
    (hawaited : r.status.awaited? = some awaited)
    (hset : r.store.set path value = .ok (store, woken))
    (hres : store.resolve awaited = some found) :
    ∃ index r₁ later, r₁.clock = r.clock ∧ .engine ∉ later ∧
      ∀ since, Render.set setup fuel path value (r.waitingSince since) =
        (Render.run setup fuel (.resume index found) r₁).bind (wake setup fuel later) := by
  obtain ⟨index, since₀, hstatus⟩ := Status.exists_of_awaited hawaited
  obtain ⟨hwrite, -, hwoken⟩ := Store.set_eq_ok hset
  -- the render's own wait is parked where the write looks, because the write made its path resolve
  have hparked : (awaited.waitKey, Waiter.engine) ∈ r.store.parked := by
    have hown : (awaited.waitKey, Waiter.engine) ∈ r.store.parked.filter (·.2 = .engine) := by
      rw [hin.accounted.filter_own, hawaited]
      exact List.mem_singleton_self _
    exact (List.mem_filter.mp hown).1
  have hnone := (hin.accounted.parked _ _ hparked awaited hawaited).2
  have hkey : awaited.waitKey = path.waitKey := by
    refine Decidable.byContradiction fun hne => ?_
    have hsame := Store.lookup_write_of_ne hwrite hne
    cases hres.symm.trans (hsame.trans hnone)
  have hmem : Waiter.engine ∈ woken := by
    rw [hwoken]
    exact List.mem_map.mpr ⟨_, List.mem_filter.mpr ⟨hparked, by simpa using hkey⟩, rfl⟩
  obtain ⟨before, later, rfl⟩ := List.append_of_mem hmem
  obtain ⟨hbefore, hlater⟩ := hin.woken_once hset
  obtain ⟨store₁, answers, hframe, hvars⟩ := wakeHosts_frame before { r with store }
  refine ⟨index, { wakeHosts before { r with store } with status := .running }, later, ?_, hlater,
    fun since => ?_⟩
  · rw [hframe]
  · have hstart : Render.set setup fuel path value (r.waitingSince since) =
        wake setup fuel (before ++ .engine :: later)
          (.ok (), { r with store }.waitingSince since) := by
      simp only [Render.set, waitingSince, hset]
    have hresume : resumeParked setup fuel
        ((wakeHosts before { r with store }).waitingSince since) =
          Render.run setup fuel (.resume index found)
            { wakeHosts before { r with store } with status := .running } := by
      have hfound : store₁.resolve awaited = some found := by
        rw [Store.resolve_congr hvars]
        exact hres
      rw [hframe]
      simp only [resumeParked, waitingSince, hstatus, Status.waitingSince, hfound]
    rw [hstart, wake_append, wake_of_not_mem hbefore, Option.bind_some, wake,
      wakeHosts_waitingSince, hresume]
    rcases Render.run setup fuel _ _ <;> rfl

/-- **A wait that ends**, or none: the call does the same whenever the wait began, and a wait that
is there afterwards has begun now. -/
theorem run_ending (setup : Setup σ μ) (fuel : Nat) {tickets : List String}
    (hin : r.InOrder [] tickets) (hends : call.leavesWaiting r = false)
    (hcheck : call.isCheck = false) :
    (∀ since, call.run setup fuel (r.waitingSince since) = call.run setup fuel r) ∧
      ∀ outcome r', call.run setup fuel r = some (outcome, r') → r'.waitingSince r.clock = r' := by
  -- without a wait there is no instant to replace; otherwise only a write can have ended it
  rcases hawaited : r.status.awaited? with _ | awaited
  · refine ⟨fun since => ?_, fun outcome r' hcall => run_began hawaited hcheck hcall⟩
    rw [waitingSince_of_awaited_none hawaited]
  · unfold leavesWaiting at hends
    rw [hawaited] at hends
    cases call with
    | set path value =>
      dsimp only at hends
      rcases hset : r.store.set path value with err | ⟨store, woken⟩ <;> rw [hset] at hends
      · cases hends
      · obtain ⟨found, hres⟩ := Option.isSome_iff_exists.mp (Option.isNone_eq_false_iff.mp hends)
        obtain ⟨index, r₁, later, hclock, hlater, hsame⟩ :=
          set_ending setup fuel hin hawaited hset hres
        obtain ⟨index', since₀, hstatus⟩ := Status.exists_of_awaited hawaited
        have hself : r.waitingSince since₀ = r :=
          waitingSince_eq_self_iff.mpr (by rw [hstatus]; rfl)
        have hrun : Render.set setup fuel path value r = _ := hself ▸ hsame since₀
        refine ⟨fun since => ?_, fun outcome r' hcall => ?_⟩
        · rw [run, run, hsame since, hrun]
        · rw [run, hrun] at hcall
          obtain ⟨⟨outcome₂, r₂⟩, hran, hwake⟩ := Option.bind_eq_some_iff.mp hcall
          rw [wake_of_not_mem hlater] at hwake
          obtain rfl : _ = r' := congrArg Prod.snd (Option.some.inj hwake)
          obtain ⟨store₂, answers, hframe, -⟩ := wakeHosts_frame later r₂
          have hbegan := waitingSince_eq_self_iff.mp (Render.run_began hran)
          rw [hclock] at hbegan
          rw [waitingSince_eq_self_iff, hframe]
          exact hbegan
    | _ => cases hends

end HostCall

end StreamingTemplate

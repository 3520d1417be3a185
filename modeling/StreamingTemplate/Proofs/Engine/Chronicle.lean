import StreamingTemplate.Proofs.Engine.Fuel
import StreamingTemplate.Proofs.Engine.HandsOn
import StreamingTemplate.Proofs.Engine.Moment
import StreamingTemplate.Proofs.Engine.Recovery
import StreamingTemplate.Proofs.Store.Rejection

/-!
# The chronicle of a render

A history tells of calls and their outcomes, a moment of one state inside of a call. What happens in
which order, over many calls, is told by the *chronicle*: the turns that are taken, oldest first.

* `runTurns`, `wakeTurns`, `HostCall.turns` — the turns of a run, of a list of waits that is woken
  and of a call, each following the definition that takes them; where fuel runs out they are those
  that were taken until then;
* `Chronicle` — a history together with its turns, in which the host leaves the open blocks alone;
* `ChronicleInvariant` — what a chronicle and the render it has come to satisfy together, with one
  law for each thing that can happen; `ChronicleInvariant.chronicle` carries it along every
  chronicle;
* `ChronicleInvariant.Ends` — if in addition every turn returns and comes closer to an end, every
  call returns (`ChronicleInvariant.Ends.hostCall`);
* `Invariant.took_turns` — what holds at every moment holds at every turn that a call takes;
* `HostCall.error_cases` — an error that a call returns is that of its last turn, or one of the few
  that calls raise themselves;
* `Chronicle.poll` — what a driver does is told by a chronicle of calls.
-/

namespace StreamingTemplate

variable {σ κ μ : Type}

/-- A turn that was taken. -/
structure TakenTurn (σ κ μ : Type) where
  task : Render.Task σ
  before : Render σ κ μ
  result : Render.Turn σ
  after : Render σ κ μ

/-- The directive on whose behalf a task is done. -/
def Render.Task.busy? : Render.Task σ → Option Nat
  | .instruction => none
  | .flow index _ | .resume index _ | .drain index => some index

/-- The index of the directive that a turn is about. -/
def TakenTurn.directive? (template : Template) (t : TakenTurn σ κ μ) : Option Nat :=
  match t.task, template.get? t.before.cursor with
  | .instruction, some (.directive ..) => some t.before.cursor
  | .instruction, _ => none
  | .flow index _, _ | .resume index _, _ | .drain index, _ => some index

/-- Who pipes waits. -/
theorem Status.suspended_of_piping {status : Status} {index : Nat}
    (h : status.piping? = some index) :
    ∃ wait, status = .suspended wait ∧ wait.directive = index := by
  cases status with
  | suspended wait =>
    cases wait with
    | «variable» => cases h
    | stream | filter => exact ⟨_, rfl, Option.some.inj h⟩
  | _ => cases h

/-- Whether a call leaves the open blocks of the render alone. -/
def HostCall.leavesBlocks : HostCall κ → Bool
  | .restart | .close => false
  | .attach _ | .advance | .pump | .set .. | .get .. | .checkTimeout _ | .emit _ | .skip | .feed _
  | .forward _ => true

/-- Calls that let the render go on leave its blocks alone. -/
theorem HostCall.leavesBlocks_of_proceeds {call : HostCall κ} (h : call.proceeds = true) :
    call.leavesBlocks = true := by
  cases call <;> first | rfl | cases h

/-! ## The turns of a call

Each definition repeats the control flow of the operation it is named for and collects, where
that one calls `Render.turn`, what went in and what came out. The equations below
(`resumeTurns_of_value` and the others) take one branch each, so that later proofs never open the
definitions. -/

namespace Render

variable [FilterStage σ] [OutputSink κ]

/-- The turns of a run. -/
def runTurns (setup : Setup σ μ) : Nat → Task σ → Render σ κ μ → List (TakenTurn σ κ μ)
  | 0, _, _ => []
  | fuel + 1, task, r =>
    match turn setup fuel task r with
    | none => []
    | some (.stop outcome, r') => [⟨task, r, .stop outcome, r'⟩]
    | some (.next task', r') => ⟨task, r, .next task', r'⟩ :: runTurns setup fuel task' r'

/-- The turns that are taken until a woken render waits again, or stops. -/
def resumeTurns (setup : Setup σ μ) (fuel : Nat) (r : Render σ κ μ) : List (TakenTurn σ κ μ) :=
  match r.status with
  | .suspended (.variable path index _) =>
    match r.store.resolve path with
    | none => []
    | some value => runTurns setup fuel (.resume index value) { r with status := .running }
  | _ => []

/-- The turns that are taken when waits are woken by a write of the host. -/
def wakeTurns (setup : Setup σ μ) (fuel : Nat) :
    List Waiter → Render σ κ μ → List (TakenTurn σ κ μ)
  | [], _ => []
  | .host path ticket :: rest, r => wakeTurns setup fuel rest (r.ask path ticket)
  | .engine :: rest, r =>
    resumeTurns setup fuel r ++
      match resumeParked setup fuel r with
      | some (_, r) => wakeTurns setup fuel rest r
      | none => []

/-- The turns of forwarding what the pipe has. -/
def pumpTurns (setup : Setup σ μ) (fuel : Nat) (r : Render σ κ μ) : List (TakenTurn σ κ μ) :=
  match r.status.piping? with
  | some index => runTurns setup fuel (.drain index) r
  | none => []

/-- The turns of carrying on after a wait on the pipe. -/
def feedTurns (setup : Setup σ μ) (fuel : Nat) (event : Pipe.Event) (r : Render σ κ μ) :
    List (TakenTurn σ κ μ) :=
  match event, r.pipe with
  | .chunk chunk, some pipe =>
    match pipe.pass fuel chunk r.lines with
    | none => []
    | some p =>
      match emitAll p.chunks { r with pipe := some p.pipe, lines := p.lines } with
      | (.error _, _) => []
      | (.ok (), r) => pumpTurns setup fuel r
  | _, _ => pumpTurns setup fuel r

variable {setup : Setup σ μ} {fuel : Nat} {r r' : Render σ κ μ}

/-- A render that waits for a variable which has a value by now takes the turns of the run that
is resumed with it. -/
theorem resumeTurns_of_value {path : Path} {index : Nat} {since : Instant} {value : Value}
    (hstatus : r.status = .suspended (.variable path index since))
    (hres : r.store.resolve path = some value) :
    resumeTurns setup fuel r =
      runTurns setup fuel (.resume index value) { r with status := .running } := by
  simp only [resumeTurns, hstatus, hres]

theorem pumpTurns_of_piping {index : Nat} (h : r.status.piping? = some index) :
    pumpTurns setup fuel r = runTurns setup fuel (.drain index) r := by
  simp only [pumpTurns, h]

/-- A chunk that has come through the pipe and that the sink has taken leads to the turns of a
pump, from the render with the new pipe. -/
theorem feedTurns_of_emitted {chunk : String} {pipe : Pipe σ} {passed : Pipe.Passed σ}
    (hpipe : r.pipe = some pipe) (hpass : pipe.pass fuel chunk r.lines = some passed)
    (hemit : emitAll passed.chunks { r with pipe := some passed.pipe, lines := passed.lines } =
      (.ok (), r')) :
    feedTurns setup fuel (.chunk chunk) r = pumpTurns setup fuel r' := by
  simp only [feedTurns, hpipe, hpass, hemit]

/-- Any other event, or a chunk for a render without a pipe, comes down to a pump. -/
theorem feedTurns_of_no_chunk {event : Pipe.Event}
    (h : ∀ chunk pipe, event = .chunk chunk → r.pipe = some pipe → False) :
    feedTurns setup fuel event r = pumpTurns setup fuel r := by
  unfold feedTurns
  split
  · rename_i hpipe
    exact (h _ _ rfl hpipe).elim
  · rfl

end Render

section Chronicles

variable [FilterStage σ] [OutputSink κ]

/-- The turns of a call. -/
def HostCall.turns (setup : Setup σ μ) (fuel : Nat) (call : HostCall κ) (r : Render σ κ μ) :
    List (TakenTurn σ κ μ) :=
  match call with
  | .attach sink =>
    if r.status = .idle then
      Render.runTurns setup fuel .instruction { r with sink := some sink, status := .running }
    else []
  | .advance => if r.status = .running then Render.runTurns setup fuel .instruction r else []
  | .pump => r.pumpTurns setup fuel
  | .set path value =>
    match r.store.set path value with
    | .error _ => []
    | .ok (store, woken) => Render.wakeTurns setup fuel woken { r with store }
  | .feed event => r.feedTurns setup fuel event
  | .forward side =>
    match r.waitSide? side with
    | none => []
    | some (event, r) => r.feedTurns setup fuel event
  | .get .. | .checkTimeout _ | .emit _ | .skip | .restart | .close => []

/-- A history in which the host leaves the open blocks alone, together with the turns that were
taken in it, oldest first. -/
inductive Chronicle (setup : Setup σ μ) (start : Render σ κ μ) :
    List (HostCall κ × Except RenderError Unit) → List (TakenTurn σ κ μ) → Render σ κ μ → Prop where
  | start : Chronicle setup start [] [] start
  | call {record taken r call fuel outcome r'} (before : Chronicle setup start record taken r)
      (hleaves : HostCall.leavesBlocks call = true)
      (hcall : HostCall.run setup fuel call r = some (outcome, r')) :
      Chronicle setup start (record ++ [(call, outcome)]) (taken ++ call.turns setup fuel r) r'
  | outside {record taken r} (before : Chronicle setup start record taken r) (move : OutsideMove) :
      Chronicle setup start record taken (move.apply r)

/-- A chronicle without its turns is a history, so whatever is known of histories holds of it. -/
theorem Chronicle.history {setup : Setup σ μ} {start r : Render σ κ μ}
    {record : List (HostCall κ × Except RenderError Unit)} {taken : List (TakenTurn σ κ μ)}
    (h : Chronicle setup start record taken r) : History setup start record r := by
  induction h with
  | start => exact .start
  | call before hleaves hcall ih => exact ih.call hcall
  | outside before move ih => exact ih.outside move

/-- A history has its chronicle if the host leaves the open blocks alone in it. -/
theorem History.chronicle {setup : Setup σ μ} {start r : Render σ κ μ}
    {record : List (HostCall κ × Except RenderError Unit)} (h : History setup start record r)
    (hleaves : ∀ entry ∈ record, entry.1.leavesBlocks = true) :
    ∃ taken, Chronicle setup start record taken r := by
  induction h with
  | start => exact ⟨[], .start⟩
  | call before hcall ih =>
    obtain ⟨hbefore, hlast⟩ := List.forall_mem_append.mp hleaves
    obtain ⟨taken, ih⟩ := ih hbefore
    exact ⟨_, ih.call (hlast _ List.mem_cons_self) hcall⟩
  | outside before move ih =>
    obtain ⟨taken, ih⟩ := ih hleaves
    exact ⟨taken, ih.outside move⟩

/-! ## Invariants of chronicles

A `ChronicleInvariant` is a pair of predicates, one for a render at rest and one for a render
before a turn, that both see all turns taken so far. Its fields are the only ways in which a
render changes; `next` and `stop` are those at which the list of turns grows. From the fields it
follows that the invariant survives a run, a wake, a pump, a call and at last a whole chronicle,
one lemma for each. -/

open Render

/-- What a chronicle and the render it has come to satisfy together. -/
structure ChronicleInvariant (setup : Setup σ μ) (κ : Type) [OutputSink κ] where
  /-- while no run is in progress -/
  rest : List (TakenTurn σ κ μ) → Render σ κ μ → Prop
  /-- in a run, before a turn -/
  turn : List (TakenTurn σ κ μ) → Render.Task σ → Render σ κ μ → Prop
  waits : ∀ {taken r}, rest taken r → ∀ store answers, rest taken { r with store, answers }
  sink : ∀ {taken r}, rest taken r → ∀ sink, rest taken { r with sink }
  skip : ∀ {taken r}, rest taken r → rest taken r.skipBlock
  /-- a wait is reported, and its time starts again -/
  report : ∀ {taken r path index since}, rest taken r →
    r.status = .suspended (.variable path index since) →
    ∀ now, rest taken { r with status := .suspended (.variable path index now) }
  outside : ∀ {taken r}, rest taken r → ∀ move : OutsideMove, rest taken (move.apply r)
  wait : ∀ {taken r side event r'}, rest taken r → r.waitSide? side = some (event, r') →
    rest taken r'
  /-- something taken from the pipe is passed on -/
  pass : ∀ {taken r pipe fuel chunk passed}, rest taken r → r.pipe = some pipe →
    pipe.pass fuel chunk r.lines = some passed →
    rest taken { r with pipe := some passed.pipe, lines := passed.lines }
  fail : ∀ {taken r}, rest taken r → ∀ err, rest taken (Render.fail err r).2
  attach : ∀ {taken r}, rest taken r → r.status = .idle → ∀ sink,
    turn taken .instruction { r with sink := some sink, status := .running }
  advance : ∀ {taken r}, rest taken r → r.status = .running → turn taken .instruction r
  drain : ∀ {taken r index}, rest taken r → r.status.piping? = some index →
    turn taken (.drain index) r
  resume : ∀ {taken r path index since value}, rest taken r →
    r.status = .suspended (.variable path index since) → r.store.resolve path = some value →
    turn taken (.resume index value) { r with status := .running }
  next : ∀ {fuel taken task r task' r'}, Turned setup fuel task r (.next task') r' →
    turn taken task r → turn (taken ++ [⟨task, r, .next task', r'⟩]) task' r'
  stop : ∀ {fuel taken task r outcome r'}, Turned setup fuel task r (.stop outcome) r' →
    turn taken task r → rest (taken ++ [⟨task, r, .stop outcome, r'⟩]) r'

namespace ChronicleInvariant

variable {setup : Setup σ μ} {fuel : Nat} {taken : List (TakenTurn σ κ μ)} {r r' : Render σ κ μ}
  {outcome : Except RenderError Unit} (I : ChronicleInvariant setup κ)

/-- **A run** keeps the invariant and adds its turns. The induction is on fuel, as the recursion
of a run is; the list of turns is generalised, since every turn makes it longer for the rest. -/
theorem run {task : Render.Task σ} (h : I.turn taken task r)
    (hrun : Render.run setup fuel task r = some (outcome, r')) :
    I.rest (taken ++ runTurns setup fuel task r) r' := by
  induction fuel generalizing taken task r with
  | zero => cases hrun
  | succ fuel ih =>
    rw [Render.run] at hrun
    rw [runTurns]
    rcases hturn : Render.turn setup fuel task r with _ | ⟨task' | outcome', r₁⟩ <;>
      rw [hturn] at hrun
    · cases hrun
    · -- the turn that was taken goes to the end of the list, the rest of the run behind it
      have hnext := ih (I.next (turn_turned hturn) h) hrun
      rwa [List.append_assoc, List.singleton_append] at hnext
    · obtain ⟨rfl, rfl⟩ := Prod.mk.inj (Option.some.inj hrun)
      exact I.stop (turn_turned hturn) h

theorem ask (h : I.rest taken r) (path : Path) (ticket : String) :
    I.rest taken (r.ask path ticket) := by
  rw [Render.ask]
  split
  · exact I.waits h r.store _
  · exact I.waits h _ r.answers

/-- Waking the engine either finds no value and puts it back to wait, or resumes it with a run. -/
theorem resumeParked (h : I.rest taken r)
    (hresume : Render.resumeParked setup fuel r = some (outcome, r')) :
    I.rest (taken ++ resumeTurns setup fuel r) r' := by
  rw [Render.resumeParked] at hresume
  split at hresume
  · rename_i path index since hstatus
    split at hresume
    · rename_i hres
      obtain ⟨-, rfl⟩ := Prod.mk.inj (Option.some.inj hresume)
      have hturns : resumeTurns setup fuel r = [] := by
        simp only [resumeTurns, hstatus, hres]
      rw [hturns, List.append_nil]
      exact I.waits h _ r.answers
    · rename_i value hres
      rw [resumeTurns_of_value hstatus hres]
      exact I.run (I.resume h hstatus hres) hresume
  · rename_i hother
    obtain ⟨-, rfl⟩ := Prod.mk.inj (Option.some.inj hresume)
    rw [resumeTurns]
    split
    · rename_i path index since hstatus
      exact absurd hstatus (hother path index since)
    · rwa [List.append_nil]

/-- The waits that one write has woken, in the order in which they were parked. What one
resumption has done to the render is what the next wait meets. -/
theorem wake (woken : List Waiter) {o o' : Outcome σ κ μ Unit} (h : I.rest taken o.2)
    (hwake : Render.wake setup fuel woken o = some o') :
    I.rest (taken ++ wakeTurns setup fuel woken o.2) o'.2 := by
  induction woken generalizing taken o with
  | nil =>
    obtain rfl := Option.some.inj hwake
    rwa [wakeTurns, List.append_nil]
  | cons wait rest ih =>
    cases wait with
    | host path ticket => exact ih (I.ask h path ticket) hwake
    | engine =>
      rw [Render.wake] at hwake
      split at hwake
      · cases hwake
      · rename_i o₁ hresume
        rw [wakeTurns]
        simp only [hresume]
        rw [← List.append_assoc]
        -- the engine has run in between: the rest of the list is woken from where that run has led
        exact ih (I.resumeParked h hresume) hwake

/-- A render that waits for its pipe drains it, and any other is left as it is. -/
theorem pump (h : I.rest taken r) (hpump : Render.pump setup fuel r = some (outcome, r')) :
    I.rest (taken ++ pumpTurns setup fuel r) r' := by
  rw [Render.pump] at hpump
  split at hpump
  · rename_i index hstatus
    rw [pumpTurns_of_piping hstatus]
    exact I.run (I.drain h hstatus) hpump
  · rename_i hstatus
    obtain ⟨-, rfl⟩ := Prod.mk.inj (Option.some.inj hpump)
    simpa only [pumpTurns, hstatus, List.append_nil]

/-- Passing a chunk on and emitting what comes out. -/
theorem emitted {pipe : Pipe σ} {chunk : String} {passed : Pipe.Passed σ}
    (h : I.rest taken r) (hpipe : r.pipe = some pipe)
    (hpass : pipe.pass fuel chunk r.lines = some passed)
    (hemit : emitAll passed.chunks { r with pipe := some passed.pipe, lines := passed.lines } =
      (outcome, r')) : I.rest taken r' := by
  obtain ⟨sink, rfl⟩ := exists_of_emitAll hemit
  exact I.sink (I.pass h hpipe hpass) sink

/-- An event for the pipe: the chunk passes through, what comes out is emitted, then the pipe is
pumped. A sink that refuses fails the render before there was a turn. -/
theorem feedPipe {event : Pipe.Event} (h : I.rest taken r)
    (hfeed : Render.feedPipe setup fuel event r = some (outcome, r')) :
    I.rest (taken ++ feedTurns setup fuel event r) r' := by
  unfold Render.feedPipe at hfeed
  split at hfeed
  · rename_i chunk pipe hpipe
    split at hfeed
    · cases hfeed
    · rename_i passed hpass
      split at hfeed
      · rename_i err r₁ hemit
        obtain ⟨-, rfl⟩ := Prod.mk.inj (Option.some.inj hfeed)
        simp only [feedTurns, hpipe, hpass, hemit, List.append_nil]
        exact I.fail (I.emitted h hpipe hpass hemit) err
      · rename_i r₁ hemit
        rw [feedTurns_of_emitted hpipe hpass hemit]
        exact I.pump (I.emitted h hpipe hpass hemit) hfeed
  · rename_i hother
    rw [feedTurns_of_no_chunk hother]
    exact I.pump h hfeed

/-- A check either reports the wait, whose time then starts again, or does nothing. -/
theorem checkTimeout (h : I.rest taken r) (settings : RenderSettings) (now : Instant) :
    I.rest taken (Render.checkTimeout settings now r).2 := by
  rw [Render.checkTimeout]
  split
  · rename_i timeout path index since htimeout hstatus
    dsimp only
    split
    · exact I.report h hstatus now
    · exact h
  · exact h

/-- **A call** keeps the invariant and adds its turns. Restarting and closing a block are
excluded by `hleaves`: they move the cursor, which is not something that turns could account for. -/
theorem hostCall {call : HostCall κ} (h : I.rest taken r) (hleaves : call.leavesBlocks = true)
    (hcall : call.run setup fuel r = some (outcome, r')) :
    I.rest (taken ++ call.turns setup fuel r) r' := by
  cases call with
  | attach sink =>
    rw [HostCall.run, Render.attach] at hcall
    rw [HostCall.turns]
    split at hcall
    · rename_i hidle
      rw [if_pos hidle]
      exact I.run (I.attach h hidle sink) hcall
    · rename_i hstarted
      obtain ⟨-, rfl⟩ := Prod.mk.inj (Option.some.inj hcall)
      rwa [if_neg hstarted, List.append_nil]
  | advance =>
    rw [HostCall.run, Render.advance] at hcall
    rw [HostCall.turns]
    split at hcall
    · rename_i hrunning
      rw [if_pos hrunning]
      exact I.run (I.advance h hrunning) hcall
    · rename_i hstopped
      obtain ⟨-, rfl⟩ := Prod.mk.inj (Option.some.inj hcall)
      rwa [if_neg hstopped, List.append_nil]
  | pump => exact I.pump h hcall
  | set path value =>
    rw [HostCall.run, Render.set] at hcall
    split at hcall
    · rename_i hset
      obtain ⟨-, rfl⟩ := Prod.mk.inj (Option.some.inj hcall)
      simp only [HostCall.turns, hset, List.append_nil]
      exact h
    · rename_i store woken hset
      simp only [HostCall.turns, hset]
      exact I.wake woken (o := (_, { r with store })) (I.waits h store r.answers) hcall
  | get path ticket =>
    rw [HostCall.run, Render.get] at hcall
    rw [HostCall.turns, List.append_nil]
    split at hcall <;> obtain ⟨-, rfl⟩ := Prod.mk.inj (Option.some.inj hcall)
    · exact h
    · exact I.ask h path ticket
  | checkTimeout now =>
    obtain rfl : _ = r' := congrArg Prod.snd (Option.some.inj hcall)
    rw [HostCall.turns, List.append_nil]
    exact I.checkTimeout h setup.settings now
  | emit chunk =>
    obtain ⟨sink, hsink⟩ := emit_frame chunk r
    obtain rfl : _ = r' := congrArg Prod.snd (Option.some.inj hcall)
    rw [hsink, HostCall.turns, List.append_nil]
    exact I.sink h sink
  | skip =>
    obtain rfl : _ = r' := congrArg Prod.snd (Option.some.inj hcall)
    rw [HostCall.turns, List.append_nil]
    exact I.skip h
  | restart | close => cases hleaves
  | feed event => exact I.feedPipe h hcall
  | forward side =>
    rw [HostCall.run] at hcall
    rw [HostCall.turns]
    rcases hwait : r.waitSide? side with _ | ⟨event, r₁⟩ <;> rw [hwait] at hcall
    · obtain ⟨-, rfl⟩ := Prod.mk.inj (Option.some.inj hcall)
      simpa using h
    · exact I.feedPipe (I.wait h hwait) hcall

/-- **Along every chronicle**, by induction over its calls and outside moves. -/
theorem chronicle {start : Render σ κ μ} {record : List (HostCall κ × Except RenderError Unit)}
    (h : Chronicle setup start record taken r) (hstart : I.rest [] start) : I.rest taken r := by
  induction h with
  | start => exact hstart
  | call before hleaves hcall ih => exact I.hostCall ih hleaves hcall
  | outside before move ih => exact I.outside ih move

/-! ## Calls that return

Fuel only bounds the search for an answer. Under `Ends` there is always enough: every turn
returns and either stops the render or lowers a rank. Two searches that follow each other need
the larger of their fuels, which is where the lemmas on more fuel come in (`turn_mono`,
`run_mono`). -/

/-- What makes every call return: each turn does, and either stops the render or takes it closer to
an end; and so does the operation on the pipe that comes before a run. -/
structure Ends (I : ChronicleInvariant setup κ) (rank : Render.Task σ → Render σ κ μ → Nat) :
    Prop where
  turn : ∀ {taken task r}, I.turn taken task r → ∃ fuel t r',
    Render.turn setup fuel task r = some (t, r') ∧ ∀ task', t = .next task' →
      rank task' r' < rank task r
  pass : ∀ {taken r pipe}, I.rest taken r → r.pipe = some pipe → ∀ chunk, ∃ fuel passed,
    pipe.pass fuel chunk r.lines = some passed

namespace Ends

variable {I} {rank : Render.Task σ → Render σ κ μ → Nat} (hends : I.Ends rank)

include hends

/-- **Every run ends**, by induction on the rank. -/
theorem run {task : Render.Task σ} (h : I.turn taken task r) :
    ∃ fuel o, Render.run setup fuel task r = some o := by
  induction hn : rank task r using Nat.strongRecOn generalizing taken task r with
  | ind n ih =>
    obtain ⟨fuel, t, r', hturn, hrank⟩ := hends.turn h
    cases t with
    | stop outcome => exact ⟨fuel + 1, _, run_stop hturn⟩
    | next task' =>
      obtain ⟨fuel', o, hrun⟩ := ih _ (hn ▸ hrank task' rfl) (I.next (turn_turned hturn) h) rfl
      -- enough for the turn and for the run behind it, and one more for the step between them
      refine ⟨max fuel fuel' + 1, o, ?_⟩
      rw [run_next (turn_mono (Nat.le_max_left fuel fuel') hturn)]
      exact run_mono (Nat.le_max_right fuel fuel') hrun

theorem resumeParked (h : I.rest taken r) :
    ∃ fuel o, Render.resumeParked setup fuel r = some o := by
  unfold Render.resumeParked
  split
  · rename_i path index since hstatus
    cases hres : r.store.resolve path with
    | none => exact ⟨0, _, rfl⟩
    | some value => exact hends.run (I.resume h hstatus hres)
  · exact ⟨0, _, rfl⟩

/-- Every wait of the list is woken with some fuel, and all of them with the largest of these. -/
theorem wake (woken : List Waiter) {o : Outcome σ κ μ Unit} (h : I.rest taken o.2) :
    ∃ fuel o', Render.wake setup fuel woken o = some o' := by
  induction woken generalizing taken o with
  | nil => exact ⟨0, o, rfl⟩
  | cons wait rest ih =>
    cases wait with
    | host path ticket => exact ih (o := (o.1, _)) (I.ask h path ticket)
    | engine =>
      obtain ⟨fuel, o₁, hresume⟩ := hends.resumeParked h
      obtain ⟨fuel', o', hrest⟩ := ih (I.resumeParked h hresume)
      refine ⟨max fuel fuel', o', ?_⟩
      rw [Render.wake, resumeParked_mono (Nat.le_max_left fuel fuel') hresume]
      exact wake_mono (Nat.le_max_right fuel fuel') hrest

theorem pump (h : I.rest taken r) : ∃ fuel o, Render.pump setup fuel r = some o := by
  unfold Render.pump
  split
  · rename_i index hstatus
    exact hends.run (I.drain h hstatus)
  · exact ⟨0, _, rfl⟩

/-- The chunk passes through the pipe by `Ends.pass`, and the pump that follows is a run. -/
theorem feedPipe (h : I.rest taken r) (event : Pipe.Event) :
    ∃ fuel o, Render.feedPipe setup fuel event r = some o := by
  unfold Render.feedPipe
  split
  · rename_i chunk pipe hpipe
    obtain ⟨fuel, passed, hpass⟩ := hends.pass h hpipe chunk
    rcases hemit : emitAll passed.chunks
      { r with pipe := some passed.pipe, lines := passed.lines } with ⟨err | ⟨⟩, r₁⟩
    · refine ⟨fuel, Render.fail err r₁, ?_⟩
      rw [hpass]
      dsimp only
      rw [hemit]
    · obtain ⟨fuel', o, hpump⟩ := hends.pump (I.emitted h hpipe hpass hemit)
      refine ⟨max fuel fuel', o, ?_⟩
      rw [Pipe.pass_mono (Nat.le_max_left fuel fuel') hpass]
      dsimp only
      rw [hemit]
      exact pump_mono (Nat.le_max_right fuel fuel') hpump
  · exact hends.pump h

/-- **Every call returns**, whatever the host calls and at whatever time. Calls that begin no run
return without any fuel. -/
theorem hostCall (h : I.rest taken r) (call : HostCall κ) :
    ∃ fuel o, call.run setup fuel r = some o := by
  cases call with
  | attach sink =>
    simp only [HostCall.run, Render.attach]
    split
    · rename_i hidle
      exact hends.run (I.attach h hidle sink)
    · exact ⟨0, _, rfl⟩
  | advance =>
    simp only [HostCall.run, Render.advance]
    split
    · rename_i hrunning
      exact hends.run (I.advance h hrunning)
    · exact ⟨0, _, rfl⟩
  | pump => exact hends.pump h
  | set path value =>
    simp only [HostCall.run, Render.set]
    split
    · exact ⟨0, _, rfl⟩
    · rename_i store woken hset
      exact hends.wake woken (o := (_, { r with store })) (I.waits h store r.answers)
  | get | checkTimeout | emit | skip | restart | close => exact ⟨0, _, rfl⟩
  | feed event => exact hends.feedPipe h event
  | forward side =>
    simp only [HostCall.run]
    rcases hwait : r.waitSide? side with _ | ⟨event, r₁⟩
    · exact ⟨0, _, rfl⟩
    · exact hends.feedPipe (I.wait h hwait) event

end Ends

end ChronicleInvariant

/-! ## How turns stop

A turn may stop in a dozen ways. All that matters to those who read a chronicle is whether the
render can go on afterwards, and then it is found where it was (`Render.Turned.parked`). -/

omit [FilterStage σ] [OutputSink κ] in
/-- What is resumed is a directive of the registry. -/
theorem exists_of_resumption {setup : Setup σ μ} {index : Nat} {value : Value} {body : Body σ μ}
    (h : setup.resumption index value = .ok body) :
    ∃ name args d, setup.directives.directive? name = some d ∧ body = d.resume args value := by
  unfold Setup.resumption at h
  split at h
  · rename_i name args hget
    split at h
    · rename_i d hdir
      exact ⟨name, args, d, hdir, (Except.ok.inj h).symm⟩
    · cases h
  · cases h

omit [FilterStage σ] [OutputSink κ] in
/-- Dropping the pipe leaves the place in the template alone, -/
theorem Render.dropPipe_stays (r : Render σ κ μ) :
    r.dropPipe.cursor = r.cursor ∧ r.dropPipe.blocks = r.blocks := by
  rw [dropPipe]
  split <;> exact ⟨rfl, rfl⟩

omit [FilterStage σ] [OutputSink κ] in
/-- and so does failing: only the status, the pipe and the handles change. -/
theorem Render.fail_failed (err : RenderError) (r : Render σ κ μ) :
    (Render.fail err r).2.status = .failed ∧ (Render.fail err r).2.cursor = r.cursor ∧
      (Render.fail err r).2.blocks = r.blocks := by
  obtain ⟨pipe, lines, hfail⟩ := fail_frame err r
  rw [hfail]
  exact ⟨rfl, rfl, rfl⟩

/-- **A turn after which the render can go on** leaves it where it was, on behalf of the same
directive. By cases on how turns stop: a wait for a variable or for the pipe parks, everything
else is the end. -/
theorem Render.Turned.parked {setup : Setup σ μ} {fuel : Nat} {task : Render.Task σ}
    {r r' : Render σ κ μ} {outcome : Except RenderError Unit}
    (ht : Turned setup fuel task r (.stop outcome) r') :
    r'.status.isFinished = true ∨ ∃ wait, r'.status = .suspended wait ∧
      task.busy? = some wait.directive ∧ r'.cursor = r.cursor ∧ r'.blocks = r.blocks := by
  cases ht with
  | complete hget =>
    left
    rw [Render.complete]
    split
    · rfl
    · split
      · rfl
      · rw [(fail_failed _ _).1]
        rfl
  | suspended hres => exact .inr ⟨_, rfl, rfl, rfl, rfl⟩
  | @drained _ index pipe chunks pipe' lines r₁ hpipe hread hemit =>
    obtain ⟨sink, rfl⟩ := exists_of_emitAll hemit
    refine .inr ⟨_, rfl, ?_, rfl, rfl⟩
    split <;> rfl
  | literalRefused | unknown | unbalanced | callFailed | consumed | resumeFailed | resumeUnknown
  | drainFailed | drainRefused =>
    left
    rw [(fail_failed _ _).1]
    rfl

/-! ## Turns and moments

Moments are about single states inside a call, turns about the steps between two of them.
`took_turns` ties the two: an invariant of moments holds before every turn that any call takes,
and the turn is a real one. This is how facts about the engine's states reach the turns of a
chronicle. -/

namespace Invariant

variable {setup : Setup σ μ} {fuel : Nat} {r : Render σ κ μ} (I : Invariant setup κ)

/-- What an invariant says of a turn that was taken. -/
def Took (t : TakenTurn σ κ μ) : Prop :=
  I.turn t.task t.before ∧ ∃ fuel, Turned setup fuel t.task t.before t.result t.after

/-- The turns of a run, by induction on fuel: the first begins where the run does, the others in
a run from where it has led. -/
theorem took_runTurns {task : Render.Task σ} (h : I.turn task r) :
    ∀ t ∈ runTurns setup fuel task r, I.Took t := by
  induction fuel generalizing task r with
  | zero => exact List.forall_mem_nil _
  | succ fuel ih =>
    rw [runTurns]
    rcases hturn : Render.turn setup fuel task r with _ | ⟨task' | outcome, r₁⟩
    · exact List.forall_mem_nil _
    · have ht := turn_turned hturn
      exact List.forall_mem_cons.mpr ⟨⟨h, fuel, ht⟩, ih (I.next ht h)⟩
    · exact List.forall_mem_singleton.mpr ⟨h, fuel, turn_turned hturn⟩

theorem took_resumeTurns (h : I.rest r) : ∀ t ∈ resumeTurns setup fuel r, I.Took t := by
  rw [resumeTurns]
  split
  · rename_i path index since hstatus
    split
    · exact List.forall_mem_nil _
    · rename_i value hres
      exact I.took_runTurns (I.resume h hstatus hres)
  · exact List.forall_mem_nil _

/-- Turns of all resumptions that a write causes. Between two of them the invariant holds at
rest, which is what `resumeParked` keeps. -/
theorem took_wakeTurns (woken : List Waiter) (h : I.rest r) :
    ∀ t ∈ wakeTurns setup fuel woken r, I.Took t := by
  induction woken generalizing r with
  | nil => exact List.forall_mem_nil _
  | cons wait rest ih =>
    cases wait with
    | host path ticket => exact ih (I.ask h path ticket)
    | engine =>
      rw [wakeTurns]
      refine List.forall_mem_append.mpr ⟨I.took_resumeTurns h, ?_⟩
      split
      · rename_i hresume
        exact ih (I.resumeParked h hresume)
      · exact List.forall_mem_nil _

theorem took_pumpTurns (h : I.inside r) : ∀ t ∈ pumpTurns setup fuel r, I.Took t := by
  rw [pumpTurns]
  split
  · rename_i index hstatus
    exact I.took_runTurns (I.drain h hstatus)
  · exact List.forall_mem_nil _

/-- Turns after a chunk has been passed on and emitted. -/
theorem took_feedTurns {event : Pipe.Event} (h : I.inside r) :
    ∀ t ∈ feedTurns setup fuel event r, I.Took t := by
  unfold feedTurns
  split
  · rename_i chunk pipe hpipe
    split
    · exact List.forall_mem_nil _
    · split
      · exact List.forall_mem_nil _
      · rename_i hemit
        exact I.took_pumpTurns (I.emitted h hpipe hemit)
  · exact I.took_pumpTurns h

/-- **The turns of a call** start in states that the invariant knows, whether or not the call
returns. -/
theorem took_turns (call : HostCall κ) (h : I.rest r) :
    ∀ t ∈ call.turns setup fuel r, I.Took t := by
  cases call with
  | attach sink =>
    rw [HostCall.turns]
    split
    · rename_i hidle
      exact I.took_runTurns (I.attach h hidle sink)
    · exact List.forall_mem_nil _
  | advance =>
    rw [HostCall.turns]
    split
    · rename_i hrunning
      exact I.took_runTurns (I.advance h hrunning)
    · exact List.forall_mem_nil _
  | pump => exact I.took_pumpTurns (I.enter h)
  | set path value =>
    rw [HostCall.turns]
    split
    · exact List.forall_mem_nil _
    · exact I.took_wakeTurns _ (I.waits h _ r.answers)
  | feed event => exact I.took_feedTurns (I.enter h)
  | forward side =>
    rw [HostCall.turns]
    split
    · exact List.forall_mem_nil _
    · rename_i hwait
      exact I.took_feedTurns (I.waitSide h hwait)
  | get | checkTimeout | emit | skip | restart | close => exact List.forall_mem_nil _

end Invariant

/-! ## Where errors come from

An error that a call returns was raised by the turn that stopped it, unless the call raised it
before or beside any turn. `StopsWith` forgets which turn it was, so that lists of turns can be
put together on either side. -/

section Errors

variable {setup : Setup σ μ} {fuel : Nat} {r r' : Render σ κ μ} {err : RenderError}

/-- A turn among some has stopped with an error. -/
def StopsWith (err : RenderError) (taken : List (TakenTurn σ κ μ)) : Prop :=
  ∃ t ∈ taken, t.result = .stop (.error err)

omit [FilterStage σ] [OutputSink κ] in
/-- The turn that stopped is still there when more follow, -/
theorem StopsWith.append_left {taken : List (TakenTurn σ κ μ)} (h : StopsWith err taken)
    (more : List (TakenTurn σ κ μ)) : StopsWith err (taken ++ more) := by
  obtain ⟨t, ht, hstop⟩ := h
  exact ⟨t, List.mem_append_left _ ht, hstop⟩

omit [FilterStage σ] [OutputSink κ] in
/-- or when others came before it. -/
theorem StopsWith.append_right {more : List (TakenTurn σ κ μ)} (h : StopsWith err more)
    (taken : List (TakenTurn σ κ μ)) : StopsWith err (taken ++ more) := by
  obtain ⟨t, ht, hstop⟩ := h
  exact ⟨t, List.mem_append_right _ ht, hstop⟩

omit [FilterStage σ] [OutputSink κ] in
/-- In a list that ends with a turn, it is that turn or an earlier one. -/
theorem stopsWith_concat {taken : List (TakenTurn σ κ μ)} {t : TakenTurn σ κ μ} :
    StopsWith err (taken ++ [t]) ↔ StopsWith err taken ∨ t.result = .stop (.error err) := by
  simp [StopsWith, or_and_right, exists_or]

/-- **A run** returns the error of its last turn: a turn after which it goes on has no outcome
yet. -/
theorem run_stopsWith {task : Render.Task σ}
    (h : Render.run setup fuel task r = some (.error err, r')) :
    StopsWith err (runTurns setup fuel task r) := by
  induction fuel generalizing task r with
  | zero => cases h
  | succ fuel ih =>
    rw [Render.run] at h
    rw [runTurns]
    rcases hturn : Render.turn setup fuel task r with _ | ⟨task' | outcome, r₁⟩ <;> rw [hturn] at h
    · cases h
    · exact (ih h).append_right [_]
    · cases h
      exact ⟨_, List.mem_singleton_self _, rfl⟩

theorem resumeParked_stopsWith (h : Render.resumeParked setup fuel r = some (.error err, r')) :
    StopsWith err (resumeTurns setup fuel r) := by
  rw [Render.resumeParked] at h
  split at h
  · rename_i path index since hstatus
    split at h
    · cases h
    · rename_i value hres
      rw [resumeTurns_of_value hstatus hres]
      exact run_stopsWith h
  · cases h

/-- An error after waking several waits is that of the resumption that returned it. Without one,
the outcome is what it was before the first wait was woken, and hence the first alternative. -/
theorem wake_stopsWith (woken : List Waiter) {o : Outcome σ κ μ Unit}
    (h : Render.wake setup fuel woken o = some (.error err, r')) :
    o.1 = .error err ∨ StopsWith err (wakeTurns setup fuel woken o.2) := by
  induction woken generalizing o with
  | nil =>
    obtain rfl := Option.some.inj h
    exact .inl rfl
  | cons wait rest ih =>
    cases wait with
    | host path ticket => exact ih h
    | engine =>
      rw [Render.wake] at h
      split at h
      · cases h
      · rename_i o₁ hresume
        rw [wakeTurns]
        simp only [hresume]
        -- the error is that of the engine that was resumed here, or of a wait behind it
        rcases ih h with herr | hstops
        · obtain ⟨outcome, r₁⟩ := o₁
          obtain rfl : outcome = .error err := herr
          exact .inr ((resumeParked_stopsWith hresume).append_left _)
        · exact .inr (hstops.append_right _)

theorem pump_stopsWith (h : Render.pump setup fuel r = some (.error err, r')) :
    StopsWith err (pumpTurns setup fuel r) := by
  rw [Render.pump] at h
  split at h
  · rename_i index hstatus
    rw [pumpTurns_of_piping hstatus]
    exact run_stopsWith h
  · cases h

/-- When the pipe is fed, the sink can also refuse what comes out of the pipe, before any turn is
taken. -/
theorem feedPipe_stopsWith {event : Pipe.Event}
    (h : Render.feedPipe setup fuel event r = some (.error err, r')) :
    StopsWith err (feedTurns setup fuel event r) ∨ ∃ reason, err = .sink reason := by
  unfold Render.feedPipe at h
  split at h
  · rename_i chunk pipe hpipe
    split at h
    · cases h
    · rename_i passed hpass
      split at h
      · rename_i err' r₁ hemit
        cases h
        exact .inr (emitAll_sinkError hemit)
      · rename_i r₁ hemit
        rw [feedTurns_of_emitted hpipe hpass hemit]
        exact .inl (pump_stopsWith h)
  · rename_i hother
    rw [feedTurns_of_no_chunk hother]
    exact .inl (pump_stopsWith h)

/-- **An error of a call** is that of its last turn, or one of those that calls raise themselves:
what the sink says, a path that cannot be written or asked for, and a wait that has lasted too
long. By the last two no render fails. -/
theorem HostCall.error_cases {call : HostCall κ} (hleaves : call.leavesBlocks = true)
    (h : call.run setup fuel r = some (.error err, r')) :
    StopsWith err (call.turns setup fuel r) ∨ (∃ reason, err = .sink reason) ∨
      ((∃ path fault, err = .malformedPath path fault) ∨
        ∃ path waited, err = .unresolvedVariable path waited) ∧
      (r.status ≠ .failed → r'.status ≠ .failed) := by
  cases call with
  | attach sink =>
    rw [HostCall.run, Render.attach] at h
    rw [HostCall.turns]
    split at h
    · rename_i hidle
      rw [if_pos hidle]
      exact .inl (run_stopsWith h)
    · cases h
  | advance =>
    rw [HostCall.run, Render.advance] at h
    rw [HostCall.turns]
    split at h
    · rename_i hrunning
      rw [if_pos hrunning]
      exact .inl (run_stopsWith h)
    · cases h
  | pump => exact .inl (pump_stopsWith h)
  | set path value =>
    rw [HostCall.run, Render.set] at h
    split at h
    · rename_i hset
      cases h
      -- refused by the store, so that nothing was written and the render is untouched
      obtain ⟨-, rfl⟩ | ⟨above, segment, -, rfl⟩ := Store.set_error_cases hset
      · exact .inr (.inr ⟨.inl ⟨_, _, rfl⟩, id⟩)
      · exact .inr (.inr ⟨.inl ⟨_, _, rfl⟩, id⟩)
    · rename_i store woken hset
      simp only [HostCall.turns, hset]
      rcases wake_stopsWith woken h with herr | hstops
      · cases herr
      · exact .inl hstops
  | get path ticket =>
    rw [HostCall.run, Render.get] at h
    split at h <;> cases h
    exact .inr (.inr ⟨.inl ⟨_, _, rfl⟩, id⟩)
  | checkTimeout now =>
    have hcheck := Option.some.inj h
    rw [Render.checkTimeout] at hcheck
    split at hcheck
    · dsimp only at hcheck
      split at hcheck <;> cases hcheck
      exact .inr (.inr ⟨.inr ⟨_, _, rfl⟩, by simp⟩)
    · cases hcheck
  | emit chunk => exact .inr (.inl (emit_sinkError (Option.some.inj h)))
  | skip => cases h
  | restart | close => cases hleaves
  | feed event =>
    rcases feedPipe_stopsWith h with hstops | hsink
    · exact .inl hstops
    · exact .inr (.inl hsink)
  | forward side =>
    rw [HostCall.run] at h
    rw [HostCall.turns]
    rcases hwait : r.waitSide? side with _ | ⟨event, r₁⟩ <;> rw [hwait] at h
    · cases h
    · rcases feedPipe_stopsWith h with hstops | hsink
      · exact .inl hstops
      · exact .inr (.inl hsink)

end Errors

/-! ## Drivers

A driver is a loop over the same calls that a host could make itself. `Chronicle.LeadsTo` says
this of what a driver leaves: it is reached by more calls, each with its outcome on record. -/

section Drivers

variable {setup : Setup σ μ} {start r r' : Render σ κ μ} {fuel : Nat}
  {record : List (HostCall κ × Except RenderError Unit)} {taken : List (TakenTurn σ κ μ)}
  {d : Driven σ κ μ} {call : HostCall κ}

/-- Some more calls lead from a chronicle to the render that a driver leaves, and an error that the
driver returns is that of one of them. -/
def Chronicle.LeadsTo (setup : Setup σ μ) (start : Render σ κ μ)
    (record : List (HostCall κ × Except RenderError Unit)) (taken : List (TakenTurn σ κ μ))
    (d : Driven σ κ μ) : Prop :=
  ∃ record' taken', Chronicle setup start (record ++ record') (taken ++ taken') d.render ∧
    ∀ err, d.result = .returned (.error err) → ∃ call, (call, .error err) ∈ record'

theorem Chronicle.LeadsTo.stays (h : Chronicle setup start record taken d.render)
    (hresult : ∀ err, d.result ≠ .returned (.error err)) : LeadsTo setup start record taken d := by
  refine ⟨[], [], ?_, fun err herr => absurd herr (hresult err)⟩
  rwa [List.append_nil, List.append_nil]

/-- A call that has failed is the last one, and the driver returns its error. -/
theorem Chronicle.LeadsTo.last {err : RenderError} (h : Chronicle setup start record taken r)
    (hleaves : call.leavesBlocks = true)
    (hcall : call.run setup fuel r = some (.error err, d.render))
    (hresult : d.result = .returned (.error err)) : LeadsTo setup start record taken d := by
  refine ⟨_, _, h.call hleaves hcall, fun err' herr => ?_⟩
  cases hresult.symm.trans herr
  exact ⟨call, List.mem_singleton_self _⟩

/-- A driver that goes on after a call leads where the rest of it leads. -/
theorem Chronicle.LeadsTo.next {outcome : Except RenderError Unit} {more : List (TakenTurn σ κ μ)}
    (h : LeadsTo setup start (record ++ [(call, outcome)]) (taken ++ more) d) :
    LeadsTo setup start record taken d := by
  obtain ⟨record', taken', hchronicle, herr⟩ := h
  rw [List.append_assoc, List.append_assoc] at hchronicle
  refine ⟨_, _, hchronicle, fun err hresult => ?_⟩
  obtain ⟨call', hmem⟩ := herr err hresult
  exact ⟨call', List.mem_append_right _ hmem⟩

/-- **A driver makes calls**, and returns the error of the one that has failed. Each step of the
driver is one call: forwarding what the pipe has, setting what is in the inbox, or checking for a
timeout. -/
theorem Chronicle.poll {now : Instant} {listening : Bool} {inbox : Inbox}
    (h : Chronicle setup start record taken r)
    (hpoll : Render.poll setup now fuel listening inbox r = some d) :
    LeadsTo setup start record taken d := by
  induction fuel generalizing listening inbox r record taken with
  | zero => cases hpoll
  | succ fuel ih =>
    rw [Render.poll] at hpoll
    rcases hstep : driveStep setup now listening inbox r with ⟨step, r'⟩
    rw [hstep] at hpoll
    dsimp only at hpoll
    obtain ⟨rfl, rfl⟩ | ⟨-, ⟨event, rfl, hwait⟩ | ⟨hquiet, rfl⟩⟩ := driveStep_cases hstep
    · cases hpoll
      exact .stays h fun err herr => by cases herr
    · -- an event of the pipe: the host could have made the same call, from either side of the pipe
      obtain ⟨side, hside⟩ := waitPipe_side hwait
      have hforward {o} (hfeed : Render.feedPipe setup fuel event r' = some o) :
          HostCall.run setup fuel (.forward side) r = some o := by
        rw [HostCall.run, hside]
        exact hfeed
      dsimp only at hpoll
      split at hpoll
      · cases hpoll
      · rename_i hfeed
        exact (ih (h.call rfl (hforward hfeed)) hpoll).next
      · rename_i hfeed
        cases hpoll
        exact .last h rfl (hforward hfeed) rfl
    · cases step with
      | «return» | wait =>
        cases hpoll
        exact .stays h fun err herr => by cases herr
      -- a queue with no sender left is no call, and the driver goes on without it
      | closed => exact ih h hpoll
      | command path value rest =>
        dsimp only at hpoll
        split at hpoll
        · cases hpoll
        · rename_i r₁ hset
          have hcall : HostCall.run setup fuel (.set path value) r' = some (.ok (), r₁) := hset
          exact (ih (h.call rfl hcall) hpoll).next
        · rename_i err r₁ hset
          cases hpoll
          have hcall : HostCall.run setup fuel (.set path value) r' = some (.error err, r₁) := hset
          exact .last h rfl hcall rfl
      | timeout deadline =>
        dsimp only at hpoll
        split at hpoll
        · rename_i r₁ hcheck
          have hcall : HostCall.run setup fuel (.checkTimeout deadline) r' = some (.ok (), r₁) :=
            congrArg some hcheck
          exact (ih (h.call rfl hcall) hpoll).next
        · rename_i err r₁ hcheck
          cases hpoll
          have hcall :
              HostCall.run setup fuel (.checkTimeout deadline) r' = some (.error err, r₁) :=
            congrArg some hcheck
          exact .last h rfl hcall rfl
      | event event => exact absurd rfl (hquiet event)

end Drivers

end Chronicles

end StreamingTemplate

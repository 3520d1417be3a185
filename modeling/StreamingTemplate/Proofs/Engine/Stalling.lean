import StreamingTemplate.Filter.Scripted
import StreamingTemplate.Proofs.Engine.Blocks
import StreamingTemplate.Proofs.Engine.Forwarding
import StreamingTemplate.Proofs.Engine.Finished
import StreamingTemplate.Proofs.Engine.Rested
import StreamingTemplate.Proofs.PipeAccount

/-!
# What a stall loses

A value that goes through filters goes to the sink at once, or through a pipe, read by read. The
sink has what the chain has returned so far, in its order (`Waiting`, `Over`), with one exception: a
read that finds the chain stalled fails, and what it has got out of the chain by then is lost
(`Stalled`). So it depends on the way of a chunk whether it survives a stall
(`stall_depends_on_reads`). What an earlier read or a driver has handed on is safe, what the last
read takes is not; and a value that is no stream loses nothing if the chain stalls at once, because
its output goes out before its pipe is read, and then the chain has nothing to do
(`Piped.drain_quiet`).

The stages are arbitrary. A `Session` keeps the account of what they have produced; each operation
on the pipe is one on the session (`InPipe`), and so is each thing that can happen while the render
waits (`Waiting.step`). `stall_loses_last_read` puts this together for any course of events.
-/

namespace StreamingTemplate

open OutputSink

/-- A render that forwards from a pipe has been started, and awaits no variable. -/
theorem Status.started_of_piping {status : Status} {index : Nat}
    (h : status.piping? = some index) :
    status ≠ .idle ∧ status ≠ .running ∧ status.awaited? = none := by
  rcases status with _ | _ | (_ | _ | _) | _ | _ <;> simp_all [piping?, awaited?]

/-! ## Values on their way through filters

A value is on its way from the moment at which its directive is resumed with it until the next
instruction is executed. In between the render waits for its pipe, possibly many times. The
relations of this section say for each stage of that way what the sink has, in terms of what the
chain has returned to the account: waiting, over, or stalled. -/

/-- A variable whose value goes through filters. -/
structure Filtered (σ κ : Type) where
  /-- the index of the directive -/
  index : Nat
  stages : List σ
  /-- the sink before the value -/
  sink : κ

/-- Whether the host itself emits nothing. -/
def Happening.leavesSink {κ : Type} : Happening κ → Bool
  | .call (.emit _) => false
  | _ => true

namespace Filtered

variable {σ κ μ : Type} [FilterStage σ] [OutputSink κ]

/-- The directive is a variable with filters. -/
structure Shown (f : Filtered σ κ) (setup : Setup σ μ) : Prop where
  directive : ∃ name args path, setup.template.get? f.index = some (.directive name args) ∧
    setup.directives.directive? name = some Directive.var ∧ pathArg "var" args 0 = .ok path ∧
    filterSpecs args ≠ [] ∧ setup.filters.stages (filterSpecs args) = .ok f.stages

/-- The account of a chain of the stages, new or in use. -/
def Used (f : Filtered σ κ) (s : Session σ) : Prop :=
  ∃ handles, (Session.start handles f.stages).Becomes s

/-- The pipe in use has the chain, and the sink has what that has returned. -/
structure Piped (f : Filtered σ κ) (s : Session σ) (r : Render σ κ μ) : Prop where
  used : f.Used s
  pipe : ∃ p, r.pipe = some p ∧ s.InPipe p r.lines
  sink : r.sink = some (deliver f.sink s.returned)

/-- The render is suspended on the pipe. -/
structure Waiting (f : Filtered σ κ) (s : Session σ) (r : Render σ κ μ) : Prop
    extends Piped f s r where
  status : r.status.piping? = some f.index

/-- A read has found the chain stalled, and the render has failed. The sink has what the chain had
returned `before` this read, and no more; together with what the read has got out of the chain,
which is `lost`, that is all that the last stage has produced. -/
structure Stalled (f : Filtered σ κ) (before : Session σ) (lost : List String)
    (r : Render σ κ μ) : Prop where
  status : r.status = .failed
  sink : r.sink = some (deliver f.sink before.returned)
  read : ∃ fuel queued ended after, before.run (readMoves fuel queued ended) = some after ∧
    after.chain.isStalled = true ∧ after.returned = before.returned ++ lost ∧
    ∀ i, i + 1 = f.stages.length →
      Merges (Chain.made i after.log) (Chain.sent i after.log) (before.returned ++ lost)

/-- The chain has ended, and the sink has what it has returned. -/
structure Over (f : Filtered σ κ) (s : Session σ) (r : Render σ κ μ) : Prop where
  used : f.Used s
  ended : s.chain.isEnded = true
  sink : r.sink = some (deliver f.sink s.returned)

/-- What has come out of a call, where the account was `s` before it. A stall may lose some lists of
chunks and no others. -/
inductive Proceeds (f : Filtered σ κ) (setup : Setup σ μ) (s : Session σ)
    (loss : List String → Prop) : Option (Render.Outcome σ κ μ Unit) → Prop where
  /-- the stages go on for longer than there is fuel -/
  | unanswered : Proceeds f setup s loss none
  | waiting {s' outcome r} (hlater : s.Becomes s') (h : f.Waiting s' r)
      (houtcome : outcome ≠ .error .filterStalled) : Proceeds f setup s loss (some (outcome, r))
  | stalled {before lost r} (hlater : s.Becomes before) (h : f.Stalled before lost r)
      (hloss : loss lost) : Proceeds f setup s loss (some (.error .filterStalled, r))
  /-- the render has gone on with the next instruction -/
  | goesOn {s' r} (fuel : Nat) (hlater : s.Becomes s') (h : f.Over s' r) :
      Proceeds f setup s loss (Render.run setup fuel .instruction r)

variable {f : Filtered σ κ} {setup : Setup σ μ} {s s' : Session σ} {r : Render σ κ μ}
  {loss : List String → Prop}

/-- What comes of a chain after something was done to it comes of it from before as well. -/
theorem Proceeds.behind (hbefore : s.Becomes s') {o : Option (Render.Outcome σ κ μ Unit)}
    (h : f.Proceeds setup s' loss o) : f.Proceeds setup s loss o := by
  cases h with
  | unanswered => exact .unanswered
  | waiting hlater h houtcome => exact .waiting (hbefore.trans hlater) h houtcome
  | stalled hlater h hlost => exact .stalled (hbefore.trans hlater) h hlost
  | goesOn fuel hlater h => exact .goesOn fuel (hbefore.trans hlater) h

omit [OutputSink κ] in
/-- A chain stays one of the same stages. -/
theorem Used.becomes (h : f.Used s) (hlater : s.Becomes s') : f.Used s' := by
  obtain ⟨handles, hstart⟩ := h
  exact ⟨handles, hstart.trans hlater⟩

omit [OutputSink κ] in
/-- The books of a chain in use balance. -/
theorem Used.kept (h : f.Used s) : s.Kept 0 [] ∧ s.chain.links.length = f.stages.length := by
  obtain ⟨handles, moves, hrun⟩ := h
  obtain ⟨hkept, hlength⟩ := (Session.start_kept handles f.stages).run hrun
  exact ⟨hkept, hlength.trans (by simp [Session.start, Chain.ofStages])⟩

omit [OutputSink κ] in
/-- When nothing is late, what was returned is what the last stage has produced. -/
theorem Used.merges (h : f.Used s) (hrest : s.chain.AtRest) {i : Nat}
    (hi : i + 1 = f.stages.length) :
    Merges (Chain.made i s.log) (Chain.sent i s.log) s.returned := by
  obtain ⟨hkept, hlength⟩ := h.kept
  have hmerges := hkept.merges hrest (i := i) (by omega)
  rwa [Session.received_of_not_lt (by omega)] at hmerges

/-! ## Draining

A read that leaves the pipe open or ends it hands on what it has got, and the sink takes it. Only
a read that finds the chain stalled returns nothing but an error, and then what it has got is the
loss. -/

section Draining

variable [SteadySink κ]

/-- **Draining** loses something at most if the read finds the chain stalled. -/
theorem Piped.drain (h : f.Piped s r)
    (hloss : ∀ p fuel queued ended after lost, r.pipe = some p →
      (p.source = none → queued = [] ∧ ended = false) →
      s.run (readMoves fuel queued ended) = some after → after.returned = s.returned ++ lost →
      loss lost) (fuel : Nat) :
    f.Proceeds setup s loss (Render.run setup fuel (.drain f.index) r) := by
  rcases fuel with _ | fuel
  · exact .unanswered
  obtain ⟨p, hpipe, hin⟩ := h.pipe
  rcases hread : p.read fuel r.lines with _ | ⟨res, p', lines⟩
  · have hrun : Render.run setup (fuel + 1) (.drain f.index) r = none := by
      rw [Render.run, Render.turn, Render.drainTurn, hpipe]
      dsimp only
      rw [hread]
      rfl
    rw [hrun]
    exact .unanswered
  obtain ⟨queued, ended, s', chunks, hrun, hin', hreturned, hfinds, hinput⟩ := hin.read hread
  have hlater : s.Becomes s' := ⟨_, hrun⟩
  have hused := h.used.becomes hlater
  have hemit : Render.emitAll chunks { r with lines, pipe := some p' } =
      (.ok (), { r with lines, pipe := some p', sink := some (deliver f.sink s'.returned) }) := by
    rw [Forwarding.emitAll_steady chunks (by exact h.sink), ← deliver_append, ← hreturned]
  cases hfinds with
  | pending =>
    rw [Render.run_stop (Render.turn_drain_pending hpipe hread hemit)]
    refine .waiting hlater ⟨⟨hused, ⟨p', rfl, hin'⟩, rfl⟩, ?_⟩ (by simp)
    cases p'.sourceOpen <;> rfl
  | closed hended =>
    rw [Render.run_next (Render.turn_drain_closed hpipe hread hemit)]
    exact .goesOn fuel hlater ⟨hused, hended, rfl⟩
  | stalled hstalled =>
    -- nothing is emitted here: the chunks of the read are not in its answer
    rw [Render.run_stop (Render.turn_drain_error hpipe hread)]
    refine .stalled (.refl s) ⟨rfl, h.sink, fuel, queued, ended, s', hrun, hstalled, hreturned, ?_⟩
      (hloss p fuel queued ended s' chunks hpipe hinput hrun hreturned)
    intro i hi
    rw [← hreturned]
    exact hused.merges (Session.atRest_of_read h.used.kept.1 hrun) hi

/-- Draining, with no claim about what a stall may lose. -/
theorem Piped.drain_any (h : f.Piped s r) (fuel : Nat) :
    f.Proceeds setup s (fun _ => True) (Render.run setup fuel (.drain f.index) r) :=
  h.drain (fun _ _ _ _ _ _ _ _ _ _ => trivial) fuel

/-- A pipe without a stream, whose chain has nothing to do, loses nothing. -/
theorem Piped.drain_quiet (h : f.Piped s r) (hsource : ∀ p, r.pipe = some p → p.source = none)
    (hquiet : s.chain.Quiet) (fuel : Nat) :
    f.Proceeds setup s (· = []) (Render.run setup fuel (.drain f.index) r) := by
  refine h.drain ?_ fuel
  intro p fuel queued ended after lost hpipe hinput hrun hreturned
  obtain ⟨rfl, rfl⟩ := hinput (hsource p hpipe)
  obtain ⟨after', hpoll, hnil⟩ := Option.bind_eq_some_iff.mp hrun
  cases hnil
  rw [Session.poll_quiet hquiet hpoll] at hreturned
  exact List.self_eq_append_right.mp hreturned

end Draining

/-! ## Outside of the render

While the render waits, streams are written and ended, handles sent through and dropped. To the
chain each of these is a move of its session or none, and to the sink it is nothing at all. -/

/-- Something is done to the chain, and the sink gets what it returns. -/
theorem Waiting.moved {p : Pipe σ} {r' : Render σ κ μ} (h : f.Waiting s r) (hlater : s.Becomes s')
    (hpipe : r'.pipe = some p) (hin : s'.InPipe p r'.lines)
    (hsink : r'.sink = some (deliver f.sink s'.returned)) (hstatus : r'.status = r.status) :
    f.Waiting s' r' :=
  ⟨⟨h.used.becomes hlater, ⟨p, hpipe, hin⟩, hsink⟩, hstatus ▸ h.status⟩

/-- The rest of the render does not matter. -/
theorem Waiting.congr {r' : Render σ κ μ} (h : f.Waiting s r) (hpipe : r'.pipe = r.pipe)
    (hhandles : r'.lines.handles = r.lines.handles) (hsink : r'.sink = r.sink)
    (hstatus : r'.status = r.status) : f.Waiting s r' := by
  obtain ⟨p, hp, hin⟩ := h.pipe
  exact h.moved (.refl s) (hpipe.trans hp) ⟨hin.chain, hhandles.trans hin.handles⟩
    (hsink.trans h.sink) hstatus

/-- Whoever writes to streams or holds handles does what can be done to the chain from outside. -/
theorem Waiting.outside (h : f.Waiting s r) (move : OutsideMove) :
    ∃ s', s.Becomes s' ∧ f.Waiting s' (move.apply r) := by
  obtain ⟨p, hpipe, hin⟩ := h.pipe
  cases move with
  | createStream | endStream | tick => exact ⟨s, .refl s, h.congr rfl rfl rfl rfl⟩
  | write id chunk =>
    refine ⟨s, .refl s, ?_⟩
    rw [OutsideMove.apply]
    split
    · exact h.congr rfl rfl rfl rfl
    · exact h
  | send slot output =>
    have hlater : s.Becomes { s with
        chain := (Chain.sendFrom s.handles slot output (some s.chain)).2.getD s.chain
        log := s.log ++ Chain.sendLog s.chain.id s.handles slot output } :=
      ⟨[.send slot output], rfl⟩
    refine ⟨_, hlater, ?_⟩
    rw [OutsideMove.apply, Render.send, hpipe]
    refine h.moved hlater rfl ⟨?_, hin.handles⟩ h.sink rfl
    rw [hin.chain, hin.handles]
    obtain ⟨link, hsend, -⟩ | ⟨hsend, -⟩ :=
      Chain.sendFrom_cases s.handles slot output s.chain <;> rw [hsend] <;> rfl
  | release slot =>
    have hlater : s.Becomes { s with handles := s.handles.release slot } :=
      ⟨[.release slot], rfl⟩
    have hhandles := congrArg (·.release slot) hin.handles
    exact ⟨_, hlater, h.moved hlater hpipe ⟨hin.chain, hhandles⟩ h.sink rfl⟩
  | copy source target =>
    have hlater : s.Becomes { s with handles := s.handles.copy source target } :=
      ⟨[.copy source target], rfl⟩
    have hhandles := congrArg (·.copy source target) hin.handles
    exact ⟨_, hlater, h.moved hlater hpipe ⟨hin.chain, hhandles⟩ h.sink rfl⟩

/-! ## Calls

What a call does to a waiting render. It pumps, feeds or forwards, and then the pipe is drained;
or it does not concern the pipe, and the render waits as before. -/

section Calls

variable [SteadySink κ] (h : f.Waiting s r) (fuel : Nat)

include h

/-- A pump drains the pipe. -/
theorem Waiting.pump : f.Proceeds setup s (fun _ => True) (r.pump setup fuel) := by
  rw [Render.pump, h.status]
  exact h.toPiped.drain_any fuel

/-- What a wait has ended with goes through the chain and to the sink, before the pipe is read. -/
theorem Waiting.feed (event : Pipe.Event) :
    f.Proceeds setup s (fun _ => True) (r.feedPipe setup fuel event) := by
  cases event with
  | sourceEnded | stage => exact h.pump fuel
  | chunk chunk =>
    obtain ⟨p, hpipe, hin⟩ := h.pipe
    simp only [Render.feedPipe, hpipe]
    rcases hpass : p.pass fuel chunk r.lines with _ | passed
    · exact .unanswered
    · -- the sink has the output of this chunk before the read behind it, which may stall
      obtain ⟨s', hstep, hin', hreturned⟩ := hin.pass hpass
      have hlater := Session.becomes_of_step hstep
      dsimp only
      rw [Forwarding.emitAll_steady passed.chunks (by exact h.sink), ← deliver_append, ← hreturned]
      dsimp only
      refine .behind hlater (Waiting.pump ?_ fuel)
      exact h.moved hlater rfl hin' rfl rfl

/-- A wait on a side of the pipe takes what it reports. -/
theorem Waiting.forward (side : PipeSide) :
    f.Proceeds setup s (fun _ => True) ((HostCall.forward side).run setup fuel r) := by
  obtain ⟨p, hpipe, hin⟩ := h.pipe
  rw [HostCall.run]
  rcases hwait : r.waitSide? side with _ | ⟨event, r'⟩ <;> dsimp only
  · exact .waiting (.refl s) h (by simp)
  · rw [Render.waitSide?, hpipe] at hwait
    obtain ⟨⟨event', p', lines⟩, hside, heq⟩ := Option.map_eq_some_iff.mp hwait
    cases heq
    cases side with
    | source =>
      obtain ⟨rfl, hhandles⟩ := Pipe.waitSource_frame hside
      refine Waiting.feed ?_ fuel event
      exact h.congr hpipe.symm hhandles rfl rfl
    | chain =>
      simp only [Pipe.waitChain?, hin.chain, hin.handles] at hside
      obtain ⟨chain, hchain, heq⟩ := Option.map_eq_some_iff.mp hside
      cases heq
      have hstep : s.step .waitLate = some { s with chain } := by
        rw [Session.step, hchain]
        rfl
      have hlater := Session.becomes_of_step hstep
      refine .behind hlater (Waiting.feed ?_ fuel .stage)
      exact h.moved hlater rfl ⟨rfl, hin.handles⟩ h.sink rfl

/-- **A call.** -/
theorem Waiting.call (made : HostCall κ) (hquiet : (Happening.call made).leavesSink = true) :
    f.Proceeds setup s (fun _ => True) (made.run setup fuel r) := by
  obtain ⟨hidle, hrunning, hawaits⟩ := Status.started_of_piping h.status
  cases made with
  | attach sink =>
    rw [HostCall.run, Render.attach, if_neg hidle]
    exact .waiting (.refl s) h (by simp)
  | advance =>
    rw [HostCall.run, Render.advance, if_neg hrunning]
    exact .waiting (.refl s) h (by simp)
  | pump => exact h.pump fuel
  | feed event => exact h.feed fuel event
  | forward side => exact h.forward fuel side
  | set path value =>
    have hrefused : (r.setWithin path value).1 ≠ .error .filterStalled := by
      rw [Render.setWithin]
      split
      · rename_i err hset
        intro heq
        obtain rfl := Except.error.inj heq
        cases Store.set_error hset
      · simp
    have hwaiting : f.Waiting s (r.setWithin path value).2 := by
      obtain ⟨store, answers, hframe⟩ := Render.setWithin_frame path value r
      rw [hframe]
      exact h.congr rfl rfl rfl rfl
    rw [HostCall.run, Render.set_eq_setWithin hawaits]
    exact Proceeds.waiting (.refl s) hwaiting hrefused
  | get path ticket =>
    rw [HostCall.run, Render.get]
    split
    · exact .waiting (.refl s) h (by simp)
    · obtain ⟨store, answers, hframe, -⟩ := Render.ask_frame path ticket r
      rw [hframe]
      exact .waiting (.refl s) (h.congr rfl rfl rfl rfl) (by simp)
  | checkTimeout now =>
    have hstatus := h.status
    rw [HostCall.run, Render.checkTimeout]
    split
    · rename_i hsuspended
      rw [hsuspended] at hstatus
      cases hstatus
    · exact .waiting (.refl s) h (by simp)
  | skip => exact .waiting (.refl s) (h.congr rfl rfl rfl rfl) (by simp)
  | restart =>
    rw [HostCall.run, Render.restartBlock]
    obtain ⟨frame, rest, value, -, hclose⟩ | ⟨index, -, hclose⟩ :=
      r.closeBlock_closes r.currentIndex <;> rw [hclose]
    · exact .waiting (.refl s) (h.congr rfl rfl rfl rfl) (by simp)
    · exact .waiting (.refl s) h (by simp)
  | close =>
    obtain ⟨frame, rest, value, -, hclose⟩ | ⟨index, -, hclose⟩ := r.closeCurrent_closes <;>
      rw [HostCall.run, hclose]
    · exact .waiting (.refl s) (h.congr rfl rfl rfl rfl) (by simp)
    · exact .waiting (.refl s) h (by simp)
  | emit => cases hquiet

/-- **Whatever happens.** -/
theorem Waiting.step (happening : Happening κ) (hquiet : happening.leavesSink = true) :
    f.Proceeds setup s (fun _ => True) (happening.run setup fuel r) := by
  cases happening with
  | call made => exact h.call fuel made hquiet
  | outside move =>
    obtain ⟨s', hlater, hwaiting⟩ := h.outside move
    exact .waiting hlater hwaiting (by simp)
  | served path ticket =>
    obtain ⟨store, answers, hframe, -⟩ := Render.ask_frame path ticket r
    refine .waiting (.refl s) ?_ (by simp)
    rw [hframe]
    exact h.congr rfl rfl rfl rfl

end Calls

/-! ## The start

The directive is resumed with its value and a new chain. A stream is put into a pipe and drained
at once. Any other value is fed to the chain inside the body and what comes out is emitted before
there is a pipe, which is why it is safe from a stall that follows at once. -/

section Start

variable [SteadySink κ]

/-- A value that is no stream goes through the chain, and what that returns to the sink. -/
theorem perform_plain {value : Value} (hvalue : ∀ id, value ≠ .stream id)
    (setup : Setup σ μ) (path : Path) (r : Render σ κ μ) (hhandles : r.lines.handles = s.handles)
    (hsink : r.sink = some (deliver f.sink s.returned)) (fuel : Nat) :
    Render.perform setup fuel (Directive.emitValue path value (some s.chain)) r = none ∨
      ∃ s', s.run [.accept fuel value.text, .finish fuel] = some s' ∧ s'.chain.Quiet ∧
        Render.perform setup fuel (Directive.emitValue path value (some s.chain)) r =
          some (.ok (if s'.chain.isEnded then .advance else .drain s'.chain), { r with
            lines := { r.lines with handles := s'.handles }
            sink := some (deliver f.sink s'.returned) }) := by
  rw [Render.emitValue_some s.chain hvalue, Render.perform, hhandles]
  rcases haccept : s.chain.accept fuel s.handles value.text with _ | fed
  · exact .inl rfl
  dsimp only
  rw [Render.perform]
  dsimp only
  rcases hfinish : fed.chain.finish fuel fed.handles with _ | finished
  · exact .inl rfl
  dsimp only
  have hrun : ∃ given log, s.run [.accept fuel value.text, .finish fuel] =
      some ⟨finished.chain, finished.handles, given, s.returned ++ (fed.chunks ++ finished.chunks),
        log⟩ := by
    rw [Session.run, Session.step, haccept, Option.map_some, Option.bind_some, Session.run,
      Session.step]
    dsimp only [Session.after]
    rw [hfinish, ← List.append_assoc]
    exact ⟨_, _, rfl⟩
  obtain ⟨given, log, hrun⟩ := hrun
  refine .inr ⟨_, hrun, Chain.propagate_quiet hfinish, ?_⟩
  rw [Render.perform_emitAll_eq, Forwarding.emitAll_steady _ (by exact hsink), ← deliver_append]
  rfl

variable (hshown : f.Shown setup) (hstart : Session.start r.lines.handles f.stages = s)

include hshown hstart

omit [SteadySink κ] in
/-- The directive takes the value with a new chain. -/
theorem turn_resume (value : Value) :
    ∃ path, ∀ fuel, Render.turn setup fuel (.resume f.index value) r =
      Render.bodyTurn setup fuel f.index (Directive.emitValue path value (some s.chain))
        { r with lines := { r.lines with handles := s.handles } } := by
  obtain ⟨name, args, path, hget, hdir, hpath, hfiltered, hstages⟩ := hshown.directive
  refine ⟨path, fun fuel => ?_⟩
  rw [Render.turn, Render.resumption_eq_ok hget hdir, ← hstart]
  exact congrArg (Option.map _) (Render.perform_var_filtered hpath hstages hfiltered value fuel r)

/-- A stream is piped, and drained at once. -/
theorem begun_stream (hsink : r.sink = some f.sink) {id : StreamId}
    (hreader : (r.lines.streams.state id).reader = .available) (fuel : Nat) :
    f.Proceeds setup s (fun _ => True)
      (Render.run setup fuel (.resume f.index (.stream id)) r) := by
  obtain ⟨path, hturn⟩ := turn_resume hshown hstart (.stream id)
  have hpiped (fuel : Nat) :
      Render.turn setup fuel (.flow f.index (.forward id path (some s.chain)))
      { r with lines := { r.lines with handles := s.handles } } =
      some (.next (.drain f.index), { r with
        pipe := some ⟨some id, some s.chain⟩
        lines :=
          ⟨r.lines.streams.update id fun st => { st with reader := .taken }, s.handles⟩ }) := by
    simp only [Render.turn, Render.flowTurn, Pipe.open?, Streams.takeReader?, hreader, if_true,
      Option.map_some]
  have hused : f.Used s := ⟨r.lines.handles, [], congrArg some hstart⟩
  rcases fuel with _ | _ | fuel
  · exact .unanswered
  · rw [Render.run_next (hturn 0)]
    exact .unanswered
  · rw [Render.run_next (hturn (fuel + 1)), Render.run_next (hpiped fuel)]
    refine Piped.drain_any ⟨hused, ⟨_, rfl, rfl, rfl⟩, ?_⟩ fuel
    rw [← hstart]
    exact hsink

/-- Another value has gone out before its pipe is read, so a stall at this moment loses nothing. -/
theorem begun_plain (hsink : r.sink = some f.sink) {value : Value}
    (hvalue : ∀ id, value ≠ .stream id) (fuel : Nat) :
    f.Proceeds setup s (· = []) (Render.run setup fuel (.resume f.index value) r) := by
  obtain ⟨path, hturn⟩ := turn_resume hshown hstart value
  have hsink' : r.sink = some (deliver f.sink s.returned) := by
    rw [← hstart]
    exact hsink
  have hused : f.Used s := ⟨r.lines.handles, [], congrArg some hstart⟩
  rcases fuel with _ | fuel
  · exact .unanswered
  obtain hnone | ⟨s', hrun, hquiet, hperform⟩ := perform_plain hvalue setup path
    { r with lines := { r.lines with handles := s.handles } } rfl hsink' fuel
  · rw [Render.run, hturn, Render.bodyTurn, hnone]
    exact .unanswered
  have hlater : s.Becomes s' := ⟨_, hrun⟩
  rw [Render.run_next ((hturn fuel).trans (Render.bodyTurn_ok hperform))]
  rcases fuel with _ | fuel
  · exact .unanswered
  cases hended : s'.chain.isEnded with
  | true =>
    exact Proceeds.goesOn fuel hlater ⟨hused.becomes hlater, hended, rfl⟩
  | false =>
    -- the chain has just been told of its end, so the read that follows gets nothing out of it
    refine .behind hlater (Piped.drain_quiet ?_ ?_ hquiet fuel)
    · exact ⟨hused.becomes hlater, ⟨_, rfl, rfl, rfl⟩, rfl⟩
    · intro p hp
      cases hp
      rfl

end Start

/-! ## The course of a value

Whatever happens while a value is on its way is a list of happenings. `Course` follows it: the
render waits after each of them, up to one with which the value is through, or the chain is found
stalled, or the call does not return. -/

/-- What becomes of a value while things happen one after the other: the render is suspended on the
pipe after each of them, up to one in which it goes on, stalls, or does not come back. -/
inductive Course (setup : Setup σ μ) (fuel : Nat) (f : Filtered σ κ) :
    Session σ → List (Happening κ) → Option (Render.Outcome σ κ μ Unit) → Prop where
  | rest {s s' outcome r} (hlater : s.Becomes s') (h : f.Waiting s' r)
      (houtcome : outcome ≠ .error .filterStalled) : Course setup fuel f s [] (some (outcome, r))
  | next {s s' happening later outcome r} (hlater : s.Becomes s') (h : f.Waiting s' r)
      (houtcome : outcome ≠ .error .filterStalled)
      (hnext : Course setup fuel f s' later (happening.run setup fuel r)) :
      Course setup fuel f s (happening :: later) (some (outcome, r))
  | stalled {s later before lost r} (hlater : s.Becomes before) (h : f.Stalled before lost r) :
      Course setup fuel f s later (some (.error .filterStalled, r))
  /-- all that happens later is behind the value -/
  | goesOn {s s' later fuel' r} (hlater : s.Becomes s') (h : f.Over s' r) :
      Course setup fuel f s later (Render.run setup fuel' .instruction r)
  | unanswered {s later} : Course setup fuel f s later none

/-- From one happening to the next, by induction on their list. -/
theorem Proceeds.course [SteadySink κ] {happenings : List (Happening κ)} {fuel : Nat}
    (hquiet : ∀ happening ∈ happenings, happening.leavesSink = true)
    {o : Option (Render.Outcome σ κ μ Unit)} (h : f.Proceeds setup s loss o) :
    f.Course setup fuel s happenings o := by
  -- on what is still to happen; the account has gone on by then, and may lose anything
  induction happenings generalizing s loss o with
  | nil =>
    cases h with
    | unanswered => exact .unanswered
    | waiting hlater h houtcome => exact .rest hlater h houtcome
    | stalled hlater h => exact .stalled hlater h
    | goesOn fuel hlater h => exact .goesOn hlater h
  | cons happening later ih =>
    cases h with
    | unanswered => exact .unanswered
    | waiting hlater h houtcome =>
      have hstep : f.Proceeds setup _ _ (happening.run setup fuel _) :=
        h.step fuel happening (hquiet happening List.mem_cons_self)
      exact .next hlater h houtcome (ih (fun l hl => hquiet l (List.mem_cons_of_mem _ hl)) hstep)
    | stalled hlater h => exact .stalled hlater h
    | goesOn fuel hlater h => exact .goesOn hlater h

end Filtered

/-- **What a stall loses.** A variable has filters, of any kind, and its value is a stream whose
reader is still there, or no stream; the sink never fails, and the host leaves it alone. Whatever
happens then, in whatever order, the sink has all that the chain has returned whenever the render
waits for the pipe or has gone on behind it. A call that finds the chain stalled has lost what its
last read has got out of the chain, which is what is missing from the production of the last stage,
and nothing else. A value that is no stream loses nothing if the chain stalls at once. -/
theorem stall_loses_last_read {σ κ μ : Type} [FilterStage σ] [OutputSink κ] [SteadySink κ]
    {setup : Setup σ μ} {r : Render σ κ μ} {f : Filtered σ κ} (hshown : f.Shown setup)
    (hsink : r.sink = some f.sink) {value : Value}
    (hreader : ∀ id, value = .stream id → (r.lines.streams.state id).reader = .available)
    {happenings : List (Happening κ)}
    (hquiet : ∀ happening ∈ happenings, happening.leavesSink = true) (fuel : Nat) :
    f.Course setup fuel (Session.start r.lines.handles f.stages) happenings
        (Render.run setup fuel (.resume f.index value) r) ∧
      ((∀ id, value ≠ .stream id) →
        f.Proceeds setup (Session.start r.lines.handles f.stages) (· = [])
          (Render.run setup fuel (.resume f.index value) r)) := by
  have hplain : (∀ id, value ≠ .stream id) → f.Proceeds setup _ (· = []) _ :=
    fun hvalue => Filtered.begun_plain hshown rfl hsink hvalue fuel
  refine ⟨?_, hplain⟩
  by_cases hvalue : ∃ id, value = .stream id
  · obtain ⟨id, rfl⟩ := hvalue
    exact (Filtered.begun_stream hshown rfl hsink (hreader id rfl) fuel).course hquiet
  · exact (hplain (not_exists.mp hvalue)).course hquiet

/-- A stage that passes everything on and never ends. -/
def ScriptedStage.endless : ScriptedStage :=
  { script := { accept := [.echo], finish := [] }, args := [] }

/-- A variable with a filter that never ends. -/
def Setup.stalling : Setup ScriptedStage Unit :=
  { template := ⟨[.directive "var" [.path ⟨["x"]⟩, .filter ⟨"stall", []⟩]]⟩
    directives := Directive.builtins
    filters := FilterRegistry.empty.register "stall" fun _ => .ok ScriptedStage.endless }

/-- A render to which a variable has been given, with a stream beside it. -/
def Render.given (value : Value) (stream : StreamState) : Render ScriptedStage Collector Unit :=
  { (fresh () ⟨⟨[stream]⟩, {}⟩ : Render ScriptedStage Collector Unit) with
    store := { vars := [("x", value)] } }

/-- The same render with a sink, come to the variable. -/
def Render.asked (value : Value) (stream : StreamState) : Render ScriptedStage Collector Unit :=
  { given value stream with cursor := 1, sink := some {}, status := .running }

/-- A stream that is pumped after its first chunk and then again at its end, and a text. -/
theorem stall_loses_last_read_pumped :
    Filtered.Course Setup.stalling 9 ⟨0, [ScriptedStage.endless], {}⟩
        (Session.start {} [ScriptedStage.endless])
        [.outside (.write 0 "b"), .outside (.endStream 0), .call .pump]
        (Render.run Setup.stalling 9 (.resume 0 (.stream 0))
          (Render.asked (.stream 0) { queue := ["a"] })) ∧
      Filtered.Proceeds ⟨0, [ScriptedStage.endless], {}⟩ Setup.stalling
        (Session.start {} [ScriptedStage.endless]) (· = [])
        (Render.run Setup.stalling 9 (.resume 0 (.str "a")) (Render.asked (.str "a") {})) := by
  have hshown : Filtered.Shown ⟨0, [ScriptedStage.endless], ({} : Collector)⟩ Setup.stalling :=
    ⟨"var", _, ⟨["x"]⟩, rfl, rfl, rfl, List.cons_ne_nil _ _, rfl⟩
  constructor
  · refine
      (stall_loses_last_read (r := Render.asked (.stream 0) { queue := ["a"] }) hshown rfl ?_ ?_
      9).1
    · intro id h
      cases h
      rfl
    · simp [Happening.leavesSink]
  · have hnothing : ∀ happening ∈ ([] : List (Happening Collector)), happening.leavesSink = true :=
      nofun
    exact (stall_loses_last_read (r := Render.asked (.str "a") {}) hshown rfl (by nofun) hnothing
      9).2 nofun

/-- The same text, given at once, as a stream that is read when it has ended, and as a stream that
is read before: all three stall, and only the second has lost it. -/
theorem stall_depends_on_reads :
    ∃ plain once early late : Render ScriptedStage Collector Unit,
      (Render.given (.str "partial") {}).attach Setup.stalling 9 {} =
        some (.error .filterStalled, plain) ∧
      (Render.given (.stream 0) { queue := ["partial"], writerOpen := false }).attach
        Setup.stalling 9 {} = some (.error .filterStalled, once) ∧
      (Render.given (.stream 0) { queue := ["partial"] }).attach Setup.stalling 9 {} =
        some (.ok (), early) ∧
      ((OutsideMove.endStream 0).apply early).pump Setup.stalling 9 =
        some (.error .filterStalled, late) ∧
      plain.sink = some { chunks := ["partial"] } ∧ once.sink = some { chunks := [] } ∧
      late.sink = some { chunks := ["partial"] } :=
  ⟨_, _, _, _, rfl, rfl, rfl, rfl, rfl, rfl, rfl⟩

end StreamingTemplate

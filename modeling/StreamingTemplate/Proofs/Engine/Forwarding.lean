import StreamingTemplate.Proofs.Engine.Builtin
import StreamingTemplate.Proofs.Engine.Waits
import StreamingTemplate.Proofs.Pipe

/-!
# A stream is forwarded

A variable whose value is a stream is piped to the output, as chunks arrive. They come on two ways:
the render reads all that is queued when it is pumped, and a driver waits for one chunk, or for the
chain, and hands it over. Between any of this chunks are written, variables are set and the chain is
polled.

`Underway` says what holds all the while, in terms of a new pipe of the same stages: the sink has
what this pipe makes of the chunks that were taken from the stream, the rest of what was written is
still queued, and the pipe in use is like the new one behind these chunks. Each thing that can
happen keeps it, or comes to the end of the stream (`Underway.step`), and then everything written
has gone through the pipe before the next instruction is executed (`Over`). `stream_forwarded` puts
this together for any course of events.
-/

namespace StreamingTemplate

/-! ## Streams and what happens to them

A stream is forwarded over many calls, and between these its writer goes on writing. To say what
the sink must have in the end, the chunks are compared with a new pipe of the same filters that
is fed the same chunks all at once: what has been made of the chunks consumed so far is exactly
what the sink has (`Flowing`). -/

/-- A stream that is forwarded. -/
structure Forwarding (σ κ : Type) where
  /-- the index of the directive -/
  index : Nat
  stream : StreamId
  stages : List σ
  /-- the place of the render meanwhile, behind the directive -/
  place : Place
  /-- the sink before the first chunk -/
  sink : κ

/-- What can happen to a render. -/
inductive Happening (κ : Type) where
  | call (call : HostCall κ)
  | outside (move : OutsideMove)
  /-- a wait of the host is served, behind a write that has woken it -/
  | served (path : Path) (ticket : String)

namespace Happening

variable {σ κ μ : Type} [FilterStage σ] [OutputSink κ]

def run (setup : Setup σ μ) (fuel : Nat) (happening : Happening κ) (r : Render σ κ μ) :
    Option (Render.Outcome σ κ μ Unit) :=
  match happening with
  | .call made => made.run setup fuel r
  | .outside moved => some (.ok (), moved.apply r)
  | .served path ticket => some (.ok (), r.ask path ticket)

/-- Whether the output, the place and the input of the pipe are left to the stream. -/
def spares : Happening κ → Bool
  | .call (.emit _) | .call .skip | .call .restart | .call .close | .call (.feed _)
  | .outside (.send ..) => false
  | _ => true

omit [FilterStage σ] [OutputSink κ] in
/-- The chunks that are written to a stream. -/
def writes (stream : StreamId) (r : Render σ κ μ) : Happening κ → List String
  | .outside (.write id chunk) =>
    if id = stream ∧ (r.lines.streams.state id).writerOpen = true then [chunk] else []
  | _ => []

end Happening

namespace Forwarding

variable {σ κ μ : Type} [FilterStage σ] [OutputSink κ]

/-- The directive is a variable with filters that act inside their calls and end with their input.
-/
structure Shown (f : Forwarding σ κ) (setup : Setup σ μ) (P : σ → Prop) : Prop where
  directive : ∃ name args path, setup.template.get? f.index = some (.directive name args) ∧
    setup.directives.directive? name = some Directive.var ∧ pathArg "var" args 0 = .ok path ∧
    setup.filters.stages (filterSpecs args) = .ok f.stages
  inline : InlineStages P
  stages : ∀ stage ∈ f.stages, P stage
  ends : Pipe.EndsWithInput f.stages

/-- The stream flows: of the chunks written, a new pipe has made what the sink has, and the others
are queued. -/
structure Flowing (f : Forwarding σ κ) (P : σ → Prop) (written : List String)
    (r : Render σ κ μ) : Prop where
  place : r.place = f.place
  reader : (r.lines.streams.state f.stream).reader = .taken
  forwarded : ∃ pipe consumed out fed, r.pipe = some pipe ∧ pipe.source = some f.stream ∧
    written = consumed ++ (r.lines.streams.state f.stream).queue ∧
    (Pipe.fresh f.stages).passAll 1 consumed {} = some ⟨out, fed, {}⟩ ∧ pipe.Alike P fed ∧
    r.sink = some (OutputSink.deliver f.sink out)

/-- The stream flows, and the render is suspended on it. -/
structure Underway (f : Forwarding σ κ) (P : σ → Prop) (written : List String)
    (r : Render σ κ μ) : Prop extends Flowing f P written r where
  status : r.status = .suspended (.stream f.index)

/-- The stream has ended, and the sink has all that a new pipe makes of it. -/
structure Over (f : Forwarding σ κ) (written : List String) (r : Render σ κ μ) : Prop where
  status : r.status = .running
  pipe : r.pipe = none
  place : r.place = f.place
  ended : (r.lines.streams.state f.stream).writerOpen = false
  consumed : (r.lines.streams.state f.stream).queue = []
  forwarded : ∃ out fed last finished,
    (Pipe.fresh f.stages).passAll 1 written {} = some ⟨out, fed, {}⟩ ∧
    fed.finish 1 {} = some ⟨last, finished, {}⟩ ∧
    r.sink = some (OutputSink.deliver f.sink (out ++ last))

/-- What has come out of a call or a move: the stream is underway still, or over, and then the
render goes on with the next instruction, with more than `fuel` left. -/
def Proceeds (f : Forwarding σ κ) (setup : Setup σ μ) (P : σ → Prop) (fuel : Nat)
    (written : List String) (o : Option (Render.Outcome σ κ μ Unit)) : Prop :=
  (∃ outcome r, o = some (outcome, r) ∧ f.Underway P written r) ∨
    ∃ fuel' r, fuel < fuel' ∧ o = Render.run setup fuel' .instruction r ∧ f.Over written r

variable {f : Forwarding σ κ} {setup : Setup σ μ} {P : σ → Prop} {written : List String}
  {r : Render σ κ μ}

/-- More fuel that is left is enough for less. -/
theorem Proceeds.mono {fuel fuel' : Nat} (hfuel : fuel ≤ fuel')
    {o : Option (Render.Outcome σ κ μ Unit)} (h : f.Proceeds setup P fuel' written o) :
    f.Proceeds setup P fuel written o := by
  obtain hunderway | ⟨left, r, hleft, hrun, hover⟩ := h
  · exact .inl hunderway
  · exact .inr ⟨left, r, Nat.lt_of_le_of_lt hfuel hleft, hrun, hover⟩

/-! ## Draining

One turn takes everything that is queued. As long as the writer has not ended the stream, the
render waits for it afterwards; if it has, the end goes through the filters in the same turn, and
the stream is over. -/

omit [FilterStage σ] in
/-- A sink that never fails takes all chunks, one by one. -/
theorem emitAll_steady [SteadySink κ] {sink : κ} (chunks : List String)
    (hsink : r.sink = some sink) :
    Render.emitAll chunks r =
      (.ok (), { r with sink := some (OutputSink.deliver sink chunks) }) := by
  induction chunks generalizing r sink with
  | nil =>
    cases r
    cases hsink
    rfl
  | cons chunk rest ih =>
    rw [Render.emitAll, Render.emit_steady chunk hsink]
    exact ih rfl

/-- The pipe has the reading end of the stream, so nobody has dropped it. -/
theorem Flowing.reader_ne (h : f.Flowing P written r) :
    (r.lines.streams.state f.stream).reader ≠ .dropped := by
  rw [h.reader]
  exact nofun

section Draining

variable [SteadySink κ] (hshown : f.Shown setup P) (h : f.Flowing P written r)

include hshown h

/-- While the writer goes on, a turn that drains the pipe takes all that is queued, and suspends the
render. -/
theorem Flowing.drain_open (hwriter : (r.lines.streams.state f.stream).writerOpen = true)
    (fuel : Nat) :
    ∃ r', Render.run setup (fuel + 2) (.drain f.index) r = some (.ok (), r') ∧
      f.Underway P written r' := by
  obtain ⟨pipe, consumed, out, fed, hpipe, hsource, rfl, hfed, halike, hsink⟩ := h.forwarded
  obtain ⟨more, pipe', fed', hread, hmore, halike', hsource'⟩ :=
    halike.read_open hshown.inline fuel 0 {} hsource h.reader_ne hwriter
  have hturn : Render.turn setup (fuel + 1) (.drain f.index) r = some (.stop (.ok ()), { r with
      lines := { r.lines with streams := (r.lines.streams.readAll f.stream).2 }
      pipe := some pipe'
      sink := some (OutputSink.deliver (OutputSink.deliver f.sink out) more)
      status := .suspended (.stream f.index) }) := by
    rw [Render.turn_drain_pending hpipe hread (emitAll_steady more (by exact hsink))]
    simp only [Pipe.sourceOpen, hsource', Option.isSome_some, if_true]
  have hstate := Streams.state_update_self h.reader_ne fun st => { st with queue := [] }
  refine ⟨_, Render.run_stop hturn, ⟨h.place, ?_, ?_⟩, rfl⟩
  · exact (congrArg StreamState.reader hstate).trans h.reader
  · refine ⟨pipe', _, out ++ more, fed', rfl, hsource', ?_, Pipe.passAll_append hfed hmore,
      halike', ?_⟩
    · exact (List.append_nil _).symm.trans
        (congrArg (_ ++ ·) (congrArg StreamState.queue hstate).symm)
    · rw [OutputSink.deliver_append]

/-- Once the writer has ended the stream, a turn that drains the pipe comes to its end. -/
theorem Flowing.drain_ended (hwriter : (r.lines.streams.state f.stream).writerOpen = false)
    (fuel : Nat) :
    ∃ r', Render.run setup (fuel + 2) (.drain f.index) r =
      Render.run setup (fuel + 1) .instruction r' ∧ f.Over written r' := by
  obtain ⟨pipe, consumed, out, fed, hpipe, hsource, rfl, hfed, halike, hsink⟩ := h.forwarded
  obtain ⟨more, last, pipe', fed', finished, hread, hmore, hfinish, hsource'⟩ :=
    halike.read_ended hshown.inline fuel 0 {} hsource h.reader_ne hwriter
      fun passed ended hpassed hended =>
        hshown.ends _ _ ended (Pipe.passAll_append hfed hpassed) hended
  have hturn : Render.turn setup (fuel + 1) (.drain f.index) r = some (.next .instruction, { r with
      lines := { r.lines with streams := (r.lines.streams.readAll f.stream).2 }
      pipe := none
      sink := some (OutputSink.deliver (OutputSink.deliver f.sink out) (more ++ last))
      status := .running }) := by
    rw [Render.turn_drain_closed hpipe hread (emitAll_steady _ (by exact hsink))]
    simp only [Render.dropPipe, Pipe.drop, hsource']
  have hstate := Streams.state_update_self h.reader_ne fun st => { st with queue := [] }
  refine ⟨_, Render.run_next hturn, rfl, rfl, h.place, ?_, ?_, ?_⟩
  · exact (congrArg StreamState.writerOpen hstate).trans hwriter
  · exact congrArg StreamState.queue hstate
  · refine ⟨out ++ more, fed', last, finished, Pipe.passAll_append hfed hmore, hfinish, ?_⟩
    rw [List.append_assoc]
    exact congrArg some (OutputSink.deliver_append ..).symm

/-- **Draining.** -/
theorem Flowing.drain (fuel : Nat) :
    f.Proceeds setup P fuel written (Render.run setup (fuel + 2) (.drain f.index) r) := by
  cases hwriter : (r.lines.streams.state f.stream).writerOpen with
  | true =>
    obtain ⟨r', hrun, hunderway⟩ := h.drain_open hshown hwriter fuel
    exact .inl ⟨_, r', hrun, hunderway⟩
  | false =>
    obtain ⟨r', hrun, hover⟩ := h.drain_ended hshown hwriter fuel
    exact .inr ⟨fuel + 1, r', Nat.lt_succ_self fuel, hrun, hover⟩

end Draining

/-! ## Outside of the render

Writers append to the stream, and other streams and handles change without a trace. What a move
writes to this stream is what `Happening.writes` says. -/

/-- The streams and handles change, and chunks are written to the stream. -/
theorem Underway.withLines (h : f.Underway P written r) (lines : Lines) {more : List String}
    (hreader : (lines.streams.state f.stream).reader = (r.lines.streams.state f.stream).reader)
    (hqueue : (lines.streams.state f.stream).queue =
      (r.lines.streams.state f.stream).queue ++ more) :
    f.Underway P (written ++ more) { r with lines } where
  place := h.place
  reader := hreader.trans h.reader
  forwarded := by
    obtain ⟨pipe, consumed, out, fed, hpipe, hsource, hwritten, hfed, halike, hsink⟩ := h.forwarded
    refine ⟨pipe, consumed, out, fed, hpipe, hsource, ?_, hfed, halike, hsink⟩
    rw [hwritten, List.append_assoc]
    exact congrArg (consumed ++ ·) hqueue.symm
  status := h.status

/-- Nothing of the stream changes. -/
theorem Underway.withSameStream (h : f.Underway P written r) (lines : Lines)
    (hstate : lines.streams.state f.stream = r.lines.streams.state f.stream) :
    f.Underway P (written ++ []) { r with lines } :=
  h.withLines lines (congrArg StreamState.reader hstate)
    ((congrArg StreamState.queue hstate).trans (List.append_nil _).symm)

/-- **A move outside** leaves the stream underway, with what it has written at the end of the
queue. -/
theorem Underway.outside (h : f.Underway P written r) (move : OutsideMove)
    (hspares : (Happening.outside move : Happening κ).spares = true) :
    f.Underway P (written ++ (Happening.outside move : Happening κ).writes f.stream r)
      (move.apply r) := by
  have hsame : f.Underway P (written ++ []) r := by rwa [List.append_nil]
  cases move with
  | createStream => exact h.withSameStream _ (Streams.state_create h.reader_ne)
  | write id chunk =>
    simp only [OutsideMove.apply, Happening.writes]
    by_cases hopen : (r.lines.streams.state id).writerOpen = true
    · by_cases hid : id = f.stream
      · subst hid
        simp only [hopen, and_self, if_true]
        have hstate := Streams.state_write_self h.reader_ne chunk
        exact h.withLines _ (by rw [hstate]) (by rw [hstate])
      · simp only [hopen, hid, false_and, if_true, if_false]
        exact h.withSameStream { r.lines with streams := (r.lines.streams.write id chunk).2 }
          (Streams.state_write_of_ne hid chunk)
    · simp only [hopen, Bool.false_eq_true, and_false, if_false]
      exact hsame
  | endStream id =>
    by_cases hid : id = f.stream
    · subst hid
      have hstate := Streams.state_update_self h.reader_ne fun st => { st with writerOpen := false }
      exact h.withLines { r.lines with streams := r.lines.streams.endWriting f.stream }
        (by rw [Streams.endWriting, hstate])
        (by rw [Streams.endWriting, hstate]; exact (List.append_nil _).symm)
    · exact h.withSameStream { r.lines with streams := r.lines.streams.endWriting id }
        (Streams.state_update_of_ne hid _)
  | send slot output => cases hspares
  | release slot | copy source target => exact h.withSameStream _ rfl
  | tick now => exact ⟨⟨hsame.place, hsame.reader, hsame.forwarded⟩, hsame.status⟩

/-! ## Calls

Every call that spares the stream either does not touch it or drains it, by a pump or behind what
a driver has waited for. In each case the stream is underway afterwards, or over and the run goes
on. -/

section Calls

variable [SteadySink κ] (hshown : f.Shown setup P) (h : f.Underway P written r) (fuel : Nat)

include hshown h

/-- A pump drains what is queued. -/
theorem Underway.pump :
    f.Proceeds setup P fuel written (r.pump setup (fuel + 2)) := by
  rw [Render.pump, h.status]
  exact h.toFlowing.drain hshown fuel

/-- Once the writer has ended the stream, the next pump comes to its end. -/
theorem Underway.pump_ended (hended : (r.lines.streams.state f.stream).writerOpen = false) :
    ∃ r', r.pump setup (fuel + 2) = Render.run setup (fuel + 1) .instruction r' ∧
      f.Over written r' := by
  rw [Render.pump, h.status]
  exact h.toFlowing.drain_ended hshown hended fuel

omit hshown in
/-- A chunk that was taken from the stream goes through the pipe before those behind it. What is
left to do is to pump a render in which the stream is underway as before. -/
theorem Underway.feed_chunk (hinline : InlineStages P) {chunk : String} {rest : List String}
    (hqueue : (r.lines.streams.state f.stream).queue = chunk :: rest) {lines : Lines}
    (hlines : lines.streams.state f.stream =
      { r.lines.streams.state f.stream with queue := rest }) :
    ∃ r', f.Underway P written r' ∧ (r'.lines.streams.state f.stream).writerOpen =
        (r.lines.streams.state f.stream).writerOpen ∧
      Render.feedPipe setup (fuel + 2) (.chunk chunk) { r with lines } =
        Render.pump setup (fuel + 2) r' := by
  obtain ⟨pipe, consumed, out, fed, hpipe, hsource, rfl, hfed, halike, hsink⟩ := h.forwarded
  obtain ⟨more, pipe', fed', hpass, hmore, halike', hsource'⟩ :=
    halike.pass hinline (fuel + 1) 0 chunk lines {}
  refine ⟨{ r with
    lines
    pipe := some pipe'
    sink := some (OutputSink.deliver (OutputSink.deliver f.sink out) more) },
    ?underway, by rw [hlines], ?fed⟩
  case underway =>
    refine ⟨⟨h.place, by rw [hlines]; exact h.reader, ?_⟩, h.status⟩
    refine ⟨pipe', consumed ++ [chunk], out ++ more, fed', rfl, hsource'.trans hsource, ?_, ?_,
      halike', ?_⟩
    · rw [hlines, hqueue, List.append_assoc]
      rfl
    · exact Pipe.passAll_append hfed ((Pipe.passAll_singleton 1 chunk fed {}).trans hmore)
    · rw [OutputSink.deliver_append]
  case fed =>
    simp only [Render.feedPipe, hpipe, hpass]
    rw [emitAll_steady (r := { r with pipe := some pipe', lines }) more hsink]

omit hshown in
/-- A driver that waits for the stream finds nothing while the writer goes on, or comes to pump a
render in which the stream is underway as before: behind the chunk it has taken, or because the
stream has ended. -/
theorem Underway.forward_source_cases (hinline : InlineStages P) :
    ((r.lines.streams.state f.stream).writerOpen = true ∧
      (HostCall.forward .source).run setup (fuel + 2) r = some (.ok (), r)) ∨
    ∃ r', f.Underway P written r' ∧ (r'.lines.streams.state f.stream).writerOpen =
        (r.lines.streams.state f.stream).writerOpen ∧
      (HostCall.forward .source).run setup (fuel + 2) r = r'.pump setup (fuel + 2) := by
  obtain ⟨pipe, -, -, -, hpipe, hsource, -⟩ := h.forwarded
  have hwait : r.waitSide? .source = (pipe.waitSource? r.lines).map fun result =>
      (result.1, { r with pipe := some result.2.1, lines := result.2.2 }) := by
    rw [Render.waitSide?, hpipe]
  have hsame : { r with pipe := some pipe } = r := by rw [← hpipe]
  rw [HostCall.run]
  rcases hqueue : (r.lines.streams.state f.stream).queue with _ | ⟨chunk, rest⟩
  · have hread : r.lines.streams.read? f.stream = none := by rw [Streams.read?, hqueue]
    cases hwriter : (r.lines.streams.state f.stream).writerOpen with
    | true =>
      have hnone : r.waitSide? .source = none := by
        simp only [hwait, Pipe.waitSource?, hsource, hread, hwriter, if_true, Option.map_none]
      rw [hnone]
      exact .inl ⟨rfl, rfl⟩
    | false =>
      have hended : r.waitSide? .source = some (.sourceEnded, r) := by
        simp only [hwait, Pipe.waitSource?, hsource, hread, hwriter, Bool.false_eq_true, if_false,
          Option.map_some, hsame]
      rw [hended]
      exact .inr ⟨r, h, hwriter, rfl⟩
  · have hchunk : r.waitSide? .source = some (.chunk chunk, { r with lines := { r.lines with
        streams := r.lines.streams.update f.stream fun st => { st with queue := rest } } }) := by
      simp only [hwait, Pipe.waitSource?, hsource, Streams.read?, hqueue, Option.map_some]
      rw [← hpipe]
    rw [hchunk]
    exact .inr (h.feed_chunk fuel hinline hqueue (Streams.state_update_self h.reader_ne _))

/-- A driver that has waited for the stream hands over the chunk it has taken, or has the pipe
drained if the stream has ended. -/
theorem Underway.forward_source :
    f.Proceeds setup P fuel written ((HostCall.forward .source).run setup (fuel + 2) r) := by
  obtain ⟨-, hrun⟩ | ⟨r', hunderway, -, hrun⟩ := h.forward_source_cases fuel hshown.inline
  · exact .inl ⟨_, _, hrun, h⟩
  · rw [hrun]
    exact hunderway.pump hshown fuel

/-- **Once the writer has ended the stream** a pump comes to its end, and so does a driver that
waits for the stream. -/
theorem Underway.ended (hended : (r.lines.streams.state f.stream).writerOpen = false)
    {call : HostCall κ} (hcall : call = .pump ∨ call = .forward .source) :
    ∃ last, call.run setup (fuel + 2) r = Render.run setup (fuel + 1) .instruction last ∧
      f.Over written last := by
  obtain rfl | rfl := hcall
  · exact h.pump_ended hshown fuel hended
  · obtain ⟨hopen, -⟩ | ⟨r', hunderway, hwriter, hrun⟩ := h.forward_source_cases fuel hshown.inline
    · cases hopen.symm.trans hended
    · rw [hrun]
      exact hunderway.pump_ended hshown fuel (hwriter.trans hended)

/-- A driver that has waited for the chain has the pipe drained. -/
theorem Underway.forward_chain :
    f.Proceeds setup P fuel written
      ((HostCall.forward .chain).run setup (fuel + 2) r) := by
  obtain ⟨pipe, consumed, out, fed, hpipe, hsource, rfl, hfed, halike, hsink⟩ := h.forwarded
  rw [HostCall.run]
  rcases hwait : r.waitSide? .chain with _ | ⟨event, r'⟩ <;> dsimp only
  · exact .inl ⟨_, _, rfl, h⟩
  · rw [Render.waitSide?, hpipe] at hwait
    obtain ⟨⟨event', pipe', lines⟩, hwait', heq⟩ := Option.map_eq_some_iff.mp hwait
    obtain ⟨rfl, rfl, halike', hsource'⟩ := halike.waitChain hwait'
    cases heq
    refine Underway.pump hshown (r := { r with pipe := some pipe' })
      ⟨⟨h.place, h.reader, ?_⟩, h.status⟩ fuel
    exact ⟨pipe', consumed, out, fed, rfl, hsource'.trans hsource, rfl, hfed, halike', hsink⟩

omit hshown [SteadySink κ] in
theorem Underway.withWaits (store : Store Waiter) (answers : List (String × Value)) :
    f.Underway P written { r with store, answers } :=
  ⟨⟨h.place, h.reader, h.forwarded⟩, h.status⟩

omit hshown [SteadySink κ] in
/-- Questions of the host do not concern the stream. -/
theorem Underway.ask (path : Path) (ticket : String) :
    f.Underway P written (r.ask path ticket) := by
  obtain ⟨store, answers, hframe, -⟩ := Render.ask_frame path ticket r
  rw [hframe]
  exact h.withWaits store answers

/-- **A call.** -/
theorem Underway.call (made : HostCall κ) (hspares : (Happening.call made).spares = true) :
    f.Proceeds setup P fuel written (made.run setup (fuel + 2) r) := by
  cases made with
  | attach sink =>
    rw [HostCall.run, Render.attach, if_neg (by simp [h.status])]
    exact .inl ⟨_, _, rfl, h⟩
  | advance =>
    rw [HostCall.run, Render.advance, if_neg (by simp [h.status])]
    exact .inl ⟨_, _, rfl, h⟩
  | pump => exact h.pump hshown fuel
  | set path value =>
    rw [HostCall.run, Render.set_eq_setWithin (by rw [h.status]; rfl)]
    obtain ⟨store, answers, hframe⟩ := Render.setWithin_frame path value r
    refine .inl ⟨_, (r.setWithin path value).2, rfl, ?_⟩
    rw [hframe]
    exact h.withWaits store answers
  | get path ticket =>
    rw [HostCall.run, Render.get]
    split
    · exact .inl ⟨_, _, rfl, h⟩
    · exact .inl ⟨_, _, rfl, h.ask path ticket⟩
  | checkTimeout now =>
    refine .inl ⟨_, (r.checkTimeout setup.settings now).2, rfl, ?_⟩
    rw [Render.checkTimeout, h.status]
    cases setup.settings.waitTimeout <;> exact h
  | forward side =>
    cases side with
    | source => exact h.forward_source hshown fuel
    | chain => exact h.forward_chain hshown fuel
  | emit | skip | restart | close | feed => cases hspares

/-- **Whatever happens.** -/
theorem Underway.step (happening : Happening κ) (hspares : happening.spares = true) :
    f.Proceeds setup P fuel (written ++ happening.writes f.stream r)
      (happening.run setup (fuel + 2) r) := by
  have hnone : written ++ [] = written := List.append_nil written
  cases happening with
  | call made => exact hnone.symm ▸ h.call hshown fuel made hspares
  | outside move => exact .inl ⟨_, _, rfl, h.outside move hspares⟩
  | served path ticket => exact hnone.symm ▸ .inl ⟨_, _, rfl, h.ask path ticket⟩

end Calls

/-! ## The start

The value of the variable is a stream: `var` pipes it through a new chain of its filters, and the
first drain takes what was queued before. -/

omit [OutputSink κ] [FilterStage σ] in
/-- Some filters make some stages. -/
theorem isEmpty_stages {registry : FilterRegistry σ} {spec : FilterSpec} {specs : List FilterSpec}
    {stages : List σ} (h : registry.stages (spec :: specs) = .ok stages) :
    stages.isEmpty = false := by
  rw [FilterRegistry.stages] at h
  split at h
  · cases h
  · rename_i stage _
    cases hrest : registry.stages specs <;> rw [hrest] at h
    · cases h
    · obtain rfl := Except.ok.inj h
      rfl

/-- The body of `var` has a stream piped through a new chain of its filters. -/
theorem perform_var_stream {args : List Argument} {path : Path} {stages : List σ}
    (hpath : pathArg "var" args 0 = .ok path)
    (hstages : setup.filters.stages (filterSpecs args) = .ok stages) (stream : StreamId)
    (fuel : Nat) (r : Render σ κ μ) :
    ∃ handles, Render.perform setup fuel (Directive.var.resume args (.stream stream)) r =
      some (.ok (.forward stream path
          (if stages.isEmpty then none else some (Chain.ofStages r.lines.handles stages).1)),
        { r with lines := { r.lines with handles } }) := by
  rcases hspecs : filterSpecs args with _ | ⟨spec, specs⟩
  · rw [hspecs] at hstages
    obtain rfl : [] = stages := Except.ok.inj hstages
    refine ⟨r.lines.handles, ?_⟩
    simp only [Directive.var, hpath, Body.orFail, hspecs]
    rfl
  · refine ⟨(Chain.ofStages r.lines.handles stages).2, ?_⟩
    rw [Render.perform_var_filtered hpath hstages (by simp [hspecs]),
      isEmpty_stages (hspecs ▸ hstages)]
    rfl

/-- **The start.** A directive that is given a stream pipes it, and drains what is queued. -/
theorem begun [SteadySink κ] (hshown : f.Shown setup P)
    (hreader : (r.lines.streams.state f.stream).reader = .available)
    (hsink : r.sink = some f.sink) (hplace : r.place = f.place) (fuel : Nat) :
    f.Proceeds setup P fuel (r.lines.streams.state f.stream).queue
      (Render.run setup (fuel + 4) (.resume f.index (.stream f.stream)) r) := by
  obtain ⟨name, args, path, hget, hdir, hpath, hstages⟩ := hshown.directive
  obtain ⟨handles, hperform⟩ := perform_var_stream hpath hstages f.stream (fuel + 3) r
  have halike := Pipe.alike_fresh hshown.stages r.lines.handles (some f.stream)
  generalize (if f.stages.isEmpty then none
    else some (Chain.ofStages r.lines.handles f.stages).1) = chain at hperform halike
  -- from here on the reading end is the pipe's
  obtain ⟨lines, hlines⟩ : ∃ lines : Lines, lines =
      ⟨r.lines.streams.update f.stream fun st => { st with reader := .taken }, handles⟩ := ⟨_, rfl⟩
  have hpiped : Render.turn setup (fuel + 2) (.flow f.index (.forward f.stream path chain))
      { r with lines := { r.lines with handles } } =
      some (.next (.drain f.index), { r with pipe := some ⟨some f.stream, chain⟩, lines }) := by
    simp only [Render.turn, Render.flowTurn, Pipe.open?, Streams.takeReader?, hreader, if_true,
      Option.map_some, hlines]
  have hstate : lines.streams.state f.stream =
      { r.lines.streams.state f.stream with reader := .taken } := by
    rw [hlines]
    exact Streams.state_update_self (by simp [hreader]) _
  have hflowing : f.Flowing P (r.lines.streams.state f.stream).queue
      { r with pipe := some ⟨some f.stream, chain⟩, lines } := by
    refine ⟨hplace, by rw [hstate], ?_⟩
    refine ⟨_, [], [], Pipe.fresh f.stages, rfl, rfl, ?_, rfl, halike, hsink⟩
    rw [hstate]
    rfl
  rw [Render.run_resumed hget hdir hperform, Render.run_next hpiped]
  exact hflowing.drain hshown fuel

end Forwarding

/-! ## The course of a stream

`Course` is the run of happenings with the claim at every point: the stream is underway after
each, until it is over. What comes behind it belongs to the rest of the template. -/

section Course

variable {σ κ μ : Type} [FilterStage σ] [OutputSink κ]

/-- What becomes of a stream while things happen one after the other: it is underway after each of
them, up to one that comes to its end, if one does. Each call has `fuel` for four turns and more. -/
inductive Course (setup : Setup σ μ) (fuel : Nat) (f : Forwarding σ κ) (P : σ → Prop) :
    List (Happening κ) → List String → Option (Render.Outcome σ κ μ Unit) → Prop where
  | rest {written outcome r} (h : f.Underway P written r) :
      Course setup fuel f P [] written (some (outcome, r))
  | next {happening later written outcome r} (h : f.Underway P written r)
      (hnext : Course setup fuel f P later (written ++ happening.writes f.stream r)
        (happening.run setup (fuel + 4) r)) :
      Course setup fuel f P (happening :: later) written (some (outcome, r))
  /-- all that happens later is behind the stream -/
  | over {later written fuel' r} (hfuel : fuel < fuel') (h : f.Over written r) :
      Course setup fuel f P later written (Render.run setup fuel' .instruction r)

variable {setup : Setup σ μ} {f : Forwarding σ κ} {P : σ → Prop} {r : Render σ κ μ} {fuel : Nat}

/-- From one happening to the next, by induction on their list. -/
theorem Forwarding.Proceeds.course [SteadySink κ] (hshown : f.Shown setup P)
    {happenings : List (Happening κ)} (hspares : ∀ happening ∈ happenings, happening.spares = true)
    {written : List String} {o : Option (Render.Outcome σ κ μ Unit)}
    (h : f.Proceeds setup P fuel written o) : Course setup fuel f P happenings written o := by
  induction happenings generalizing written o with
  | nil =>
    obtain ⟨outcome, r, rfl, hunderway⟩ | ⟨fuel', r, hfuel, rfl, hover⟩ := h
    · exact .rest hunderway
    · exact .over hfuel hover
  | cons happening later ih =>
    obtain ⟨outcome, r, rfl, hunderway⟩ | ⟨fuel', r, hfuel, rfl, hover⟩ := h
    · refine .next hunderway (ih (fun l hl => hspares l (List.mem_cons_of_mem _ hl)) ?_)
      exact (hunderway.step hshown (fuel + 2) happening (hspares happening List.mem_cons_self)).mono
        (Nat.le_add_right fuel 2)
    · exact .over hfuel hover

end Course

variable {σ κ μ : Type} [FilterStage σ] [OutputSink κ] [SteadySink κ] {setup : Setup σ μ}
  {P : σ → Prop} {r : Render σ κ μ}

/-- A render that has come to a variable, with a stream into which a chunk was written. -/
def Render.streaming : Render TextFilter Collector Unit :=
  { (fresh () ⟨⟨[{ queue := ["a"] }]⟩, {}⟩ : Render TextFilter Collector Unit) with
    store := { vars := [("x", .stream 0)] }, cursor := 1, sink := some {}, status := .running }

end StreamingTemplate

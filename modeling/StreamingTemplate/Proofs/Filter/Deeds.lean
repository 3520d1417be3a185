import StreamingTemplate.Proofs.Filter.Delivery

/-!
# The deeds of a chain

The log of a chain tells of chunks only. The *deeds* of a chain tell everything that happens between
it and its stages, in order of time: the calls of the stages, among them that their input is over,
and what they produce, among it that they signal their end. As with the log, each definition follows
the one of the same name of the chain through the same states. The deeds of an operation that does
not return are those of the passes its fuel allows.

* `answers` — a stage is a function of its calls: what it has become, and what it has put out;
* `Accounted` — the deeds account for what a called stage does to its effects, its end included;
* `ran_eq`, `ran_accounted` — a link makes the calls that are due, and its deeds account for them;
* `run_events` — the log is what the deeds tell of chunks.
-/

namespace StreamingTemplate

/-! ## Calls of a stage

A stage sees nothing of the chain but its own calls. Its state and what it puts out are therefore
a function of the list of calls, `answers`, and two chains that call a stage alike have it answer
alike. -/

/-- A call of a stage. -/
inductive StageCall where
  | accept (chunk : String)
  /-- the stage is told that its input is over -/
  | finish
  deriving DecidableEq, Repr

/-- What an action puts out inside the call. -/
def StageAction.put? : StageAction → Option LateOutput
  | .push chunk => some (.chunk chunk)
  | .finish => some .finish
  | .send .. | .release _ | .copy .. => none

section Calls

variable {σ : Type} [FilterStage σ]

/-- What a stage does when it is called. -/
def StageCall.on (stage : σ) : StageCall → σ × List StageAction
  | .accept chunk => FilterStage.accept stage chunk
  | .finish => FilterStage.finish stage

/-- What a stage becomes through calls in order, and what it puts out inside them. -/
def answers : σ → List StageCall → σ × List LateOutput
  | stage, [] => (stage, [])
  | stage, call :: rest =>
    let (next, actions) := call.on stage
    let (last, output) := answers next rest
    (last, actions.filterMap StageAction.put? ++ output)

/-- A stage that is called in two parts takes up the second where the first left it, and its
output is that of the first part followed by that of the second. -/
theorem answers_append (stage : σ) (before later : List StageCall) :
    answers stage (before ++ later) =
      ((answers (answers stage before).1 later).1,
        (answers stage before).2 ++ (answers (answers stage before).1 later).2) := by
  induction before generalizing stage with
  | nil => rfl
  | cons call rest ih => simp [answers, ih]

end Calls

namespace Chain

/-! ## Deeds

Deeds refine the events of the log by the two things that are no chunks: the call that says the
input is over, and the end that a stage signals, inside a call or through its handle. -/

/-- Something that happens between a chain and the stage at a position. -/
inductive Deed where
  /-- the stage is called -/
  | call (link : Nat) (call : StageCall)
  /-- the stage puts something out inside a call -/
  | put (link : Nat) (output : LateOutput)
  /-- something is sent through the handle of the stage -/
  | sent (link : Nat) (output : LateOutput)
  deriving DecidableEq, Repr

/-- The calls of the stage at a position. -/
def calls (link : Nat) (deeds : List Deed) : List StageCall :=
  deeds.filterMap fun
    | .call l call => if l = link then some call else none
    | _ => none

/-- What the stage at a position has put out inside its calls. -/
def puts (link : Nat) (deeds : List Deed) : List LateOutput :=
  deeds.filterMap fun
    | .put l output => if l = link then some output else none
    | _ => none

/-- What was sent through the handle of the stage at a position. -/
def sends (link : Nat) (deeds : List Deed) : List LateOutput :=
  deeds.filterMap fun
    | .sent l output => if l = link then some output else none
    | _ => none

/-- What the stage at a position has produced, in order of time: put out inside its calls or sent
through its handle. -/
def produced (link : Nat) (deeds : List Deed) : List LateOutput :=
  deeds.filterMap fun
    | .put l output | .sent l output => if l = link then some output else none
    | _ => none

@[simp] theorem calls_nil (i : Nat) : calls i [] = [] := rfl
@[simp] theorem puts_nil (i : Nat) : puts i [] = [] := rfl
@[simp] theorem sends_nil (i : Nat) : sends i [] = [] := rfl
@[simp] theorem produced_nil (i : Nat) : produced i [] = [] := rfl

@[simp] theorem calls_append (i : Nat) (D D' : List Deed) :
    calls i (D ++ D') = calls i D ++ calls i D' := List.filterMap_append

@[simp] theorem puts_append (i : Nat) (D D' : List Deed) :
    puts i (D ++ D') = puts i D ++ puts i D' := List.filterMap_append

@[simp] theorem sends_append (i : Nat) (D D' : List Deed) :
    sends i (D ++ D') = sends i D ++ sends i D' := List.filterMap_append

@[simp] theorem produced_append (i : Nat) (D D' : List Deed) :
    produced i (D ++ D') = produced i D ++ produced i D' := List.filterMap_append

/-- Whatever a stage has produced was put out or sent, and the order of the two among each other
is what `produced` adds to `puts` and `sends`. -/
theorem mem_produced {i : Nat} {D : List Deed} {output : LateOutput} :
    output ∈ produced i D ↔ output ∈ puts i D ∨ output ∈ sends i D := by
  simp only [produced, puts, sends, List.mem_filterMap, ← exists_or, ← and_or_left]
  -- the same deed answers both questions
  refine exists_congr fun deed => and_congr_right fun _ => ?_
  cases deed <;> simp

/-! ## Produced output

An output is its chunks in order and a mark that says whether an end is among what was produced. The
mark keeps no chunk away, so one output can be put together from parts with no regard to where in
them an end stands. -/

/-- Late output in order, as one output. -/
def outputOf (outputs : List LateOutput) : Output := outputs.foldl Output.deliver {}

@[simp] theorem outputOf_nil : outputOf [] = {} := rfl

/-- Delivering a list to an output that has something already is delivering the list to nothing
and absorbing the result. It lets `outputOf` be computed in parts. -/
theorem foldl_deliver (out : Output) (outputs : List LateOutput) :
    outputs.foldl Output.deliver out = out.absorb (outputOf outputs) := by
  induction outputs generalizing out with
  | nil => simp
  | cons output rest ih =>
    rw [outputOf, List.foldl_cons, List.foldl_cons, ih, ih (Output.deliver {} output),
      Output.deliver_eq_absorb out, Output.absorb_assoc]

@[simp] theorem outputOf_append (before later : List LateOutput) :
    outputOf (before ++ later) = (outputOf before).absorb (outputOf later) := by
  rw [outputOf, List.foldl_append, foldl_deliver]
  rfl

/-- The first output is delivered to nothing, and the rest is absorbed by what that gives. -/
theorem outputOf_cons (output : LateOutput) (rest : List LateOutput) :
    outputOf (output :: rest) = (Output.deliver {} output).absorb (outputOf rest) :=
  foldl_deliver _ rest

/-- The mark is set exactly when an end is in the list, wherever it stands. -/
theorem ended_outputOf (outputs : List LateOutput) :
    (outputOf outputs).ended = true ↔ .finish ∈ outputs := by
  induction outputs with
  | nil => simp
  | cons output rest ih =>
    rw [outputOf_cons]
    cases output <;> simp [Output.deliver, Output.push, Output.finish, ih]

/-- No chunk is left exactly when there was none to deliver: a stage that produced only ends has
put out nothing that the next link could see. -/
theorem chunks_outputOf (outputs : List LateOutput) :
    (outputOf outputs).chunks = [] ↔ ∀ output ∈ outputs, output = .finish := by
  induction outputs with
  | nil => simp
  | cons output rest ih =>
    rw [outputOf_cons]
    cases output <;> simp [Output.deliver, Output.push, Output.finish, ih]

/-- A stage that has produced only ends has put out no chunk, -/
theorem chunks_puts {i : Nat} {D : List Deed} (h : ∀ output ∈ produced i D, output = .finish) :
    (outputOf (puts i D)).chunks = [] :=
  (chunks_outputOf _).mpr fun output ho => h output (mem_produced.mpr (.inl ho))

/-- and none was sent through its handle. -/
theorem chunks_sends {i : Nat} {D : List Deed} (h : ∀ output ∈ produced i D, output = .finish) :
    (outputOf (sends i D)).chunks = [] :=
  (chunks_outputOf _).mpr fun output ho => h output (mem_produced.mpr (.inr ho))

/-- What the mailbox has for a link grows by what is sent to it. -/
theorem lateFor_append_sent (i link : Nat) (output : LateOutput)
    (mailbox : List (Nat × LateOutput)) :
    lateFor i (mailbox ++ [(link, output)]) =
      (lateFor i mailbox).absorb (outputOf (sends i [.sent link output])) := by
  rw [lateFor, List.filter_append, List.foldl_append]
  by_cases h : link = i
  · simp [lateFor, sends, h, outputOf, ← Output.deliver_eq_absorb]
  · simp [lateFor, sends, h]

/-! ## The deeds of a called stage

A stage may send to its own chain, also to links before it, while it is being called, so a deed
of sending stands between the deeds of the call that did it. As in the log, the deeds of actions
run through the states that the actions make. -/

/-- The deeds of sending through the handle in a slot, for the chain with a number. -/
def sendDeeds (id : Nat) (handles : Handles) (slot : String) (output : LateOutput) : List Deed :=
  match handles.get? slot with
  | some handle => if handle.chain = id then [.sent handle.link output] else []
  | none => []

/-- The deeds of an action of the stage of a link. -/
def actDeeds (id link : Nat) (e : Effects) : StageAction → List Deed
  | .push chunk => [.put link (.chunk chunk)]
  | .finish => [.put link .finish]
  | .send slot output => sendDeeds id e.handles slot output
  | .release _ | .copy _ _ => []

/-- The deeds of actions in order. -/
def actAllDeeds (id link : Nat) : Effects → List StageAction → List Deed
  | _, [] => []
  | e, action :: rest => actDeeds id link e action ++ actAllDeeds id link (act id e action) rest

/-- Sending through a slot posts to a link of the chain, with the deed of that, or does nothing. -/
theorem sendFrom_deeds {σ : Type} (handles : Handles) (slot : String) (output : LateOutput)
    (c : Chain σ) :
    (∃ link, (sendFrom handles slot output (some c)).2 = some (c.post link output) ∧
      sendDeeds c.id handles slot output = [.sent link output]) ∨
    ((sendFrom handles slot output (some c)).2 = some c ∧
      sendDeeds c.id handles slot output = []) := by
  simp only [sendFrom, sendDeeds]
  cases handles.get? slot with
  | none => exact .inr ⟨rfl, rfl⟩
  | some handle =>
    by_cases hid : c.id = handle.chain
    · exact .inl ⟨handle.link, by simp [hid], by simp [hid]⟩
    · exact .inr ⟨by simp [hid], by simp [Ne.symm hid]⟩

variable {σ : Type} [FilterStage σ]

/-- The effects of calls of a stage in order. -/
def callAll (id : Nat) : σ → Effects → List StageCall → Effects
  | _, e, [] => e
  | stage, e, call :: rest =>
    let (next, actions) := call.on stage
    callAll id next (actAll id e actions) rest

/-- The deeds of calls of the stage of a link in order. -/
def callAllDeeds (id link : Nat) : σ → Effects → List StageCall → List Deed
  | _, _, [] => []
  | stage, e, call :: rest =>
    let (next, actions) := call.on stage
    .call link call ::
      (actAllDeeds id link e actions ++ callAllDeeds id link next (actAll id e actions) rest)

/-- The deeds of the stage of a link account for what it does to its effects when it is called. -/
structure Accounted (link : Nat) (called : List StageCall) (outputs : List LateOutput)
    (e e' : Effects) (deeds : List Deed) : Prop where
  /-- that link is called, no other is -/
  calls : ∀ i, Chain.calls i deeds = if i = link then called else []
  /-- no other link puts anything out -/
  puts : ∀ i, Chain.puts i deeds = if i = link then outputs else []
  /-- what is put out goes behind the output -/
  out : e'.out = e.out.absorb (outputOf outputs)
  /-- what is sent goes behind what the mailbox had -/
  late : ∀ i, lateFor i e'.mailbox = (lateFor i e.mailbox).absorb (outputOf (sends i deeds))

namespace Accounted

variable {link : Nat} {called called' : List StageCall} {outputs outputs' : List LateOutput}
  {e e' e'' : Effects} {deeds deeds' : List Deed}

/-- No call and no deed leave the effects as they are. -/
theorem refl (link : Nat) (e : Effects) : Accounted link [] [] e e [] where
  calls i := by simp
  puts i := by simp
  out := by simp
  late i := by simp

/-- What is done in two parts is accounted for by the deeds of both in order. Absorbing is
associative, and this is the reason that `out` and `late` speak of outputs as wholes and not of
their chunks. -/
theorem trans (h : Accounted link called outputs e e' deeds)
    (h' : Accounted link called' outputs' e' e'' deeds') :
    Accounted link (called ++ called') (outputs ++ outputs') e e'' (deeds ++ deeds') where
  calls i := by
    rw [calls_append, h.calls, h'.calls]
    split <;> rfl
  puts i := by
    rw [puts_append, h.puts, h'.puts]
    split <;> rfl
  out := by rw [h'.out, h.out, outputOf_append, Output.absorb_assoc]
  late i := by rw [h'.late, h.late, sends_append, outputOf_append, Output.absorb_assoc]

/-- Being called does nothing by itself. -/
theorem call (link : Nat) (call : StageCall) (e : Effects) :
    Accounted link [call] [] e e [.call link call] where
  calls i := by
    by_cases h : i = link
    · simp [Chain.calls, h]
    · simp [Chain.calls, h, Ne.symm h]
  puts i := by simp [Chain.puts]
  out := by simp
  late i := by simp [sends]

/-- What is put out goes to the output. -/
theorem put (link : Nat) (output : LateOutput) (e : Effects) :
    Accounted link [] [output] e { e with out := e.out.deliver output } [.put link output] where
  calls i := by simp [Chain.calls]
  puts i := by
    by_cases h : i = link
    · simp [Chain.puts, h]
    · simp [Chain.puts, h, Ne.symm h]
  out := Output.deliver_eq_absorb e.out output
  late i := by simp [sends]

/-- What is done with the handles is not accounted for. -/
theorem rehandle (link : Nat) (e : Effects) (handles : Handles) :
    Accounted link [] [] e { e with handles } [] where
  calls i := by simp
  puts i := by simp
  out := by simp
  late i := by simp

end Accounted

/-- **An action is accounted for by its deeds**: the one it puts out if it is a push or an end,
the one it sends if the handle belongs to this chain, and none if it only moves handles about. -/
theorem act_accounted (id link : Nat) (e : Effects) (action : StageAction) :
    Accounted link [] action.put?.toList e (act id e action) (actDeeds id link e action) := by
  cases action with
  | push chunk => exact .put link (.chunk chunk) e
  | finish => exact .put link .finish e
  | send slot output =>
    simp only [act, actDeeds, sendDeeds]
    cases e.handles.get? slot with
    | none => exact .refl link e
    | some handle =>
      by_cases h : handle.chain = id
      · simp only [h, if_true]
        refine ⟨?_, ?_, ?_, ?_⟩
        · intro i
          simp [calls]
        · intro i
          simp [puts, StageAction.put?]
        · simp [StageAction.put?]
        · intro i
          exact lateFor_append_sent i handle.link output e.mailbox
      · simp only [h, if_false]
        exact .refl link e
  | release slot => exact .rehandle link e _
  | copy source target => exact .rehandle link e _

/-- The actions of one call in order. What they put out is the list of those that put something
out. -/
theorem actAll_accounted (id link : Nat) (e : Effects) (actions : List StageAction) :
    Accounted link [] (actions.filterMap StageAction.put?) e (actAll id e actions)
      (actAllDeeds id link e actions) := by
  induction actions generalizing e with
  | nil => exact .refl link e
  | cons action rest ih =>
    have hput : (action :: rest).filterMap StageAction.put? =
        action.put?.toList ++ rest.filterMap StageAction.put? := by
      rw [List.filterMap_cons]
      cases action.put? <;> rfl
    rw [hput]
    -- the deeds of the action come first, those of the rest start from the state it leaves
    exact (act_accounted id link e action).trans (ih (act id e action))

/-- **The deeds of a stage account for its calls.** -/
theorem callAll_accounted (id link : Nat) (stage : σ) (e : Effects) (called : List StageCall) :
    Accounted link called (answers stage called).2 e (callAll id stage e called)
      (callAllDeeds id link stage e called) := by
  induction called generalizing stage e with
  | nil => exact .refl link e
  | cons call rest ih =>
    -- the call comes first, what the stage does in it next
    have hcall := (Accounted.call link call e).trans
      (actAll_accounted id link e (call.on stage).2)
    exact hcall.trans (ih _ _)

/-! ## The deeds of a link

In one run a link makes all the calls it owes, first the chunks and then, once in its life, the
end (`due`). This is stated as an equation for `ran`, which was defined by its two phases, so
that the deeds can be those of one list of calls. -/

omit [FilterStage σ] in
/-- The calls a link owes its stage: the chunks that have come, and the end of its input if that has
come and the stage was not yet told. -/
def due (link : Link σ) (upstreamEnded : Bool) (chunks : List String) : List StageCall :=
  chunks.map .accept ++ if upstreamEnded && !link.finished then [.finish] else []

/-- The effects of calls in two parts: the second part is made of the stage that the first has
left. -/
theorem callAll_append (id : Nat) (stage : σ) (e : Effects) (before later : List StageCall) :
    callAll id stage e (before ++ later) =
      callAll id (answers stage before).1 (callAll id stage e before) later := by
  induction before generalizing stage e with
  | nil => rfl
  | cons call rest ih => exact ih _ _

/-- The deeds of calls in two parts, with the stage and the effects that the first part has left. -/
theorem callAllDeeds_append (id link : Nat) (stage : σ) (e : Effects)
    (before later : List StageCall) :
    callAllDeeds id link stage e (before ++ later) = callAllDeeds id link stage e before ++
      callAllDeeds id link (answers stage before).1 (callAll id stage e before) later := by
  induction before generalizing stage e with
  | nil => rfl
  | cons call rest ih =>
    simp only [List.cons_append, callAllDeeds, ih, List.append_assoc]
    rfl

/-- Feeding chunks is calling the stage with each of them. -/
theorem feed_eq_callAll (id : Nat) (stage : σ) (e : Effects) (chunks : List String) :
    feed id stage e chunks =
      ((answers stage (chunks.map .accept)).1, callAll id stage e (chunks.map .accept)) := by
  induction chunks generalizing stage e with
  | nil => rfl
  | cons chunk rest ih =>
    rw [feed_cons, ih]
    rfl

/-- Running a link makes the calls that are due. -/
theorem ran_eq (p : Passing σ) (link : Link σ) :
    ran p link =
      ({ link with
          stage := (answers link.stage (due link p.upstreamEnded p.chunks)).1
          finished := link.finished || p.upstreamEnded
          late := {} },
        callAll p.chain.id link.stage
          { out := link.late, mailbox := p.chain.mailbox, handles := p.handles }
          (due link p.upstreamEnded p.chunks)) := by
  rw [ran, runStage, feed_eq_callAll, due]
  cases hup : p.upstreamEnded with
  | false => simp
  | true =>
    cases hfinished : link.finished with
    | false =>
      -- told of the end for the first time: the calls are the chunks and one more
      simp only [answers_append, callAll_append]
      rfl
    | true => simp

/-- The deeds of running the link at a position. -/
def runLinkDeeds (p : Passing σ) (index : Nat) : List Deed :=
  match p.chain.links[index]? with
  | none => []
  | some link =>
    callAllDeeds p.chain.id index link.stage
      { out := link.late, mailbox := p.chain.mailbox, handles := p.handles }
      (due link p.upstreamEnded p.chunks)

/-- The deeds of a link account for its run. -/
theorem ran_accounted {p : Passing σ} {index : Nat} {link : Link σ}
    (hlink : p.chain.links[index]? = some link) :
    Accounted index (due link p.upstreamEnded p.chunks)
      (answers link.stage (due link p.upstreamEnded p.chunks)).2
      { out := link.late, mailbox := p.chain.mailbox, handles := p.handles }
      (ran p link).2 (runLinkDeeds p index) := by
  rw [ran_eq, runLinkDeeds, hlink]
  exact callAll_accounted _ _ _ _ _

/-! ## The deeds of an operation

As the log does, the deeds follow the links of a pass and the passes of an operation. -/

/-- The deeds of running links in order. -/
def linksDeeds : Passing σ → List Nat → List Deed
  | _, [] => []
  | p, index :: rest => runLinkDeeds p index ++ linksDeeds (runLink p index) rest

/-- The deeds of one pass over all links. -/
def passDeeds (handles : Handles) (chunks : List String) (c : Chain σ) : List Deed :=
  linksDeeds { chunks, upstreamEnded := c.inputEnded, chain := c.collect handles, handles }
    (List.range c.links.length)

/-- The deeds of passing until no link has late output left, or the fuel runs out. -/
def propagateDeeds : Nat → Handles → List String → Chain σ → List Deed
  | 0, _, _, _ => []
  | fuel + 1, handles, chunks, c =>
    let p := c.pass handles chunks
    passDeeds handles chunks c ++
      if p.chain.hasLate then propagateDeeds fuel p.handles [] p.chain else []

/-! ## The log

Forgetting the ends turns deeds into events, and each definition of deeds into the one of the
log. The lemmas go up the same ladder as the definitions, from sending to passing on. -/

omit [FilterStage σ] in
/-- The event of a deed, if a chunk enters or leaves the stage. -/
def Deed.event? : Deed → Option Event
  | .call link (.accept chunk) => some (.took link chunk)
  | .put link (.chunk chunk) => some (.made link chunk)
  | .sent link (.chunk chunk) => some (.sent link chunk)
  | .call _ .finish | .put _ .finish | .sent _ .finish => none

/-- The events of deeds. -/
def events (deeds : List Deed) : List Event := deeds.filterMap Deed.event?

/-- Forgetting goes deed by deed, so it respects the order of parts. -/
theorem events_append (D D' : List Deed) : events (D ++ D') = events D ++ events D' :=
  List.filterMap_append

/-- A chunk that is sent is an event, an end that is sent is none, and neither is a send that
goes to another chain. -/
theorem events_sendDeeds (id : Nat) (handles : Handles) (slot : String) (output : LateOutput) :
    events (sendDeeds id handles slot output) = sendLog id handles slot output := by
  rw [sendDeeds, sendLog]
  cases handles.get? slot with
  | none => rfl
  | some handle =>
    by_cases h : handle.chain = id
    · cases output <;> simp [h, events, Deed.event?, postLog, lateChunks]
    · simp [h, events]

theorem events_actDeeds (id link : Nat) (e : Effects) (action : StageAction) :
    events (actDeeds id link e action) = actLog id link e action := by
  cases action with
  | send slot output => exact events_sendDeeds id e.handles slot output
  | push | finish | release | copy => rfl

theorem events_actAllDeeds (id link : Nat) (e : Effects) (actions : List StageAction) :
    events (actAllDeeds id link e actions) = actAllLog id link e actions := by
  induction actions generalizing e with
  | nil => rfl
  | cons action rest ih => rw [actAllDeeds, actAllLog, events_append, events_actDeeds, ih]

/-- Feeding: the calls are all chunks, so that no deed of a call is lost. -/
theorem events_feed (id link : Nat) (stage : σ) (e : Effects) (chunks : List String) :
    events (callAllDeeds id link stage e (chunks.map .accept)) =
      feedLog id link stage e chunks := by
  induction chunks generalizing stage e with
  | nil => rfl
  | cons chunk rest ih =>
    have hactions := events_actAllDeeds id link e (FilterStage.accept stage chunk).2
    -- the chunk is taken first, what the stage does with it comes next
    rw [feedLog]
    dsimp only
    rw [← ih, ← hactions, ← events_append]
    rfl

/-- A run of a stage, with the call that says its input is over if it is due: that call leaves no
event itself, what the stage does in it may. -/
theorem events_runStage (id index : Nat) (upstreamEnded : Bool) (link : Link σ)
    (chunks : List String) (e : Effects) :
    events (callAllDeeds id index link.stage e (due link upstreamEnded chunks)) =
      runStageLog id index upstreamEnded link chunks e := by
  rw [due, callAllDeeds_append, events_append, events_feed, runStageLog, feed_eq_callAll]
  dsimp only
  cases upstreamEnded && !link.finished with
  | false => rfl
  | true =>
    simp only [if_true, callAllDeeds, List.append_nil]
    exact congrArg _ (events_actAllDeeds ..)

theorem events_runLinkDeeds (p : Passing σ) (index : Nat) :
    events (runLinkDeeds p index) = runLinkLog p index := by
  rw [runLinkDeeds, runLinkLog]
  cases p.chain.links[index]? with
  | none => rfl
  | some link => exact events_runStage _ _ _ { link with late := {} } _ _

theorem events_linksDeeds (p : Passing σ) (indices : List Nat) :
    events (linksDeeds p indices) = linksLog p indices := by
  induction indices generalizing p with
  | nil => rfl
  | cons index rest ih => rw [linksDeeds, linksLog, events_append, events_runLinkDeeds, ih]

/-- **Passing on**: pass by pass the deeds tell the log, also when the fuel runs out before the
chain has come to rest. -/
theorem events_propagateDeeds (fuel : Nat) (handles : Handles) (chunks : List String)
    (c : Chain σ) :
    events (propagateDeeds fuel handles chunks c) = propagateLog fuel handles chunks c := by
  induction fuel generalizing handles chunks c with
  | zero => rfl
  | succ fuel ih =>
    have hpass : events (passDeeds handles chunks c) = passLog handles chunks c :=
      events_linksDeeds _ _
    rw [propagateDeeds, propagateLog, events_append, hpass]
    split
    · rw [ih]
    · rfl

end Chain

/-! ## The deeds of a session

A session is what the holder of a chain does with it. A move that does not return leaves no
session to go on with, but its deeds were done; this is why `deeds` keeps them and then stops. -/

namespace Session

open Chain

variable {σ : Type} [FilterStage σ]

/-- The deeds of a move, also of an operation that does not return. -/
def stepDeeds (s : Session σ) : ChainMove → List Deed
  | .accept fuel chunk => propagateDeeds fuel s.handles [chunk] s.chain
  | .finish fuel => propagateDeeds fuel s.handles [] { s.chain with inputEnded := true }
  | .poll fuel => propagateDeeds fuel s.handles [] s.chain
  | .send slot output => sendDeeds s.chain.id s.handles slot output
  | .waitLate | .release _ | .copy _ _ => []

/-- The deeds of moves in order. A move that does not return is the last one. -/
def deeds : List ChainMove → Session σ → List Deed
  | [], _ => []
  | move :: rest, s =>
    s.stepDeeds move ++ match s.step move with
      | some s' => deeds rest s'
      | none => []

/-- One move writes into the log of the session what its deeds tell of chunks; moving handles and
waiting write nothing. -/
theorem step_events {s s' : Session σ} {move : ChainMove} (hmove : s.step move = some s') :
    s'.log = s.log ++ events (s.stepDeeds move) := by
  cases move with
  | accept fuel chunk | finish fuel | poll fuel =>
    obtain ⟨r, -, rfl⟩ := Option.map_eq_some_iff.mp hmove
    exact congrArg _ (events_propagateDeeds ..).symm
  | waitLate =>
    obtain ⟨c, -, rfl⟩ := Option.map_eq_some_iff.mp hmove
    exact (List.append_nil _).symm
  | send slot output =>
    cases hmove
    exact congrArg _ (events_sendDeeds ..).symm
  | release slot | copy source target =>
    cases hmove
    exact (List.append_nil _).symm

/-- **The log is what the deeds tell of chunks.** By induction over the moves, each of which
extends the log at its end. -/
theorem run_events {s s' : Session σ} {moves : List ChainMove} (hrun : s.run moves = some s') :
    s'.log = s.log ++ events (s.deeds moves) := by
  induction moves generalizing s with
  | nil =>
    cases hrun
    exact (List.append_nil _).symm
  | cons move rest ih =>
    obtain ⟨s₁, hmove, hrest⟩ := Option.bind_eq_some_iff.mp hrun
    rw [deeds, hmove, events_append, ← List.append_assoc, ← step_events hmove]
    exact ih hrest

end Session

end StreamingTemplate

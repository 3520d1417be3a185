import StreamingTemplate.Proofs.Filter.Finishing

/-!
# The log against the stages

The log of a chain is kept beside it, and the chain does not read it. That it tells the truth is
seen from the stages. A stage may keep a record of the chunks it accepts; whatever else it does, its
record and the log never disagree, so what the log calls `taken` is what the stages were handed. And
the log is what the deeds of the chain tell of chunks, so what it calls `made` is what the stages,
called with the chunks `taken`, have pushed.

* `recorded_runLink` — the record of every link grows by what the log of one run says;
* `recorded_run` — and so through every sequence of operations, waits and uses of handles;
* `run_called` — the stages have answered the calls with these chunks as the log says.

`delivered_exactly_once` says what has become of the chunks.
-/

namespace StreamingTemplate

open Chain

variable {σ : Type} [FilterStage σ]

/-- `record` reads off a stage the chunks it has accepted. -/
structure Records (record : σ → List String) : Prop where
  accept : ∀ (stage : σ) (chunk : String),
    record (FilterStage.accept stage chunk).1 = record stage ++ [chunk]
  finish : ∀ stage : σ, record (FilterStage.finish stage).1 = record stage

/-- Any stage with a record beside it. -/
structure Recording (σ : Type) where
  stage : σ
  seen : List String := []

instance : FilterStage (Recording σ) where
  accept r chunk :=
    let (stage, actions) := FilterStage.accept r.stage chunk
    ({ stage, seen := r.seen ++ [chunk] }, actions)
  finish r :=
    let (stage, actions) := FilterStage.finish r.stage
    ({ r with stage }, actions)
  slots r := FilterStage.slots r.stage

theorem Recording.records : Records (σ := Recording σ) Recording.seen :=
  ⟨fun _ _ => rfl, fun _ => rfl⟩

/-- The record of the stage at a position. -/
def Chain.recorded (record : σ → List String) (c : Chain σ) (i : Nat) : Option (List String) :=
  c.links[i]?.map fun link => record link.stage

namespace Chain

variable {record : σ → List String}

theorem recorded_feed (hrecord : Records record) (id : Nat) (stage : σ) (e : Effects)
    (chunks : List String) : record (feed id stage e chunks).1 = record stage ++ chunks := by
  induction chunks generalizing stage e with
  | nil => simp [feed]
  | cons chunk rest ih => simp [feed_cons, ih, hrecord.accept]

theorem recorded_runStage (hrecord : Records record) (id : Nat) (upstreamEnded : Bool)
    (link : Link σ) (chunks : List String) (e : Effects) :
    record (runStage id upstreamEnded link chunks e).1.stage = record link.stage ++ chunks := by
  have hfed := recorded_feed hrecord id link.stage e chunks
  unfold runStage
  by_cases h : (upstreamEnded && !link.finished) = true
  · simp only [h, if_true]
    exact (hrecord.finish _).trans hfed
  · simp only [h]
    exact hfed

omit [FilterStage σ] in
theorem recorded_collect (handles : Handles) (c : Chain σ) (i : Nat) :
    (c.collect handles).recorded record i = c.recorded record i := by
  rw [recorded, recorded, getElem?_collect, Option.map_map]
  rfl

omit [FilterStage σ] in
theorem recorded_waitLate {handles : Handles} {c c' : Chain σ}
    (hwait : c.waitLate? handles = some c') (i : Nat) :
    c'.recorded record i = c.recorded record i := by
  obtain ⟨message, rest, -, rfl⟩ | rfl := waitLate_cases hwait
  · rw [recorded, recorded, getElem?_deliver, Option.map_map]
    apply congrArg (Option.map · c.links[i]?)
    funext link
    rw [Function.comp_apply]
    split <;> rfl
  · rfl

/-- Running a link adds to the records what the log says was accepted. -/
theorem recorded_runLink (hrecord : Records record) (p : Passing σ) (index i : Nat) :
    (runLink p index).chain.recorded record i =
      (p.chain.recorded record i).map (· ++ taken i (runLinkLog p index)) := by
  by_cases hlt : index < p.chain.links.length
  · obtain ⟨link, hlink⟩ : ∃ link, p.chain.links[index]? = some link :=
      ⟨_, List.getElem?_eq_getElem hlt⟩
    rw [(runLink_forwarded hlt).taken, runLink_of_getElem? hlink, recorded, recorded]
    by_cases hi : i = index
    · subst hi
      rw [List.getElem?_set_self (by simpa [length_foldl_deliver] using hlt), if_pos rfl, hlink]
      exact congrArg some (recorded_runStage hrecord _ _ { link with late := {} } p.chunks _)
    · rw [List.getElem?_set_ne (Ne.symm hi), getElem?_foldl_deliver,
        List.getElem?_set_ne (Ne.symm hi), if_neg hi, Option.map_map]
      simp [Function.comp_def]
  · have hnone : p.chain.links[index]? = none := List.getElem?_eq_none (by omega)
    simp [runLink, runLinkLog, hnone]

theorem recorded_links (hrecord : Records record) (p : Passing σ) (indices : List Nat) (i : Nat) :
    (indices.foldl runLink p).chain.recorded record i =
      (p.chain.recorded record i).map (· ++ taken i (linksLog p indices)) := by
  induction indices generalizing p with
  | nil => simp [linksLog]
  | cons index rest ih =>
    rw [List.foldl_cons, ih, recorded_runLink hrecord, linksLog, Option.map_map]
    simp [Function.comp_def]

theorem recorded_pass (hrecord : Records record) (handles : Handles) (chunks : List String)
    (c : Chain σ) (i : Nat) :
    (c.pass handles chunks).chain.recorded record i =
      (c.recorded record i).map (· ++ taken i (passLog handles chunks c)) := by
  rw [pass_eq_foldl, recorded_links hrecord, recorded_collect]
  rfl

theorem recorded_propagate (hrecord : Records record) {fuel : Nat} {handles : Handles}
    {chunks : List String} {c : Chain σ} {r : Result σ}
    (hr : c.propagate fuel handles chunks = some r) (i : Nat) :
    r.chain.recorded record i =
      (c.recorded record i).map (· ++ taken i (propagateLog fuel handles chunks c)) := by
  induction fuel generalizing handles chunks c r with
  | zero => cases hr
  | succ fuel ih =>
    have hpass := recorded_pass hrecord handles chunks c i
    obtain ⟨r', hr', rfl, hlog⟩ | ⟨-, rfl, hlog⟩ := propagate_cases hr
    · have hrest := ih hr'
      rw [hpass, Option.map_map] at hrest
      rw [hlog]
      simpa [Function.comp_def] using hrest
    · rw [hlog]
      exact hpass

end Chain

namespace Session

variable {record : σ → List String}

/-- The log has grown by what the records have grown by. -/
theorem recorded_step (hrecord : Records record) {s s' : Session σ} {move : ChainMove}
    (hmove : s.step move = some s') :
    ∃ log, s'.log = s.log ++ log ∧
      ∀ i, s'.chain.recorded record i = (s.chain.recorded record i).map (· ++ taken i log) := by
  cases move with
  | accept fuel chunk =>
    obtain ⟨r, hr, rfl⟩ := Option.map_eq_some_iff.mp hmove
    exact ⟨_, rfl, recorded_propagate hrecord hr⟩
  | finish fuel =>
    obtain ⟨r, hr, rfl⟩ := Option.map_eq_some_iff.mp hmove
    exact ⟨_, rfl, recorded_propagate hrecord hr⟩
  | poll fuel =>
    obtain ⟨r, hr, rfl⟩ := Option.map_eq_some_iff.mp hmove
    exact ⟨_, rfl, recorded_propagate hrecord hr⟩
  | waitLate =>
    obtain ⟨c, hwait, rfl⟩ := Option.map_eq_some_iff.mp hmove
    exact ⟨[], (List.append_nil _).symm, fun i => by simpa using recorded_waitLate hwait i⟩
  | send slot output =>
    cases hmove
    refine ⟨_, rfl, ?_⟩
    intro i
    obtain ⟨link, hsend, hlog⟩ | ⟨hsend, hlog⟩ :=
      sendFrom_cases s.handles slot output s.chain
    · simp [hsend, hlog, recorded, post, Function.comp_def]
    · simp [hsend, hlog]
  | release slot =>
    cases hmove
    exact ⟨[], (List.append_nil _).symm, fun i => by simp⟩
  | copy source target =>
    cases hmove
    exact ⟨[], (List.append_nil _).symm, fun i => by simp⟩

/-- **What the log calls taken is what the stages were handed**: a stage that keeps a record has
recorded, behind what it had, exactly the chunks the log says it took. -/
theorem recorded_run (hrecord : Records record) {handles : Handles} {stages : List σ}
    {moves : List ChainMove} {s : Session σ} (hrun : (start handles stages).run moves = some s)
    (i : Nat) :
    s.chain.recorded record i = stages[i]?.map fun stage => record stage ++ taken i s.log := by
  -- generalised over where the moves start: their part of the log is what the record grows by
  have hgrown {s₀ s₁ : Session σ} {moves : List ChainMove} (hrun : s₀.run moves = some s₁) :
      ∃ log, s₁.log = s₀.log ++ log ∧
        s₁.chain.recorded record i = (s₀.chain.recorded record i).map (· ++ taken i log) := by
    induction moves generalizing s₀ with
    | nil =>
      cases hrun
      exact ⟨[], by simp, by simp⟩
    | cons move rest ih =>
      obtain ⟨s', hmove, hrest⟩ := Option.bind_eq_some_iff.mp hrun
      obtain ⟨log, hlog, hstep⟩ := recorded_step hrecord hmove
      obtain ⟨log', hlog', hmore⟩ := ih hrest
      refine ⟨log ++ log', by rw [hlog', hlog, List.append_assoc], ?_⟩
      rw [hmore, hstep, Option.map_map]
      simp [Function.comp_def]
  obtain ⟨log, hlog, hrecorded⟩ := hgrown hrun
  have hstart : (start handles stages).chain.recorded record i = stages[i]?.map record := by
    simp [start, ofStages, recorded, Function.comp_def]
  rw [hrecorded, hstart, hlog, Option.map_map]
  rfl

end Session

/-! ## The log and the calls

Deeds have the calls of the stages and what was put out in them, the log only chunks. The log is
what is left of the deeds (`run_events`), so both accounts are about the same calls. -/

/-- The chunk of a call. -/
def StageCall.chunk? : StageCall → Option String
  | .accept chunk => some chunk
  | .finish => none

/-- The chunk that is put out. -/
def LateOutput.chunk? : LateOutput → Option String
  | .chunk text => some text
  | .finish => none

namespace Chain

omit [FilterStage σ] in
/-- What the log calls taken are the chunks of the calls, -/
theorem taken_events (i : Nat) (D : List Deed) :
    taken i (events D) = (calls i D).filterMap StageCall.chunk? := by
  rw [taken, events, calls, List.filterMap_filterMap, List.filterMap_filterMap]
  congr 1
  funext deed
  cases deed with
  | call link call =>
    cases call <;> by_cases h : link = i <;> simp [Deed.event?, StageCall.chunk?, h]
  | put link output | sent link output => cases output <;> rfl

omit [FilterStage σ] in
/-- and what it calls made are those that are put out in them. -/
theorem made_events (i : Nat) (D : List Deed) :
    made i (events D) = (puts i D).filterMap LateOutput.chunk? := by
  rw [made, events, puts, List.filterMap_filterMap, List.filterMap_filterMap]
  congr 1
  funext deed
  cases deed with
  | put link output =>
    cases output <;> by_cases h : link = i <;> simp [Deed.event?, LateOutput.chunk?, h]
  | call link call => cases call <;> rfl
  | sent link output => cases output <;> rfl

end Chain

/-- **What the log calls made is what the stages have pushed**: a stage was called with the chunks
the log says it took, and perhaps the end of its input, it is what these calls make of it, and it
has pushed in them what the log says. -/
theorem Session.run_called {handles : Handles} {stages : List σ} {moves : List ChainMove}
    {s : Session σ} (hrun : (start handles stages).run moves = some s) {i : Nat} {stage : σ}
    (hstage : stages[i]? = some stage) :
    ∃ called : List StageCall,
      taken i s.log = called.filterMap StageCall.chunk? ∧
      made i s.log = (answers stage called).2.filterMap LateOutput.chunk? ∧
      s.chain.links[i]?.map Link.stage = some (answers stage called).1 := by
  have hlog := run_events hrun
  obtain ⟨done, c, -, htraced, hreturned⟩ := run_traced (start_traced handles stages) moves
  obtain ⟨-, rfl⟩ := hreturned s hrun
  obtain ⟨hlt, -⟩ := List.getElem?_eq_some_iff.mp hstage
  have hlink := List.getElem?_eq_getElem (htraced.length.symm ▸ hlt)
  have hputs := (htraced.link hstage hlink).puts
  rw [List.nil_append] at hputs
  refine ⟨calls i ((start handles stages).deeds moves), ?taken, ?made, ?stage⟩
  case taken =>
    rw [hlog]
    exact taken_events i _
  case made =>
    rw [hlog, ← hputs]
    exact made_events i _
  case stage => rw [run_answers hrun, hstage, Option.map_some]

open Chain in
/-- **Delivery is exactly once and in order.** Take any stages, wired into a chain, and any sequence
of operations, waits and uses of handles from outside that all return, the last of them `accept`,
`finish` or `poll`. Then each stage but the first has accepted what the one before it has produced,
pushed or sent through its handle, each chunk once, with the pushed and the sent ones each in their
order; what was returned is in this sense what the last stage has produced; the first stage has
accepted what was given; and no chunk and no end is still late.

What the log says of the stages is true of them: a stage that keeps a record has recorded the chunks
that are called taken here, and every stage has been called with them and has pushed in these calls
those that are called made. -/
theorem delivered_exactly_once {handles : Handles} {stages : List σ}
    {moves : List ChainMove} {last : ChainMove} {s : Session σ}
    (hlast : last.forwards = true)
    (hrun : (Session.start handles stages).run (moves ++ [last]) = some s) :
    (∀ i, i + 1 < stages.length →
      Merges (made i s.log) (sent i s.log) (taken (i + 1) s.log)) ∧
    (∀ i, i + 1 = stages.length → Merges (made i s.log) (sent i s.log) s.returned) ∧
    (if stages = [] then s.returned else taken 0 s.log) = s.given ∧
    (s.chain.mailbox = [] ∧ ∀ link ∈ s.chain.links, link.late = {}) ∧
    (∀ record : σ → List String, Records record → ∀ i,
      s.chain.recorded record i = stages[i]?.map fun stage => record stage ++ taken i s.log) ∧
    ∀ i stage, stages[i]? = some stage → ∃ called : List StageCall,
      taken i s.log = called.filterMap StageCall.chunk? ∧
      made i s.log = (answers stage called).2.filterMap LateOutput.chunk? ∧
      s.chain.links[i]?.map Link.stage = some (answers stage called).1 := by
  obtain ⟨hinner, hreturned, hgiven, hatRest⟩ := Session.delivers hlast hrun
  exact ⟨hinner, hreturned, hgiven, ⟨hatRest.mailbox, hatRest.late⟩,
    fun record hrecord i => Session.recorded_run hrecord hrun i,
    fun i stage hstage => Session.run_called hrun hstage⟩

/-- A stage that holds its input back until the end, and one that passes everything on and sends one
chunk through the handle of the other while it runs, so that one operation takes two passes. -/
theorem delivered_exactly_once_upstream : ∃ s : Session ScriptedStage,
    (Session.start {}
        [{ script := { accept := [.hold], finish := [.flush, .finish], keep := some "up" },
            args := [] },
          { script := { accept := [.echo, .once (.send "up" "c")] }, args := [] }]).run
      ([.send "up" (.chunk "a"), .waitLate, .accept 2 "b"] ++ [.finish 1]) = some s ∧
    s.returned = ["a", "c", "b"] ∧
    Merges (Chain.made 0 s.log) (Chain.sent 0 s.log) (Chain.taken 1 s.log) ∧
    Merges (Chain.made 1 s.log) (Chain.sent 1 s.log) s.returned ∧
    Chain.taken 0 s.log = s.given ∧
    s.chain.mailbox = [] ∧ ∀ link ∈ s.chain.links, link.late = {} := by
  refine ⟨_, rfl, rfl, ?_⟩
  have hrun : (Session.start {}
        [({ script := { accept := [.hold], finish := [.flush, .finish], keep := some "up" },
            args := [] } : ScriptedStage),
          { script := { accept := [.echo, .once (.send "up" "c")] }, args := [] }]).run
      ([.send "up" (.chunk "a"), .waitLate, .accept 2 "b"] ++ [.finish 1]) = some _ := rfl
  obtain ⟨hinner, hlast, hfirst, ⟨hmailbox, hlate⟩, -⟩ := delivered_exactly_once rfl hrun
  exact ⟨hinner 0 (by decide), hlast 1 rfl, hfirst, hmailbox, hlate⟩

end StreamingTemplate

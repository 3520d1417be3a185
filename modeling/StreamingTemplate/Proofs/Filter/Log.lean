import StreamingTemplate.Proofs.Filter.Pass

/-!
# The log of a chain

What the stages of a chain do, event by event, while the chain runs: each definition here follows
the one of the same name of the chain through the same intermediate states, and keeps the events
where the other keeps the states.

A chunk leaves a stage in one of two ways, pushed inside a call (`made`) or sent through a handle
(`sent`), and it arrives at one when that one accepts it (`took`). `taken`, `made` and `sent` read
the chunks of one link off a log.

* `Merges` — a list has the elements of two others, each in its order;
* `Logged` — a log accounts for what a running stage does to its effects: the pushed chunks are its
  output, the sent ones stand behind what the mailbox had, link by link;
* `runStage_logged` — the log of a stage accounts for its run;
* `propagate_cases` — what passing on to the end does, with its log.
-/

namespace StreamingTemplate

/-! ## Two orders in one

What a link receives comes from two places, pushed by the stage before it and sent through that
stage's handle, and nothing orders the two against each other beyond the order inside each.
`Merges` says exactly this much. -/

/-- `Merges a b c`: the list `c` holds the elements of `a` and of `b`, each list in its order. -/
inductive Merges {α : Type} : List α → List α → List α → Prop where
  | nil : Merges [] [] []
  | left {x : α} {a b c : List α} : Merges a b c → Merges (x :: a) b (x :: c)
  | right {x : α} {a b c : List α} : Merges a b c → Merges a (x :: b) (x :: c)

namespace Merges

variable {α : Type}

/-- A list merged with nothing is itself. The two lemmas settle the common case that a link got
nothing through the other way. -/
theorem only_left (a : List α) : Merges a [] a := by
  induction a with
  | nil => exact .nil
  | cons x rest ih => exact .left ih

theorem only_right (b : List α) : Merges [] b b := by
  induction b with
  | nil => exact .nil
  | cons x rest ih => exact .right ih

/-- **What is merged in two parts is merged as a whole**: the parts follow each other in all
three lists. This is the step of every induction over a log. -/
theorem append {a b c a' b' c' : List α} (h : Merges a b c) (h' : Merges a' b' c') :
    Merges (a ++ a') (b ++ b') (c ++ c') := by
  induction h with
  | nil => exact h'
  | left _ ih => exact .left ih
  | right _ ih => exact .right ih

end Merges

namespace Chain

/-! ## Events

An event names a link by its position, since links are not values that could be compared. Reading
the log of a whole chain for one link is a filter, so that what one link sees of a run in two
parts is what it sees of the parts (`taken_append`, `made_append`, `sent_append`). -/

/-- A chunk enters or leaves a stage of a chain, named by the position of its link. -/
inductive Event where
  /-- the stage accepts a chunk -/
  | took (link : Nat) (chunk : String)
  /-- the stage pushes a chunk inside a call -/
  | made (link : Nat) (chunk : String)
  /-- a chunk is sent through the handle of the stage -/
  | sent (link : Nat) (chunk : String)
  deriving DecidableEq, Repr

/-- The chunks a link has accepted. -/
def taken (link : Nat) (log : List Event) : List String :=
  log.filterMap fun
    | .took l chunk => if l = link then some chunk else none
    | _ => none

/-- The chunks the stage of a link has pushed inside its calls. -/
def made (link : Nat) (log : List Event) : List String :=
  log.filterMap fun
    | .made l chunk => if l = link then some chunk else none
    | _ => none

/-- The chunks sent through the handle of a link. -/
def sent (link : Nat) (log : List Event) : List String :=
  log.filterMap fun
    | .sent l chunk => if l = link then some chunk else none
    | _ => none

@[simp] theorem taken_nil (link : Nat) : taken link [] = [] := rfl
@[simp] theorem made_nil (link : Nat) : made link [] = [] := rfl
@[simp] theorem sent_nil (link : Nat) : sent link [] = [] := rfl

@[simp] theorem taken_append (link : Nat) (log log' : List Event) :
    taken link (log ++ log') = taken link log ++ taken link log' :=
  List.filterMap_append

@[simp] theorem made_append (link : Nat) (log log' : List Event) :
    made link (log ++ log') = made link log ++ made link log' :=
  List.filterMap_append

@[simp] theorem sent_append (link : Nat) (log log' : List Event) :
    sent link (log ++ log') = sent link log ++ sent link log' :=
  List.filterMap_append

/-! ## Sending

A send reaches the mailbox of this chain, or that of another, or goes nowhere because the slot is
empty or its stage has dropped the handle. Only the first leaves events. -/

/-- The chunks in late output. -/
def lateChunks : LateOutput → List String
  | .chunk text => [text]
  | .finish => []

/-- The events of sending to the link at a position. -/
def postLog (link : Nat) (output : LateOutput) : List Event :=
  (lateChunks output).map (.sent link)

/-- The events of sending through the handle in a slot, for the chain with a number. -/
def sendLog (id : Nat) (handles : Handles) (slot : String) (output : LateOutput) : List Event :=
  match handles.get? slot with
  | some handle => if handle.chain = id then postLog handle.link output else []
  | none => []

/-- Sending is no acceptance: the chunk waits in the mailbox until its link is run, and that is
when the event of taking it is written. -/
@[simp] theorem taken_postLog (i link : Nat) (output : LateOutput) :
    taken i (postLog link output) = [] := by
  cases output <;> rfl

@[simp] theorem made_postLog (i link : Nat) (output : LateOutput) :
    made i (postLog link output) = [] := by
  cases output <;> rfl

/-- What the mailbox has for a link grows by what is sent to it. What is sent to another link is
filtered out again, and an end adds no chunk, so the equation holds of every link and all late
output. -/
theorem lateFor_post (i link : Nat) (output : LateOutput) (mailbox : List (Nat × LateOutput)) :
    (lateFor i (mailbox ++ [(link, output)])).chunks =
      (lateFor i mailbox).chunks ++ sent i (postLog link output) := by
  rw [lateFor, List.filter_append, List.foldl_append]
  by_cases h : link = i
  · cases output <;> simp [lateFor, postLog, lateChunks, sent, h, Output.deliver, Output.push,
      Output.finish]
  · cases output <;> simp [lateFor, postLog, lateChunks, sent, h]

/-! ## The log of a running stage

Each log runs through the states of the operation it is about: `actAllLog` applies `act` between
two actions because a copied or released handle decides where the next send goes. -/

/-- The events of an action of the stage of a link. -/
def actLog (id link : Nat) (e : Effects) : StageAction → List Event
  | .push chunk => [.made link chunk]
  | .send slot output => sendLog id e.handles slot output
  | .finish | .release _ | .copy _ _ => []

/-- The events of actions in order. -/
def actAllLog (id link : Nat) : Effects → List StageAction → List Event
  | _, [] => []
  | e, action :: rest => actLog id link e action ++ actAllLog id link (act id e action) rest

variable {σ : Type} [FilterStage σ]

/-- The events of a stage that takes chunks in order. -/
def feedLog (id link : Nat) : σ → Effects → List String → List Event
  | _, _, [] => []
  | stage, e, chunk :: rest =>
    let (next, actions) := FilterStage.accept stage chunk
    .took link chunk ::
      (actAllLog id link e actions ++ feedLog id link next (actAll id e actions) rest)

/-- The events of a stage that takes chunks, and perhaps the end of its input. -/
def runStageLog (id index : Nat) (upstreamEnded : Bool) (link : Link σ) (chunks : List String)
    (e : Effects) : List Event :=
  let (stage, fed) := feed id link.stage e chunks
  feedLog id index link.stage e chunks ++
    if upstreamEnded && !link.finished then actAllLog id index fed (FilterStage.finish stage).2
    else []

/-! ## The log accounts for the effects

`Logged` is the invariant of a running stage. It is reflexive and composes (`Logged.refl`,
`Logged.trans`), so one lemma for an action gives the one for a call, and that the one for a run. -/

/-- A log accounts for what the stage of a link does to its effects while it accepts chunks. -/
structure Logged (link : Nat) (chunks : List String) (e e' : Effects) (log : List Event) :
    Prop where
  /-- that link accepts the chunks, no other accepts anything -/
  taken : ∀ i, Chain.taken i log = if i = link then chunks else []
  /-- no other link pushes -/
  made : ∀ i, i ≠ link → Chain.made i log = []
  /-- what is pushed is put behind the output -/
  out : e'.out.chunks = e.out.chunks ++ Chain.made link log
  /-- what is sent is put behind what the mailbox had -/
  late : ∀ i, (lateFor i e'.mailbox).chunks = (lateFor i e.mailbox).chunks ++ Chain.sent i log

namespace Logged

/-- Nothing done, nothing logged. -/
theorem refl (link : Nat) (e : Effects) : Logged link [] e e [] where
  taken i := by simp
  made i _ := rfl
  out := by simp
  late i := by simp

/-- What is done in two parts is accounted for by the log of the first, then that of the second:
outputs and mailbox grow at the end, where the events stand too. -/
theorem trans {link : Nat} {chunks chunks' : List String} {e e' e'' : Effects}
    {log log' : List Event} (h : Logged link chunks e e' log)
    (h' : Logged link chunks' e' e'' log') :
    Logged link (chunks ++ chunks') e e'' (log ++ log') where
  taken i := by
    rw [taken_append, h.taken, h'.taken]
    split <;> rfl
  made i hi := by rw [made_append, h.made i hi, h'.made i hi]; rfl
  out := by rw [h'.out, h.out, made_append, List.append_assoc]
  late i := by rw [h'.late, h.late, sent_append, List.append_assoc]

/-- Accepting a chunk does nothing by itself. -/
theorem took (link : Nat) (chunk : String) (e : Effects) :
    Logged link [chunk] e e [.took link chunk] where
  taken i := by
    by_cases h : i = link
    · simp [Chain.taken, h]
    · simp [Chain.taken, h, Ne.symm h]
  made i _ := rfl
  out := by simp [Chain.made]
  late i := by simp [Chain.sent]

/-- An action that neither pushes nor sends needs no events. -/
theorem silent {link : Nat} {e e' : Effects} (hout : e'.out.chunks = e.out.chunks)
    (hmailbox : e'.mailbox = e.mailbox) : Logged link [] e e' [] where
  taken i := by simp
  made i _ := rfl
  out := by simp [hout]
  late i := by simp [hmailbox]

end Logged

/-- **An action is accounted for by its events.** A push goes to the output of the running link,
a send to the mailbox when the handle is one of this chain; the other three touch no chunk. -/
theorem act_logged (id link : Nat) (e : Effects) (action : StageAction) :
    Logged link [] e (act id e action) (actLog id link e action) := by
  cases action with
  | push chunk =>
    refine ⟨?_, ?_, ?_, ?_⟩
    · intro i
      simp [actLog, taken]
    · intro i hi
      simp [actLog, made, Ne.symm hi]
    · simp [act, actLog, made, Output.push]
    · intro i
      simp [act, actLog, sent]
  | send slot output =>
    simp only [act, actLog, sendLog]
    cases e.handles.get? slot with
    | none => exact .refl link e
    | some handle =>
      by_cases h : handle.chain = id
      · simp only [h, if_true]
        refine ⟨?_, ?_, ?_, ?_⟩
        · intro i
          simp
        · intro i _
          simp
        · simp
        · intro i
          exact lateFor_post i handle.link output e.mailbox
      · simp only [h, if_false]
        exact .refl link e
  -- the remaining actions change the end mark or the handles, and neither is a chunk
  | finish => exact .silent rfl rfl
  | release slot => exact .silent rfl rfl
  | copy source target => exact .silent rfl rfl

/-- The actions of one call, in order, by composing those of its parts. -/
theorem actAll_logged (id link : Nat) (e : Effects) (actions : List StageAction) :
    Logged link [] e (actAll id e actions) (actAllLog id link e actions) := by
  induction actions generalizing e with
  | nil => exact .refl link e
  | cons action rest ih => exact (act_logged id link e action).trans (ih (act id e action))

/-- A stage that is fed chunks accepts each of them before it answers to it, so that in the log
what it makes of a chunk stands behind that chunk and before the next. -/
theorem feed_logged (id link : Nat) (stage : σ) (e : Effects) (chunks : List String) :
    Logged link chunks e (feed id stage e chunks).2 (feedLog id link stage e chunks) := by
  induction chunks generalizing stage e with
  | nil => exact .refl link e
  | cons chunk rest ih =>
    rw [feed_cons]
    -- accepting the chunk comes first, what the stage does with it next
    have haccept := (Logged.took link chunk e).trans
      (actAll_logged id link e (FilterStage.accept stage chunk).2)
    exact haccept.trans (ih _ _)

/-- **The log of a stage accounts for its run**, the end of its input included. -/
theorem runStage_logged (id index : Nat) (upstreamEnded : Bool) (link : Link σ)
    (chunks : List String) (e : Effects) :
    Logged index chunks e (runStage id upstreamEnded link chunks e).2
      (runStageLog id index upstreamEnded link chunks e) := by
  have hfed := feed_logged id index link.stage e chunks
  unfold runStage runStageLog
  by_cases h : (upstreamEnded && !link.finished) = true
  · simp only [h, if_true]
    have hall := hfed.trans (actAll_logged id index (feed id link.stage e chunks).2
      (FilterStage.finish (feed id link.stage e chunks).1).2)
    rwa [List.append_nil] at hall
  · simp only [h]
    simpa using hfed

/-! ## The log of a chain

The links are run from the first to the last, each once in a pass, and what a later stage sends
back to an earlier one waits for the next pass. The logs of a pass and of passing on follow that
order. -/

/-- The events of running the link at a position. -/
def runLinkLog (p : Passing σ) (index : Nat) : List Event :=
  match p.chain.links[index]? with
  | none => []
  | some link =>
    runStageLog p.chain.id index p.upstreamEnded { link with late := {} } p.chunks
      { out := link.late, mailbox := p.chain.mailbox, handles := p.handles }

/-- The events of running links in order. -/
def linksLog : Passing σ → List Nat → List Event
  | _, [] => []
  | p, index :: rest => runLinkLog p index ++ linksLog (runLink p index) rest

/-- The events of one pass over all links. -/
def passLog (handles : Handles) (chunks : List String) (c : Chain σ) : List Event :=
  linksLog { chunks, upstreamEnded := c.inputEnded, chain := c.collect handles, handles }
    (List.range c.links.length)

/-- The events of passing until no link has late output left. -/
def propagateLog : Nat → Handles → List String → Chain σ → List Event
  | 0, _, _, _ => []
  | fuel + 1, handles, chunks, c =>
    let p := c.pass handles chunks
    passLog handles chunks c ++
      if p.chain.hasLate then propagateLog fuel p.handles [] p.chain else []

/-- **Passing on, with its log**: after the first pass it goes on with the late output that is
left, or it is over. Both cases say what is returned and what is logged, so that a proof about
logs never unfolds the recursion again. -/
theorem propagate_cases {fuel : Nat} {handles : Handles} {chunks : List String} {c : Chain σ}
    {r : Result σ} (h : c.propagate (fuel + 1) handles chunks = some r) :
    (∃ r', (c.pass handles chunks).chain.propagate fuel (c.pass handles chunks).handles [] =
        some r' ∧
      r = { r' with chunks := (c.pass handles chunks).chunks ++ r'.chunks } ∧
      propagateLog (fuel + 1) handles chunks c = passLog handles chunks c ++
        propagateLog fuel (c.pass handles chunks).handles [] (c.pass handles chunks).chain) ∨
    ((c.pass handles chunks).chain.hasLate = false ∧
      r = ⟨(c.pass handles chunks).chunks, (c.pass handles chunks).chain,
        (c.pass handles chunks).handles⟩ ∧
      propagateLog (fuel + 1) handles chunks c = passLog handles chunks c) := by
  rw [propagate] at h
  rw [propagateLog]
  cases hlate : (c.pass handles chunks).chain.hasLate with
  | true =>
    simp only [hlate, if_true] at h
    obtain ⟨r', hr', rfl⟩ := Option.map_eq_some_iff.mp h
    exact .inl ⟨r', hr', rfl, by rw [if_pos rfl]⟩
  | false =>
    rw [hlate, if_neg Bool.false_ne_true] at h
    exact .inr ⟨rfl, (Option.some.inj h).symm, by simp⟩

end Chain

end StreamingTemplate

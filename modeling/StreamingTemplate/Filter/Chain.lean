import StreamingTemplate.Filter.Stage

/-!
# Filter chains

A chain wires stages in a row: what stage `i` produces is fed to stage `i + 1`, and stage `i + 1` is
told that its input is over once stage `i` has signalled its end. The user of the chain sees only
what the last stage produces.

One `pass` walks the links in order. Before it and after every stage, what was sent through handles
is collected from the mailbox into the links it is meant for; a link forwards its own late output in
front of what its stage produces now, and what arrives while the stage runs behind it. Late output
for an earlier link needs another pass, and since stages can go on sending for ever, the number of
passes is bounded by fuel; `none` means that the fuel ran out.

The chain learns that all its handles are gone (`handlesDropped`) only when it collects.
-/

namespace StreamingTemplate

/-- One stage of a chain. -/
structure Link (σ : Type) where
  stage : σ
  /-- the stage was told that its input is over -/
  finished : Bool := false
  /-- the stage has signalled its end -/
  ended : Bool := false
  /-- collected from the mailbox and not yet forwarded -/
  late : Output := {}

/-- A chain of stages. -/
structure Chain (σ : Type) where
  /-- the number under which handles know the chain -/
  id : Nat
  links : List (Link σ)
  /-- the input of the chain is over -/
  inputEnded : Bool := false
  /-- sent through handles and not yet collected, with the position of the link -/
  mailbox : List (Nat × LateOutput) := []
  /-- no handle of the chain is left, as last observed -/
  handlesDropped : Bool := false

namespace Chain

variable {σ : Type}

/-! ## Late output -/

/-- Adds late output to the link it is meant for; without such a link it is lost. -/
def deliver (links : List (Link σ)) (message : Nat × LateOutput) : List (Link σ) :=
  links.modify message.1 fun link => { link with late := link.late.deliver message.2 }

/-- Moves everything from the mailbox into the links, and notices whether handles are left. -/
def collect (handles : Handles) (c : Chain σ) : Chain σ :=
  { c with
    links := c.mailbox.foldl deliver c.links
    mailbox := []
    handlesDropped := c.handlesDropped || !handles.live c.id }

/-- Whether some link has late output to forward. -/
def hasLate (c : Chain σ) : Bool := c.links.any fun link => !link.late.isEmpty

/-- Puts late output into the mailbox. -/
def post (c : Chain σ) (link : Nat) (output : LateOutput) : Chain σ :=
  { c with mailbox := c.mailbox ++ [(link, output)] }

/-! ## Observations -/

/-- Whether the last stage has signalled its end; the chain without stages ends with its input. -/
def isEnded (c : Chain σ) : Bool :=
  match c.links.getLast? with
  | some link => link.ended
  | none => c.inputEnded

/-- Whether the input is over, the chain has not ended, and no stage can end it any more. -/
def isStalled (c : Chain σ) : Bool :=
  c.inputEnded && !c.isEnded && c.handlesDropped && !c.hasLate

/-- Whether some stage may still produce on its own, as last observed. -/
def hasLiveHandles (c : Chain σ) : Bool := !c.handlesDropped

/-! ## Running one stage -/

/-- What a running stage changes. -/
structure Effects where
  /-- what it has produced -/
  out : Output
  /-- the mailbox of its chain -/
  mailbox : List (Nat × LateOutput)
  handles : Handles

/-- One action of a stage of chain `id`. A handle of another chain leads nowhere: at most one chain
is in use at a time. -/
def act (id : Nat) (e : Effects) : StageAction → Effects
  | .push chunk => { e with out := e.out.push chunk }
  | .finish => { e with out := e.out.finish }
  | .send slot output =>
    match e.handles.get? slot with
    | some handle =>
      if handle.chain = id then { e with mailbox := e.mailbox ++ [(handle.link, output)] } else e
    | none => e
  | .release slot => { e with handles := e.handles.release slot }
  | .copy source target => { e with handles := e.handles.copy source target }

/-- The actions of a stage in order. -/
def actAll (id : Nat) (e : Effects) (actions : List StageAction) : Effects :=
  actions.foldl (act id) e

variable [FilterStage σ]

/-- A stage takes chunks in order. -/
def feed (id : Nat) : σ → Effects → List String → σ × Effects
  | stage, e, [] => (stage, e)
  | stage, e, chunk :: rest =>
    let (stage, actions) := FilterStage.accept stage chunk
    feed id stage (actAll id e actions) rest

/-- A stage takes chunks, and the end of its input if that has come and it was not yet told. -/
def runStage (id : Nat) (upstreamEnded : Bool) (link : Link σ) (chunks : List String)
    (e : Effects) : Link σ × Effects :=
  let (stage, e) := feed id link.stage e chunks
  if upstreamEnded && !link.finished then
    let (stage, actions) := FilterStage.finish stage
    ({ link with stage, finished := true }, actAll id e actions)
  else ({ link with stage }, e)

/-! ## Passing through all stages -/

/-- What one pass hands from link to link. -/
structure Passing (σ : Type) where
  /-- the chunks for the next link -/
  chunks : List String
  /-- whether the input of the next link is over -/
  upstreamEnded : Bool
  chain : Chain σ
  handles : Handles

/-- Runs the link at a position. -/
def runLink (p : Passing σ) (index : Nat) : Passing σ :=
  match p.chain.links[index]? with
  | none => p
  | some link =>
    let (link, e) := runStage p.chain.id p.upstreamEnded { link with late := {} } p.chunks
      { out := link.late, mailbox := p.chain.mailbox, handles := p.handles }
    -- what was sent while the stage ran belongs to this pass too
    let chain := collect e.handles
      { p.chain with links := p.chain.links.set index link, mailbox := e.mailbox }
    match chain.links[index]? with
    | none => { p with chain, handles := e.handles }
    | some link =>
      let out := e.out.absorb link.late
      let ended := link.ended || out.ended
      { chunks := out.chunks
        upstreamEnded := ended
        chain := { chain with links := chain.links.set index { link with ended, late := {} } }
        handles := e.handles }

/-- One pass over all links. -/
def pass (handles : Handles) (chunks : List String) (c : Chain σ) : Passing σ :=
  let c := c.collect handles
  (List.range c.links.length).foldl runLink
    { chunks, upstreamEnded := c.inputEnded, chain := c, handles }

/-- The result of an operation on a chain: what the last stage produced, the chain and the
handles. -/
structure Result (σ : Type) where
  chunks : List String
  chain : Chain σ
  handles : Handles

/-- Passes until no link has late output left. -/
def propagate : Nat → Handles → List String → Chain σ → Option (Result σ)
  | 0, _, _, _ => none
  | fuel + 1, handles, chunks, c =>
    let p := c.pass handles chunks
    if p.chain.hasLate then
      (propagate fuel p.handles [] p.chain).map fun r => { r with chunks := p.chunks ++ r.chunks }
    else some { chunks := p.chunks, chain := p.chain, handles := p.handles }

/-! ## Operations -/

/-- Feeds one chunk to the first stage. -/
def accept (fuel : Nat) (handles : Handles) (chunk : String) (c : Chain σ) : Option (Result σ) :=
  c.propagate fuel handles [chunk]

/-- Signals the end of the input. -/
def finish (fuel : Nat) (handles : Handles) (c : Chain σ) : Option (Result σ) :=
  { c with inputEnded := true }.propagate fuel handles []

/-- Forwards late output. -/
def poll (fuel : Nat) (handles : Handles) (c : Chain σ) : Option (Result σ) :=
  c.propagate fuel handles []

omit [FilterStage σ] in
/-- The next thing to wait for on the handles of a chain, if it has come: one late output is
delivered to its link, or all handles are found gone. -/
def waitLate? (handles : Handles) (c : Chain σ) : Option (Chain σ) :=
  if c.handlesDropped then none
  else match c.mailbox with
    | message :: rest => some { c with links := deliver c.links message, mailbox := rest }
    | [] => if handles.live c.id then none else some { c with handlesDropped := true }

/-- Wires stages into a chain: each keeps its handle in the slots it names. -/
def ofStages (handles : Handles) (stages : List σ) : Chain σ × Handles :=
  let id := handles.nextChain
  let kept := stages.zipIdx.foldl
    (fun h (stage, link) => h.putAll ⟨id, link⟩ (FilterStage.slots stage)) handles
  ({ id, links := stages.map fun stage => { stage } }, { kept with nextChain := id + 1 })

end Chain

end StreamingTemplate

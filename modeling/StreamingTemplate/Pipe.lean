import StreamingTemplate.Stream
import StreamingTemplate.Filter.Chain
import StreamingTemplate.Error

/-!
# Pipes

A pipe forwards the chunks of a stream, through a filter chain if there is one. It stays open until
the stream has ended and the chain has signalled its end, which can be much later; and it fails if
the chain can no longer end.

`read` takes everything that is there without waiting. To wait, `waitSource?` and `waitChain?` say
whether one of the two things a pipe can wait for has come, and take it.
-/

namespace StreamingTemplate

/-- What connects a render with producers outside of it. -/
structure Lines where
  streams : Streams := {}
  handles : Handles := {}
  deriving DecidableEq, Repr, Inhabited

/-- A pipe. -/
structure Pipe (σ : Type) where
  /-- the stream, until it is found ended -/
  source : Option StreamId
  chain : Option (Chain σ)

namespace Pipe

variable {σ : Type}

/-- Takes a stream over; `none` if its reading end is gone. -/
def open? (lines : Lines) (id : StreamId) (chain : Option (Chain σ)) : Option (Pipe σ × Lines) :=
  (lines.streams.takeReader? id).map fun streams => (⟨some id, chain⟩, { lines with streams })

/-- The pipe of a chain whose input is over and which has not ended. -/
def draining (chain : Chain σ) : Pipe σ := ⟨none, some chain⟩

/-- Whether the stream is not yet found ended. -/
def sourceOpen (p : Pipe σ) : Bool := p.source.isSome

/-- Gives the pipe up. -/
def drop (p : Pipe σ) (lines : Lines) : Lines :=
  match p.source with
  | some id => { lines with streams := lines.streams.dropReader id }
  | none => lines

/-! ## Reading -/

/-- What one read found. -/
inductive Read where
  /-- the pipe stays open -/
  | pending (chunks : List String)
  /-- the pipe is finished -/
  | closed (chunks : List String)
  deriving DecidableEq, Repr

/-- The result of an operation that produces chunks. -/
structure Passed (σ : Type) where
  chunks : List String
  pipe : Pipe σ
  lines : Lines

variable [FilterStage σ]

/-- An operation on the chain; without a chain it produces nothing. -/
def onChain (op : Handles → Chain σ → Option (Chain.Result σ)) (p : Pipe σ) (lines : Lines) :
    Option (Passed σ) :=
  match p.chain with
  | none => some ⟨[], p, lines⟩
  | some chain =>
    (op lines.handles chain).map fun r =>
      ⟨r.chunks, { p with chain := some r.chain }, { lines with handles := r.handles }⟩

/-- Forwards one chunk. -/
def pass (fuel : Nat) (chunk : String) (p : Pipe σ) (lines : Lines) : Option (Passed σ) :=
  match p.chain with
  | none => some ⟨[chunk], p, lines⟩
  | some _ => p.onChain (fun handles c => c.accept fuel handles chunk) lines

/-- Forwards chunks in order. -/
def passAll (fuel : Nat) : List String → Pipe σ → Lines → Option (Passed σ)
  | [], p, lines => some ⟨[], p, lines⟩
  | chunk :: rest, p, lines =>
    (p.pass fuel chunk lines).bind fun r =>
      (passAll fuel rest r.pipe r.lines).map fun r' => { r' with chunks := r.chunks ++ r'.chunks }

/-- Forwards late output. -/
def poll (fuel : Nat) (p : Pipe σ) (lines : Lines) : Option (Passed σ) :=
  p.onChain (fun handles c => c.poll fuel handles) lines

/-- Tells the chain that its input is over. -/
def finish (fuel : Nat) (p : Pipe σ) (lines : Lines) : Option (Passed σ) :=
  p.onChain (fun handles c => c.finish fuel handles) lines

/-- The end of a read after the stream has ended, with the chunks read before. -/
def settle (fuel : Nat) (chunks : List String) (p : Pipe σ) (lines : Lines) :
    Option (Except RenderError Read × Pipe σ × Lines) :=
  match p.chain with
  | none => some (.ok (.closed chunks), p, lines)
  | some _ =>
    (p.poll fuel lines).map fun r =>
      let chunks := chunks ++ r.chunks
      let ended := r.pipe.chain.any (·.isEnded)
      let stalled := r.pipe.chain.any (·.isStalled)
      (if ended then .ok (.closed chunks)
        else if stalled then .error .filterStalled
        else .ok (.pending chunks), r.pipe, r.lines)

/-- Reads everything that is there. -/
def read (fuel : Nat) (p : Pipe σ) (lines : Lines) :
    Option (Except RenderError Read × Pipe σ × Lines) :=
  match p.source with
  | none => p.settle fuel [] lines
  | some id =>
    let (queued, streams) := lines.streams.readAll id
    (p.passAll fuel queued { lines with streams }).bind fun r =>
      if (r.lines.streams.state id).writerOpen then
        (r.pipe.poll fuel r.lines).map fun r' =>
          (.ok (.pending (r.chunks ++ r'.chunks)), r'.pipe, r'.lines)
      else
        ({ r.pipe with source := none }.finish fuel r.lines).bind fun r' =>
          r'.pipe.settle fuel (r.chunks ++ r'.chunks) r'.lines

/-! ## Waiting -/

/-- What a wait on a pipe ends with. -/
inductive Event where
  /-- a chunk was taken from the stream -/
  | chunk (text : String)
  | sourceEnded
  /-- a stage of the chain has produced late output or ended, or all handles are gone -/
  | stage
  deriving DecidableEq, Repr

omit [FilterStage σ] in
/-- Waits for the stream. -/
def waitSource? (p : Pipe σ) (lines : Lines) : Option (Event × Pipe σ × Lines) :=
  match p.source with
  | none => none
  | some id =>
    match lines.streams.read? id with
    | some (chunk, streams) => some (.chunk chunk, p, { lines with streams })
    | none => if (lines.streams.state id).writerOpen then none else some (.sourceEnded, p, lines)

omit [FilterStage σ] in
/-- Waits for the chain. -/
def waitChain? (p : Pipe σ) (lines : Lines) : Option (Event × Pipe σ × Lines) :=
  match p.chain with
  | none => none
  | some chain =>
    (chain.waitLate? lines.handles).map fun chain => (.stage, { p with chain := some chain }, lines)

omit [FilterStage σ] in
/-- Waits for either; nothing has come if the result is `none`. -/
def wait? (p : Pipe σ) (lines : Lines) : Option (Event × Pipe σ × Lines) :=
  (p.waitSource? lines).or (p.waitChain? lines)

end Pipe

/-! ## Sending from outside -/

/-- Sends through the handle in a slot, given the chain in use: whether that chain took it; `none`
if the slot is empty. -/
def Chain.sendFrom {σ : Type} (handles : Handles) (slot : String) (output : LateOutput)
    (chain : Option (Chain σ)) : Option Bool × Option (Chain σ) :=
  match handles.get? slot with
  | none => (none, chain)
  | some handle =>
    match chain with
    | some c => if c.id = handle.chain then (some true, some (c.post handle.link output))
      else (some false, chain)
    | none => (some false, none)

end StreamingTemplate

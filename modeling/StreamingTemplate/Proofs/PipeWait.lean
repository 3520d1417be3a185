import StreamingTemplate.Filter.Scripted
import StreamingTemplate.Proofs.Pipe

/-!
# Waiting in front of a read

A wait on a pipe takes one thing early: a chunk out of the stream, one late output out of the
mailbox of the chain, or the news that all handles are gone. The read behind it does not notice.

* `collect_waitLate` — what a wait has done to a chain, the next collection would have done;
* `read_waitChain` — so a read behind a wait for the chain is the read without it;
* `read_waitSource` — a chunk that a wait for the stream has taken, and that is passed on, is the
  first part of the read without the wait, and the read behind it is the rest;
* `read_of_wait` — both at once, of every outcome of the read.

Only of a read that fails the wait may show: the read keeps to itself what it has got so far, and
what was passed on in front of it is not lost with that.
-/

namespace StreamingTemplate

/-! ## Taking one chunk early from a stream

A read takes all that is queued on a stream, a wait the first of it. -/

namespace Streams

variable {s s' : Streams} {id : StreamId}

/-- Reading all that is queued, in two steps. -/
theorem readAll_of_read? {chunk : String} (h : s.read? id = some (chunk, s')) :
    s.readAll id = (chunk :: (s'.readAll id).1, (s'.readAll id).2) := by
  rw [read?] at h
  split at h
  · cases h
  · rename_i rest hqueue
    cases h
    have hlt : id < s.table.length := by
      refine Nat.not_le.mp fun hle => ?_
      rw [state, List.getElem?_eq_none hle] at hqueue
      cases hqueue
    have hrest : ((s.update id fun st => { st with queue := rest }).state id).queue = rest := by
      simp [state, update, List.getElem?_eq_getElem hlt]
    simp only [readAll, hrest, hqueue]
    simp [update, List.modify_modify_eq, Function.comp_def]

end Streams

/-! ## Taking one late output early from a chain

All operations on a chain start by collecting its mailbox. A wait has collected a part of it, or
has found that the handles are gone, and the collection behind it has the same result. -/

namespace Chain

variable {σ : Type} {handles : Handles} {c c' : Chain σ}

/-- **What a wait does, a collection does too.** -/
theorem collect_waitLate (h : c.waitLate? handles = some c') :
    c'.collect handles = c.collect handles := by
  rw [waitLate?] at h
  split at h
  · cases h
  · split at h
    · rename_i message rest hmailbox
      cases h
      simp only [collect, hmailbox, List.foldl_cons]
    · split at h
      · cases h
      · rename_i hlive
        cases h
        simp [collect, hlive]

variable [FilterStage σ]

/-- An operation starts with a collection, and asks for nothing else in the mailbox. -/
theorem propagate_congr (h : c'.collect handles = c.collect handles) (fuel : Nat)
    (chunks : List String) :
    c'.propagate fuel handles chunks = c.propagate fuel handles chunks := by
  have hpass : c'.pass handles chunks = c.pass handles chunks := by
    simp only [pass, h]
  cases fuel with
  | zero => rfl
  | succ fuel => simp only [propagate, hpass]

/-- The end of the input comes before the collection and is nothing to it. -/
theorem finish_congr (h : c'.collect handles = c.collect handles) (fuel : Nat) :
    c'.finish fuel handles = c.finish fuel handles := by
  refine propagate_congr ?_ fuel []
  have hended (d : Chain σ) : Chain.collect handles { d with inputEnded := true } =
      { d.collect handles with inputEnded := true } := rfl
  rw [hended, hended, h]

end Chain

namespace Pipe

variable {σ : Type} [FilterStage σ] {fuel : Nat} {p p' : Pipe σ} {lines lines' : Lines}

/-! ## Reads behind chunks

A read behind a wait has less to pass on, so its chunks are the later part of those of the read
without the wait. `putBehind` puts the earlier part in front, and the lemmas carry it through the
steps of a read: passing on, the poll or the end of the input, and the check for a stalled pipe. -/

/-- What a read has found, behind chunks that were passed on before it. -/
def Read.behind (chunks : List String) : Read → Read
  | .pending more => .pending (chunks ++ more)
  | .closed more => .closed (chunks ++ more)

@[simp] theorem Read.behind_nil (found : Read) : found.behind [] = found := by
  cases found <;> rfl

/-- The outcome of a read, behind chunks that were passed on before it; an error says nothing about
them. -/
def putBehind (chunks : List String) (outcome : Except RenderError Read × Pipe σ × Lines) :
    Except RenderError Read × Pipe σ × Lines :=
  (outcome.1.map (Read.behind chunks), outcome.2)

omit [FilterStage σ] in
theorem map_putBehind_nil (outcome : Option (Except RenderError Read × Pipe σ × Lines)) :
    outcome.map (putBehind []) = outcome := by
  obtain _ | ⟨_ | found, rest⟩ := outcome
  · rfl
  · rfl
  · simp [putBehind, Except.map]

/-- The end of a read, behind the chunks that were queued. -/
def conclude (fuel : Nat) (id : StreamId) (r : Passed σ) :
    Option (Except RenderError Read × Pipe σ × Lines) :=
  if (r.lines.streams.state id).writerOpen then
    (r.pipe.poll fuel r.lines).map fun r' =>
      (.ok (.pending (r.chunks ++ r'.chunks)), r'.pipe, r'.lines)
  else
    ({ r.pipe with source := none }.finish fuel r.lines).bind fun r' =>
      r'.pipe.settle fuel (r.chunks ++ r'.chunks) r'.lines

/-- A read of a stream passes on all that is queued, and then concludes. -/
theorem read_of_source {id : StreamId} (h : p.source = some id) :
    p.read fuel lines =
      (p.passAll fuel (lines.streams.readAll id).1
        { lines with streams := (lines.streams.readAll id).2 }).bind (conclude fuel id) := by
  rw [read, h]
  rfl

/-- Whether a pipe has stalled does not depend on the chunks that it has given. -/
theorem settle_behind (chunks more : List String) (p : Pipe σ) (lines : Lines) :
    p.settle fuel (chunks ++ more) lines = (p.settle fuel more lines).map (putBehind chunks) := by
  rw [settle, settle]
  split
  · rfl
  · rw [Option.map_map]
    congr 1
    funext r
    simp only [Function.comp_apply, putBehind, List.append_assoc]
    split
    · rfl
    · split <;> rfl

/-- Neither does how a read concludes. -/
theorem conclude_behind (id : StreamId) (chunks : List String) (r : Passed σ) :
    conclude fuel id { r with chunks := chunks ++ r.chunks } =
      (conclude fuel id r).map (putBehind chunks) := by
  rw [conclude, conclude]
  split
  · rw [Option.map_map]
    congr 1
    funext r'
    simp only [Function.comp_apply, putBehind, Except.map, Read.behind, List.append_assoc]
  · rw [Option.map_bind]
    congr 1
    funext r'
    rw [Function.comp_apply, List.append_assoc, settle_behind]

/-- Passing a chunk on has nothing to do with the streams. -/
theorem pass_streams (chunk : String) (streams : Streams) :
    p.pass fuel chunk { lines with streams } =
      (p.pass fuel chunk lines).map fun r => { r with lines := { r.lines with streams } } := by
  rw [pass, pass, onChain, onChain]
  split
  · rfl
  · rw [Option.map_map]
    rfl

/-! ## Reads behind waits

A wait for the chain changes its mailbox only, and a read that starts with a collection does not
notice. A wait for the stream has taken a chunk, which is passed on as the read would have passed
it on first. -/

/-- What is done with an event before the next read: a chunk is passed on. -/
def feed (fuel : Nat) (event : Event) (p : Pipe σ) (lines : Lines) : Option (Passed σ) :=
  match event with
  | .chunk chunk => p.pass fuel chunk lines
  | .sourceEnded | .stage => some ⟨[], p, lines⟩

/-- **Behind a wait for the chain** a read is what it is without the wait. -/
theorem read_waitChain (fuel : Nat) {event : Event}
    (h : p.waitChain? lines = some (event, p', lines')) :
    event = .stage ∧ p'.read fuel lines' = p.read fuel lines := by
  obtain ⟨source, chain⟩ := p
  cases chain with
  | none => cases h
  | some c =>
    obtain ⟨c', hwait, heq⟩ := Option.map_eq_some_iff.mp h
    cases heq
    have hcollect := Chain.collect_waitLate hwait
    refine ⟨rfl, ?_⟩
    -- whatever the read does first with the chain, it starts with a collection
    have hpoll (source : Option StreamId) (streams : Streams) :
        poll fuel ⟨source, some c'⟩ { lines with streams } =
          poll fuel ⟨source, some c⟩ { lines with streams } := by
      simp only [poll, onChain, Chain.poll, Chain.propagate_congr hcollect]
    have hfinish (streams : Streams) :
        finish fuel ⟨none, some c'⟩ { lines with streams } =
          finish fuel ⟨none, some c⟩ { lines with streams } := by
      simp only [finish, onChain, Chain.finish_congr hcollect]
    cases source with
    | none =>
      have hlines : poll fuel ⟨none, some c'⟩ lines = poll fuel ⟨none, some c⟩ lines :=
        hpoll none lines.streams
      simp only [read, settle, hlines]
    | some id =>
      rw [read_of_source rfl, read_of_source rfl]
      cases hqueue : (lines.streams.readAll id).1 with
      | nil => simp only [passAll, Option.bind_some, conclude, hpoll, hfinish]
      | cons chunk rest =>
        simp only [passAll, pass, onChain, Chain.accept, Chain.propagate_congr hcollect]

/-- **Behind a wait for the stream** a read goes on where it is without the wait when it has taken
the same from the stream. -/
theorem read_waitSource {event : Event} (h : p.waitSource? lines = some (event, p', lines')) :
    p.read fuel lines = (p'.feed fuel event lines').bind fun passed =>
      (passed.pipe.read fuel passed.lines).map (putBehind passed.chunks) := by
  rw [waitSource?] at h
  split at h
  · cases h
  · rename_i id hsource
    split at h
    · rename_i chunk streams hread
      cases h
      rw [read_of_source hsource, Streams.readAll_of_read? hread, passAll, feed,
        pass_streams chunk (streams.readAll id).2, pass_streams chunk streams]
      cases hpass : p.pass fuel chunk lines with
      | none => rfl
      | some passed =>
        -- passing a chunk on leaves the source, so the read behind goes on with the same stream
        have hsource' : passed.pipe.source = some id := (pass_source hpass).trans hsource
        simp only [Option.map_some, Option.bind_some]
        rw [read_of_source hsource', Option.map_bind, Option.bind_map]
        congr 1
        funext later
        exact conclude_behind id passed.chunks later
    · split at h
      · cases h
      · cases h
        rw [feed, Option.bind_some, map_putBehind_nil]

/-- **A wait does not show in the read behind it.** Whatever a pipe has waited for: when the event
is applied and the pipe is then read, the outcome is that of the read alone, with the chunks that
the event has given in front of those of the read, and pipe, streams and handles are the same. -/
theorem read_of_wait {event : Event} (h : p.waitSource? lines = some (event, p', lines') ∨
      p.waitChain? lines = some (event, p', lines')) :
    p.read fuel lines = (p'.feed fuel event lines').bind fun passed =>
      (passed.pipe.read fuel passed.lines).map (putBehind passed.chunks) := by
  rcases h with h | h
  · exact read_waitSource h
  · obtain ⟨rfl, hread⟩ := read_waitChain fuel h
    rw [feed, Option.bind_some, map_putBehind_nil, hread]

/-- **Waiting and then reading is reading.** A pipe in any state, of which a read alone succeeds,
has waited for its stream or for its chain, whichever had something. When the event is applied, a
read succeeds again and finds the same: the pipe open or closed, in all the same chunks, those that
the event gave in front, and it leaves the same pipe, streams and handles. -/
theorem read_after_wait {found : Read} {event : Event} {q : Pipe σ} {waited : Lines}
    (hread : p.read fuel lines = some (.ok found, p', lines'))
    (hwait : p.waitSource? lines = some (event, q, waited) ∨
      p.waitChain? lines = some (event, q, waited)) :
    ∃ passed rest, q.feed fuel event waited = some passed ∧
      passed.pipe.read fuel passed.lines = some (.ok rest, p', lines') ∧
      found = rest.behind passed.chunks := by
  rw [read_of_wait hwait] at hread
  obtain ⟨passed, hfeed, hread⟩ := Option.bind_eq_some_iff.mp hread
  obtain ⟨⟨outcome, p'', lines''⟩, hrest, heq⟩ := Option.map_eq_some_iff.mp hread
  obtain ⟨houtcome, heq⟩ := Prod.mk.inj heq
  obtain ⟨rfl, rfl⟩ := Prod.mk.inj heq
  cases outcome with
  | error err => cases houtcome
  | ok rest => exact ⟨passed, rest, hfeed, hrest, (Except.ok.inj houtcome).symm⟩

/-- A stage that passes chunks on and never signals its end itself. -/
def echoing : Link ScriptedStage :=
  { stage := { script := { accept := [.echo], finish := [] }, args := [] } }

/-- A pipe through such a stage, in whose name a chunk and the end are late. -/
def lateEcho : Pipe ScriptedStage :=
  { source := some 0
    chain := some { id := 0, links := [echoing], mailbox := [(0, .chunk "late"), (0, .finish)] } }

/-- One stream, which has ended, with chunks that are queued. -/
def endedStream (queue : List String) : Lines := { streams := ⟨[⟨queue, false, .taken⟩]⟩ }

/-- Two chunks are queued and one is late. A wait can take the first chunk of the stream, or the
late one, and the read behind it goes on from there. -/
theorem read_after_wait_late :
    ∃ q p' : Pipe ScriptedStage,
      lateEcho.read 1 (endedStream ["a", "b"]) =
        some (.ok (.closed ["late", "a", "b"]), p', endedStream []) ∧
      lateEcho.waitSource? (endedStream ["a", "b"]) =
        some (.chunk "a", lateEcho, endedStream ["b"]) ∧
      lateEcho.waitChain? (endedStream ["a", "b"]) = some (.stage, q, endedStream ["a", "b"]) ∧
      (∃ passed rest, lateEcho.feed 1 (.chunk "a") (endedStream ["b"]) = some passed ∧
        passed.pipe.read 1 passed.lines = some (.ok rest, p', endedStream []) ∧
        .closed ["late", "a", "b"] = rest.behind passed.chunks) ∧
      ∃ passed rest, q.feed 1 .stage (endedStream ["a", "b"]) = some passed ∧
        passed.pipe.read 1 passed.lines = some (.ok rest, p', endedStream []) ∧
        .closed ["late", "a", "b"] = rest.behind passed.chunks := by
  have hread : lateEcho.read 1 (endedStream ["a", "b"]) =
      some (.ok (.closed ["late", "a", "b"]), ⟨none, some
        { id := 0
          links := [{ echoing with finished := true, ended := true }]
          inputEnded := true
          handlesDropped := true }⟩, endedStream []) := rfl
  have hchain : lateEcho.waitChain? (endedStream ["a", "b"]) =
      some (.stage, ⟨some 0, some
        { id := 0
          links := [{ echoing with late := ⟨["late"], false⟩ }]
          mailbox := [(0, .finish)] }⟩, endedStream ["a", "b"]) := rfl
  exact ⟨_, _, hread, rfl, hchain, read_after_wait hread (.inl rfl),
    read_after_wait hread (.inr hchain)⟩

end Pipe

end StreamingTemplate

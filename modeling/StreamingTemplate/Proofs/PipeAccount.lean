import StreamingTemplate.Proofs.Filter.Delivery
import StreamingTemplate.Proofs.Filter.Quiet

/-!
# The chain of a pipe and its account

A pipe does nothing with its chain that could not be done to it directly, so a `Session` can keep
the account of a chain that is in a pipe (`InPipe`). Each operation on the pipe is one on the
session, and a read is a series of them: the queued chunks, the end of the input if it has come, and
a poll (`InPipe.read`). What the read hands on is what they return; but a chain that it finds
stalled has it return an error alone (`Finds`).
-/

namespace StreamingTemplate

/-! ## Reads as operations on a chain

A pipe owns its chain, a session holds one and keeps account of what it has returned. `InPipe`
says that the two have the same chain and the same handles, and each lemma takes an operation on
the pipe to moves of the session that end in that relation again. -/

/-- The operations of one read: the chunks that are queued, the end of the input if it has come, and
a poll. -/
def readMoves (fuel : Nat) (queued : List String) (ended : Bool) : List ChainMove :=
  queued.map (.accept fuel) ++ ((if ended then [.finish fuel] else []) ++ [.poll fuel])

namespace Session

variable {σ : Type} [FilterStage σ] {s s' : Session σ}

/-- A chain with nothing to do returns nothing when it is polled. -/
theorem poll_quiet {fuel : Nat} (h : s.chain.Quiet) (hpoll : s.step (.poll fuel) = some s') :
    s'.returned = s.returned := by
  cases fuel with
  | zero => cases hpoll
  | succ fuel =>
    obtain ⟨handlesDropped, hidle⟩ := Chain.propagate_idle h fuel s.handles
    rw [step, Chain.poll, hidle, Option.map_some] at hpoll
    obtain rfl := Option.some.inj hpoll
    exact List.append_nil _

/-- The chain of a session and the handles are those of a pipe. -/
structure InPipe (s : Session σ) (p : Pipe σ) (lines : Lines) : Prop where
  chain : p.chain = some s.chain
  handles : lines.handles = s.handles

variable {p p' : Pipe σ} {lines lines' : Lines} {fuel : Nat} {passed : Pipe.Passed σ}

omit [FilterStage σ] in
/-- An operation of the pipe is that operation on the chain of the session, with what it
returned. -/
theorem InPipe.onChain {op : Handles → Chain σ → Option (Chain.Result σ)} (h : s.InPipe p lines)
    (hop : p.onChain op lines = some passed) :
    ∃ res, op s.handles s.chain = some res ∧ passed.chunks = res.chunks ∧
      passed.pipe.chain = some res.chain ∧ passed.lines.handles = res.handles := by
  rw [Pipe.onChain, h.chain] at hop
  obtain ⟨res, hres, rfl⟩ := Option.map_eq_some_iff.mp hop
  rw [h.handles] at hres
  exact ⟨res, hres, rfl, rfl, rfl⟩

/-- A chunk that passes through the pipe is a chunk that the chain accepts, -/
theorem InPipe.pass {chunk : String} (h : s.InPipe p lines)
    (hpass : p.pass fuel chunk lines = some passed) :
    ∃ s', s.step (.accept fuel chunk) = some s' ∧ s'.InPipe passed.pipe passed.lines ∧
      s'.returned = s.returned ++ passed.chunks := by
  rw [Pipe.pass, h.chain] at hpass
  obtain ⟨res, hres, hchunks, hchain, hhandles⟩ := h.onChain hpass
  rw [step, hres]
  exact ⟨_, rfl, ⟨hchain, hhandles⟩, congrArg _ hchunks.symm⟩

/-- a poll of the pipe is one of the chain, -/
theorem InPipe.poll (h : s.InPipe p lines) (hpoll : p.poll fuel lines = some passed) :
    ∃ s', s.step (.poll fuel) = some s' ∧ s'.InPipe passed.pipe passed.lines ∧
      s'.returned = s.returned ++ passed.chunks := by
  obtain ⟨res, hres, hchunks, hchain, hhandles⟩ := h.onChain hpoll
  rw [step, hres]
  exact ⟨_, rfl, ⟨hchain, hhandles⟩, congrArg _ hchunks.symm⟩

/-- and the end of the input is told to the chain. -/
theorem InPipe.finish (h : s.InPipe p lines) (hfinish : p.finish fuel lines = some passed) :
    ∃ s', s.step (.finish fuel) = some s' ∧ s'.InPipe passed.pipe passed.lines ∧
      s'.returned = s.returned ++ passed.chunks := by
  obtain ⟨res, hres, hchunks, hchain, hhandles⟩ := h.onChain hfinish
  rw [step, hres]
  exact ⟨_, rfl, ⟨hchain, hhandles⟩, congrArg _ hchunks.symm⟩

/-- Chunks in order are accepted in order, and what is returned for each goes behind the rest. -/
theorem InPipe.passAll {chunks : List String} (h : s.InPipe p lines)
    (hpass : p.passAll fuel chunks lines = some passed) :
    ∃ s', s.run (chunks.map (.accept fuel)) = some s' ∧ s'.InPipe passed.pipe passed.lines ∧
      s'.returned = s.returned ++ passed.chunks := by
  induction chunks generalizing s p lines passed with
  | nil =>
    obtain rfl := Option.some.inj hpass
    exact ⟨s, rfl, h, (List.append_nil _).symm⟩
  | cons chunk rest ih =>
    obtain ⟨first, hfirst, hpass⟩ := Option.bind_eq_some_iff.mp hpass
    obtain ⟨later, hlater, rfl⟩ := Option.map_eq_some_iff.mp hpass
    obtain ⟨s₁, hstep, h₁, hreturned⟩ := h.pass hfirst
    obtain ⟨s₂, hrun, h₂, hreturned'⟩ := ih h₁ hlater
    refine ⟨s₂, ?_, h₂, ?_⟩
    · rw [List.map_cons, run, hstep, Option.bind_some, hrun]
    · rw [hreturned', hreturned, List.append_assoc]

/-- What a read says about the chain it has left, with what it got out of it. -/
inductive Finds (chunks : List String) (c : Chain σ) : Except RenderError Pipe.Read → Prop where
  | pending : Finds chunks c (.ok (.pending chunks))
  | closed (h : c.isEnded = true) : Finds chunks c (.ok (.closed chunks))
  | stalled (h : c.isStalled = true) : Finds chunks c (.error .filterStalled)

/-- The end of a read polls the chain and then looks at it: whether it has ended, is stalled or
may still produce something decides what the read returns. -/
theorem InPipe.settle {chunks : List String} {res : Except RenderError Pipe.Read}
    (h : s.InPipe p lines) (hsettle : p.settle fuel chunks lines = some (res, p', lines')) :
    ∃ s' more, s.step (.poll fuel) = some s' ∧ s'.InPipe p' lines' ∧
      s'.returned = s.returned ++ more ∧ Finds (chunks ++ more) s'.chain res := by
  rw [Pipe.settle, h.chain] at hsettle
  obtain ⟨passed, hpoll, heq⟩ := Option.map_eq_some_iff.mp hsettle
  obtain ⟨s', hstep, h', hreturned⟩ := h.poll hpoll
  obtain ⟨hres, heq⟩ := Prod.mk.inj heq
  obtain ⟨rfl, rfl⟩ := Prod.mk.inj heq
  rw [h'.chain, Option.any_some, Option.any_some] at hres
  refine ⟨s', passed.chunks, hstep, h', hreturned, ?_⟩
  cases hended : s'.chain.isEnded with
  | true =>
    rw [hended, if_pos rfl] at hres
    exact hres ▸ .closed hended
  | false =>
    rw [hended, if_neg Bool.false_ne_true] at hres
    cases hstalled : s'.chain.isStalled with
    | true =>
      rw [hstalled, if_pos rfl] at hres
      exact hres ▸ .stalled hstalled
    | false =>
      rw [hstalled, if_neg Bool.false_ne_true] at hres
      exact hres ▸ .pending

/-- **A read** is a series of operations on the chain. It hands on what they return, unless the
chain is stalled. -/
theorem InPipe.read {res : Except RenderError Pipe.Read} (h : s.InPipe p lines)
    (hread : p.read fuel lines = some (res, p', lines')) :
    ∃ queued ended s' chunks, s.run (readMoves fuel queued ended) = some s' ∧ s'.InPipe p' lines' ∧
      s'.returned = s.returned ++ chunks ∧ Finds chunks s'.chain res ∧
      (p.source = none → queued = [] ∧ ended = false) := by
  cases hsource : p.source with
  | none =>
    rw [Pipe.read, hsource] at hread
    obtain ⟨s', more, hstep, h', hreturned, hfinds⟩ := h.settle hread
    refine ⟨[], false, s', more, ?_, h', hreturned, hfinds, fun _ => ⟨rfl, rfl⟩⟩
    rw [readMoves, List.map_nil, List.nil_append, if_neg Bool.false_ne_true, List.nil_append, run,
      hstep]
    rfl
  | some id =>
    rw [Pipe.read, hsource] at hread
    obtain ⟨passed, hpass, hread⟩ := Option.bind_eq_some_iff.mp hread
    have hin : s.InPipe p { lines with streams := (lines.streams.readAll id).2 } :=
      ⟨h.chain, h.handles⟩
    obtain ⟨s₁, hrun, h₁, hreturned⟩ := hin.passAll hpass
    -- the stream goes on: the queued chunks and a poll are all there is to the read
    split at hread
    · obtain ⟨late, hpoll, heq⟩ := Option.map_eq_some_iff.mp hread
      cases heq
      obtain ⟨s₂, hstep, h₂, hreturned'⟩ := h₁.poll hpoll
      refine ⟨(lines.streams.state id).queue, false, s₂, passed.chunks ++ late.chunks, ?_, h₂, ?_,
        .pending, by simp⟩
      · rw [readMoves, run_append, hrun]
        simp [run, hstep]
      · rw [hreturned', hreturned, List.append_assoc]
    · -- the end of the stream goes to the chain in the same read, so the chunks before it may be
      -- lost
      obtain ⟨last, hfinish, hsettle⟩ := Option.bind_eq_some_iff.mp hread
      have hended : s₁.InPipe { passed.pipe with source := none } passed.lines :=
        ⟨h₁.chain, h₁.handles⟩
      obtain ⟨s₂, hstep, h₂, hreturned'⟩ := hended.finish hfinish
      obtain ⟨s₃, more, hstep', h₃, hreturned'', hfinds⟩ := h₂.settle hsettle
      refine ⟨(lines.streams.state id).queue, true, s₃, passed.chunks ++ last.chunks ++ more, ?_,
        h₃, ?_, hfinds, by simp⟩
      · rw [readMoves, run_append, hrun]
        simp [run, hstep, hstep']
      · rw [hreturned'', hreturned', hreturned]
        simp

/-- After a read nothing is late, since a read ends with a poll, and a poll goes on until no link
has anything left to take. -/
theorem atRest_of_read {queued : List String} {ended : Bool} (h : s.Kept 0 [])
    (hrun : s.run (readMoves fuel queued ended) = some s') : s'.chain.AtRest := by
  rw [readMoves, ← List.append_assoc, run_append] at hrun
  obtain ⟨s₁, hfront, hpoll⟩ := Option.bind_eq_some_iff.mp hrun
  obtain ⟨s₂, hstep, hnil⟩ := Option.bind_eq_some_iff.mp hpoll
  cases hnil
  exact ((h.run hfront).1.step hstep).2.2 rfl

/-- Something has been done to the chain, or nothing. -/
def Becomes (s s' : Session σ) : Prop := ∃ moves, s.run moves = some s'

theorem Becomes.refl (s : Session σ) : s.Becomes s := ⟨[], rfl⟩

/-- Moves in two parts are moves. -/
theorem Becomes.trans {s'' : Session σ} (h : s.Becomes s') (h' : s'.Becomes s'') :
    s.Becomes s'' := by
  obtain ⟨moves, hrun⟩ := h
  obtain ⟨moves', hrun'⟩ := h'
  refine ⟨moves ++ moves', ?_⟩
  rw [run_append, hrun, Option.bind_some, hrun']

theorem becomes_of_step {move : ChainMove} (h : s.step move = some s') : s.Becomes s' := by
  refine ⟨[move], ?_⟩
  rw [run, h]
  rfl

end Session

/-- Waiting for the stream takes a chunk from it at most. -/
theorem Pipe.waitSource_frame {σ : Type} {p p' : Pipe σ} {lines lines' : Lines} {event : Pipe.Event}
    (h : p.waitSource? lines = some (event, p', lines')) :
    p' = p ∧ lines'.handles = lines.handles := by
  rw [waitSource?] at h
  split at h
  · cases h
  · split at h
    · cases h
      exact ⟨rfl, rfl⟩
    · split at h <;> cases h
      exact ⟨rfl, rfl⟩

end StreamingTemplate

import StreamingTemplate.Pipe
import StreamingTemplate.Proofs.Filter.Alike
import StreamingTemplate.Proofs.Stream

/-!
# Reading from pipes

Nothing that is done with a pipe brings its stream back, and only a read that finds the stream ended
gives it up. A read that leaves the pipe open has either kept the stream, or has a chain that can
still end (`read_pending`).

With stages that act only inside their calls, a pipe in use does what a new pipe of the same stages
does that is fed the same chunks (`Alike`). One read is then all the chunks that are queued, fed one
by one, and the end of the input behind them if the stream has ended (`Alike.read_open`,
`Alike.read_ended`); the polls in between do not show.
-/

namespace StreamingTemplate.Pipe

variable {σ : Type}

/-! ## What an open pipe is waiting for

The stream and the chain of a pipe end on their own, in either order. The lemmas of this section
say what a read can leave: a pipe that is still open has one of the two to wait for. -/

/-- The stream has been found ended, and the chain has not ended and is not stalled. -/
structure AwaitsChain (p : Pipe σ) : Prop where
  source : p.source = none
  chain : ∃ chain, p.chain = some chain ∧ chain.isEnded = false ∧ chain.isStalled = false

variable [FilterStage σ] {fuel : Nat} {p p' : Pipe σ} {lines lines' : Lines} {passed : Passed σ}

omit [FilterStage σ] in
/-- What an operation on the chain leaves of the pipe. -/
theorem onChain_frame {op : Handles → Chain σ → Option (Chain.Result σ)}
    (h : p.onChain op lines = some passed) :
    ∃ chain, passed.pipe = { p with chain } ∧ (p.chain.isSome = true → chain.isSome = true) := by
  rw [onChain] at h
  split at h
  · obtain rfl := Option.some.inj h
    exact ⟨p.chain, rfl, id⟩
  · obtain ⟨res, -, rfl⟩ := Option.map_eq_some_iff.mp h
    exact ⟨some res.chain, rfl, fun _ => rfl⟩

/-- Passing chunks on touches the chain only, the stream of the pipe stays the one it has, -/
theorem pass_source {chunk : String} (h : p.pass fuel chunk lines = some passed) :
    passed.pipe.source = p.source := by
  rw [pass] at h
  split at h
  · obtain rfl := Option.some.inj h
    rfl
  · obtain ⟨chain, hpipe, -⟩ := onChain_frame h
    rw [hpipe]

/-- for one chunk and for many. -/
theorem passAll_source {chunks : List String} (h : p.passAll fuel chunks lines = some passed) :
    passed.pipe.source = p.source := by
  induction chunks generalizing p lines passed with
  | nil =>
    obtain rfl := Option.some.inj h
    rfl
  | cons chunk rest ih =>
    obtain ⟨first, hfirst, h⟩ := Option.bind_eq_some_iff.mp h
    obtain ⟨later, hlater, rfl⟩ := Option.map_eq_some_iff.mp h
    exact (ih hlater).trans (pass_source hfirst)

/-- At the end of a read, when the stream is over: a pipe that stays open has a chain that was
polled, has not ended and can still end. -/
theorem settle_pending {chunks chunks' : List String}
    (h : p.settle fuel chunks lines = some (.ok (.pending chunks'), p', lines'))
    (hsource : p.source = none) : p'.AwaitsChain := by
  rw [settle] at h
  split at h
  · cases h
  · rename_i chain hchain
    obtain ⟨passed, hpoll, heq⟩ := Option.map_eq_some_iff.mp h
    obtain ⟨later, hpipe, hsome⟩ := onChain_frame hpoll
    obtain ⟨chain', rfl⟩ := Option.isSome_iff_exists.mp (hsome (by rw [hchain]; rfl))
    obtain ⟨hread, heq⟩ := Prod.mk.inj heq
    obtain ⟨rfl, -⟩ := Prod.mk.inj heq
    rw [hpipe] at hread ⊢
    refine ⟨hsource, chain', rfl, ?_⟩
    simp only [Option.any_some] at hread
    cases hended : chain'.isEnded <;> cases hstalled : chain'.isStalled <;> simp_all

/-- **A pipe that a read leaves open** has its stream, or a chain that can still end. -/
theorem read_pending {chunks : List String}
    (h : p.read fuel lines = some (.ok (.pending chunks), p', lines')) :
    p'.sourceOpen = true ∨ p'.AwaitsChain := by
  rw [read] at h
  split at h
  · rename_i hsource
    exact .inr (settle_pending h hsource)
  · rename_i id hsource
    obtain ⟨queued, hpass, h⟩ := Option.bind_eq_some_iff.mp h
    split at h
    · obtain ⟨late, hpoll, heq⟩ := Option.map_eq_some_iff.mp h
      obtain ⟨chain, hpipe, -⟩ := onChain_frame hpoll
      obtain ⟨-, heq⟩ := Prod.mk.inj heq
      obtain ⟨rfl, -⟩ := Prod.mk.inj heq
      exact .inl (by rw [hpipe, sourceOpen, passAll_source hpass, hsource]; rfl)
    · obtain ⟨last, hfinish, h⟩ := Option.bind_eq_some_iff.mp h
      obtain ⟨chain, hpipe, -⟩ := onChain_frame hfinish
      exact .inr (settle_pending h (by rw [hpipe]))

/-! ## Pipes that do the same

`Alike` relates a pipe in use to the one it is compared with. Both have chains of stages that act
only inside their calls and have been called alike; their streams, and the handles kept beside
them, are left out, since such stages never look at either. -/

/-- Two pipes without chains, or with chains that are alike. -/
inductive Alike (P : σ → Prop) : Pipe σ → Pipe σ → Prop where
  | bare {source source' : Option StreamId} : Alike P ⟨source, none⟩ ⟨source', none⟩
  | chained {source source' : Option StreamId} {c d : Chain σ} (h : c.Alike P d) :
      Alike P ⟨source, some c⟩ ⟨source', some d⟩

namespace Alike

variable {P : σ → Prop} {p q : Pipe σ}

omit [FilterStage σ] in
/-- The streams of two pipes do not matter. -/
theorem withSource (h : p.Alike P q) (source : Option StreamId) :
    Alike P { p with source } q := by
  cases h with
  | bare => exact .bare
  | chained h => exact .chained h

variable (hP : InlineStages P)

include hP

/-- Pipes that are alike answer a chunk alike, whatever fuel is left to either, and are alike
afterwards. The lines of the first pipe come back unchanged. -/
theorem pass (h : p.Alike P q) (fuel fuel' : Nat) (chunk : String) (lines lines' : Lines) :
    ∃ out p' q', p.pass (fuel + 1) chunk lines = some ⟨out, p', lines⟩ ∧
      q.pass (fuel' + 1) chunk lines' = some ⟨out, q', lines'⟩ ∧ p'.Alike P q' ∧
      p'.source = p.source := by
  cases h with
  | bare => exact ⟨[chunk], _, _, rfl, rfl, .bare, rfl⟩
  | @chained source source' c d h =>
    obtain ⟨out, c', d', hc, hd, h'⟩ := h.accept hP fuel fuel' lines.handles lines'.handles chunk
    refine ⟨out, ⟨source, some c'⟩, ⟨source', some d'⟩, ?_, ?_, .chained h', rfl⟩
    · simp only [Pipe.pass, onChain, hc, Option.map_some]
    · simp only [Pipe.pass, onChain, hd, Option.map_some]

/-- The same for chunks in order, by induction over them. -/
theorem passAll (h : p.Alike P q) (fuel fuel' : Nat) (chunks : List String)
    (lines lines' : Lines) :
    ∃ out p' q', p.passAll (fuel + 1) chunks lines = some ⟨out, p', lines⟩ ∧
      q.passAll (fuel' + 1) chunks lines' = some ⟨out, q', lines'⟩ ∧ p'.Alike P q' ∧
      p'.source = p.source := by
  induction chunks generalizing p q with
  | nil => exact ⟨[], p, q, rfl, rfl, h, rfl⟩
  | cons chunk rest ih =>
    obtain ⟨first, p₁, q₁, hp, hq, h₁, hsource₁⟩ := h.pass hP fuel fuel' chunk lines lines'
    obtain ⟨later, p₂, q₂, hp', hq', h₂, hsource₂⟩ := ih h₁
    refine ⟨first ++ later, p₂, q₂, ?_, ?_, h₂, hsource₂.trans hsource₁⟩
    · simp only [Pipe.passAll, hp, Option.bind_some, hp', Option.map_some]
    · simp only [Pipe.passAll, hq, Option.bind_some, hq', Option.map_some]

/-- The same for the end of the input. -/
theorem finish (h : p.Alike P q) (fuel fuel' : Nat) (lines lines' : Lines) :
    ∃ out p' q', p.finish (fuel + 1) lines = some ⟨out, p', lines⟩ ∧
      q.finish (fuel' + 1) lines' = some ⟨out, q', lines'⟩ ∧ p'.Alike P q' ∧
      p'.source = p.source := by
  cases h with
  | bare => exact ⟨[], _, _, rfl, rfl, .bare, rfl⟩
  | @chained source source' c d h =>
    obtain ⟨out, c', d', hc, hd, h'⟩ := h.finish hP fuel fuel' lines.handles lines'.handles
    refine ⟨out, ⟨source, some c'⟩, ⟨source', some d'⟩, ?_, ?_, .chained h', rfl⟩
    · simp only [Pipe.finish, onChain, hc, Option.map_some]
    · simp only [Pipe.finish, onChain, hd, Option.map_some]

/-- A poll of one of them does not show at all: stages that act only inside their calls have
nothing to say between two calls. -/
theorem poll (h : p.Alike P q) (fuel : Nat) (lines : Lines) :
    ∃ p', p.poll (fuel + 1) lines = some ⟨[], p', lines⟩ ∧ p'.Alike P q ∧
      p'.source = p.source := by
  cases h with
  | bare => exact ⟨_, rfl, .bare, rfl⟩
  | @chained source source' c d h =>
    obtain ⟨c', hc, h'⟩ := h.poll hP fuel lines.handles
    refine ⟨⟨source, some c'⟩, ?_, .chained h', rfl⟩
    simp only [Pipe.poll, onChain, hc, Option.map_some]

omit [FilterStage σ] hP in
/-- Waiting for the chain of one of two pipes that do the same does not show. -/
theorem waitChain (h : p.Alike P q) {lines lines' : Lines} {event : Event} {p' : Pipe σ}
    (hwait : p.waitChain? lines = some (event, p', lines')) :
    event = .stage ∧ lines' = lines ∧ p'.Alike P q ∧ p'.source = p.source := by
  cases h with
  | bare => cases hwait
  | chained h =>
    obtain ⟨c', hc, heq⟩ := Option.map_eq_some_iff.mp hwait
    cases heq
    exact ⟨rfl, rfl, .chained (h.waitLate hc), rfl⟩

/-! ### Reads

A read is made of steps that keep pipes alike: it feeds what is queued, and then polls, or tells
the chain that its input is over. -/

variable {id : StreamId} {lines : Lines}

/-- A read from a stream that goes on is all its chunks, fed one by one. The poll at its end does
not show. -/
theorem read_open (h : p.Alike P q) (fuel fuel' : Nat) (lines' : Lines)
    (hsource : p.source = some id) (hreader : (lines.streams.state id).reader ≠ .dropped)
    (hopen : (lines.streams.state id).writerOpen = true) :
    ∃ out p' q', p.read (fuel + 1) lines =
        some (.ok (.pending out), p', { lines with streams := (lines.streams.readAll id).2 }) ∧
      q.passAll (fuel' + 1) (lines.streams.state id).queue lines' = some ⟨out, q', lines'⟩ ∧
      p'.Alike P q' ∧ p'.source = some id := by
  obtain ⟨out, p₁, q', hpass, hpass', h₁, hsource₁⟩ := h.passAll hP fuel fuel'
    (lines.streams.state id).queue { lines with streams := (lines.streams.readAll id).2 } lines'
  obtain ⟨p₂, hpoll, h₂, hsource₂⟩ := h₁.poll hP fuel
    { lines with streams := (lines.streams.readAll id).2 }
  have hopen' : ((lines.streams.readAll id).2.state id).writerOpen = true := by
    rw [Streams.readAll, Streams.state_update_self hreader]
    exact hopen
  refine ⟨out, p₂, q', ?_, hpass', h₂, hsource₂.trans (hsource₁.trans hsource)⟩
  rw [read, hsource]
  change (p.passAll (fuel + 1) (lines.streams.state id).queue
    { lines with streams := (lines.streams.readAll id).2 }).bind _ = _
  rw [hpass, Option.bind_some, if_pos hopen', hpoll, Option.map_some, List.append_nil]

/-- The end of a read, if the chain has ended: the pipe is closed with the chunks gathered so
far. -/
theorem settle_ended (h : p.Alike P q) (fuel : Nat) (chunks : List String) (lines : Lines)
    (hended : ∀ chain, q.chain = some chain → chain.isEnded = true) :
    ∃ p', p.settle (fuel + 1) chunks lines = some (.ok (.closed chunks), p', lines) ∧
      p'.source = p.source := by
  cases h with
  | bare => exact ⟨_, rfl, rfl⟩
  | @chained source source' c d h =>
    obtain ⟨c', hpoll, h'⟩ := h.poll hP fuel lines.handles
    have hended' : c'.isEnded = true := h'.isEnded_eq.trans (hended d rfl)
    refine ⟨⟨source, some c'⟩, ?_, rfl⟩
    simp only [settle, Pipe.poll, onChain, hpoll, Option.map_some, Option.any_some, hended',
      if_true, List.append_nil]

/-- A read from a stream that has ended, if its chain ends with its input. -/
theorem read_ended (h : p.Alike P q) (fuel fuel' : Nat) (lines' : Lines)
    (hsource : p.source = some id) (hreader : (lines.streams.state id).reader ≠ .dropped)
    (hclosed : (lines.streams.state id).writerOpen = false)
    (hends : ∀ passed finished,
      q.passAll (fuel' + 1) (lines.streams.state id).queue lines' = some passed →
      passed.pipe.finish (fuel' + 1) passed.lines = some finished →
      ∀ chain, finished.pipe.chain = some chain → chain.isEnded = true) :
    ∃ out last p' q' q'', p.read (fuel + 1) lines =
        some (.ok (.closed (out ++ last)), p',
          { lines with streams := (lines.streams.readAll id).2 }) ∧
      q.passAll (fuel' + 1) (lines.streams.state id).queue lines' = some ⟨out, q', lines'⟩ ∧
      q'.finish (fuel' + 1) lines' = some ⟨last, q'', lines'⟩ ∧ p'.source = none := by
  obtain ⟨out, p₁, q', hpass, hpass', h₁, -⟩ := h.passAll hP fuel fuel'
    (lines.streams.state id).queue { lines with streams := (lines.streams.readAll id).2 } lines'
  obtain ⟨last, p₂, q'', hfinish, hfinish', h₂, hsource₂⟩ := (h₁.withSource none).finish hP fuel
    fuel' { lines with streams := (lines.streams.readAll id).2 } lines'
  obtain ⟨p₃, hsettle, hsource₃⟩ := h₂.settle_ended hP fuel (out ++ last)
    { lines with streams := (lines.streams.readAll id).2 } (hends _ _ hpass' hfinish')
  have hclosed' : ¬ ((lines.streams.readAll id).2.state id).writerOpen = true := by
    rw [Streams.readAll, Streams.state_update_self hreader]
    simp [hclosed]
  refine ⟨out, last, p₃, q', q'', ?_, hpass', hfinish', hsource₃.trans hsource₂⟩
  rw [read, hsource]
  change (p.passAll (fuel + 1) (lines.streams.state id).queue
    { lines with streams := (lines.streams.readAll id).2 }).bind _ = _
  rw [hpass, Option.bind_some, if_neg hclosed', hfinish, Option.bind_some, hsettle]

end Alike

/-! ### New pipes

The pipe to compare with is the new one, `fresh`, that is fed the same chunks from the beginning.
How the chunks were cut into reads is forgotten in that comparison (`passAll_append`). -/

/-- Chunks that are fed in two parts. -/
theorem passAll_append {first second : List String} {later : Passed σ}
    (h : p.passAll fuel first lines = some passed)
    (h' : passed.pipe.passAll fuel second passed.lines = some later) :
    p.passAll fuel (first ++ second) lines =
      some { later with chunks := passed.chunks ++ later.chunks } := by
  induction first generalizing p lines passed with
  | nil =>
    obtain rfl := Option.some.inj h
    exact h'
  | cons chunk rest ih =>
    obtain ⟨one, hone, h⟩ := Option.bind_eq_some_iff.mp h
    obtain ⟨more, hmore, rfl⟩ := Option.map_eq_some_iff.mp h
    rw [List.cons_append, passAll, hone, Option.bind_some, ih hmore h', Option.map_some]
    simp only [List.append_assoc]

theorem passAll_singleton (fuel : Nat) (chunk : String) (p : Pipe σ) (lines : Lines) :
    p.passAll fuel [chunk] lines = p.pass fuel chunk lines := by
  rw [passAll]
  cases p.pass fuel chunk lines with
  | none => rfl
  | some passed => simp only [Option.bind_some, passAll, Option.map_some, List.append_nil]

/-- A pipe with a new chain of stages, or without a chain if there are no stages. -/
def fresh (stages : List σ) : Pipe σ :=
  ⟨none, if stages.isEmpty then none else some (Chain.ofStages {} stages).1⟩

/-- The chain of a new pipe may be any new one. -/
theorem alike_fresh {P : σ → Prop} {stages : List σ} (h : ∀ stage ∈ stages, P stage)
    (kept : Handles) (source : Option StreamId) :
    Alike P ⟨source, if stages.isEmpty then none else some (Chain.ofStages kept stages).1⟩
      (fresh stages) := by
  rw [fresh]
  split
  · exact .bare
  · exact .chained (Chain.ofStages_alike h kept {})

/-- Stages that end with their input: a new chain of them that is fed any chunks has ended once it
was told that its input is over. -/
def EndsWithInput (stages : List σ) : Prop :=
  ∀ chunks passed finished, (fresh stages).passAll 1 chunks {} = some passed →
    passed.pipe.finish 1 passed.lines = some finished →
    ∀ chain, finished.pipe.chain = some chain → chain.isEnded = true

/-- The chain, if there is one, is at rest, and each of its links that was told of the end of its
input has signalled its own. -/
def Prompt (P : σ → Prop) (p : Pipe σ) : Prop :=
  ∀ chain, p.chain = some chain → chain.Calm P ∧ RowPrompt chain.links

section Ends

variable {P : σ → Prop} (hP : InlineStages P)
  (hends : ∀ stage, P stage → .finish ∈ (FilterStage.finish stage).2)

include hP hends

/-- Passing a chunk on keeps the chain prompt, -/
theorem Prompt.pass {chunk : String} (hp : p.Prompt P)
    (h : p.pass (fuel + 1) chunk lines = some passed) : passed.pipe.Prompt P := by
  rw [Pipe.pass] at h
  split at h
  · obtain rfl := Option.some.inj h
    exact hp
  · rename_i chain hchain
    obtain ⟨hcalm, hprompt⟩ := hp chain hchain
    simp only [onChain, hchain, Chain.accept, Chain.propagate_calm hP hcalm] at h
    obtain rfl := Option.some.inj h
    intro chain' hchain'
    obtain rfl := Option.some.inj hchain'
    exact ⟨hcalm.took hP.silent _ _, (takeRow_prompt hP hends hcalm.stages hprompt _ _).1⟩

/-- and so do chunks in order. -/
theorem Prompt.passAll {chunks : List String} (hp : p.Prompt P)
    (h : p.passAll (fuel + 1) chunks lines = some passed) : passed.pipe.Prompt P := by
  induction chunks generalizing p lines passed with
  | nil =>
    obtain rfl := Option.some.inj h
    exact hp
  | cons chunk rest ih =>
    obtain ⟨first, hfirst, h⟩ := Option.bind_eq_some_iff.mp h
    obtain ⟨later, hlater, rfl⟩ := Option.map_eq_some_iff.mp h
    have hprompt : later.pipe.Prompt P := ih (hp.pass hP hends hfirst) hlater
    exact hprompt

/-- **Stages that signal their end whenever they are told of that of their input** end with it.
The end runs down the chain in one pass: each link is told of it after the one before has
signalled its own. -/
theorem endsWithInput {stages : List σ} (hstages : ∀ stage ∈ stages, P stage) :
    EndsWithInput stages := by
  intro chunks passed finished hpassed hfinished chain' hchain'
  have hfresh : (fresh stages).Prompt P := by
    intro chain hchain
    rw [fresh] at hchain
    split at hchain
    · cases hchain
    · obtain rfl := Option.some.inj hchain
      exact ⟨(Chain.ofStages_alike hstages {} {}).left, by simp [RowPrompt, Chain.ofStages]⟩
  have hprompt := hfresh.passAll hP hends hpassed
  rw [finish, onChain] at hfinished
  split at hfinished
  · rename_i hnone
    obtain rfl := Option.some.inj hfinished
    cases hnone.symm.trans hchain'
  · rename_i chain hchain
    obtain ⟨hcalm, hrow⟩ := hprompt chain hchain
    have hcalm' : Chain.Calm P { chain with inputEnded := true } :=
      ⟨⟨hcalm.mailbox, hcalm.late⟩, hcalm.stages⟩
    rw [Chain.finish, Chain.propagate_calm hP hcalm'] at hfinished
    obtain rfl := Option.some.inj hfinished
    obtain rfl := Option.some.inj hchain'
    exact (Chain.isEnded_takeRow { chain with inputEnded := true } [] _).trans
      ((takeRow_prompt hP hends hcalm.stages hrow [] true).2 rfl)

end Ends

end StreamingTemplate.Pipe

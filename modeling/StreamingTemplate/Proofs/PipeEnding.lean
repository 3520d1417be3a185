import StreamingTemplate.Filter.Text
import StreamingTemplate.Proofs.Engine.Fuel
import StreamingTemplate.Proofs.Filter.Passes
import StreamingTemplate.Proofs.Filter.Text
import StreamingTemplate.Proofs.PipeAccount

/-!
# Pipes that come to an end

Whether an operation on a chain returns is up to its stages. If it always does for the chains that a
registry of filters builds, whatever has happened to them since (`FilterRegistry.Terminating`), it
does for everything a pipe does with such a chain, and the chain in the pipe stays one of them.

* `Yields` — with enough fuel a computation returns a value with a property;
* `FilterRegistry.InUse` — a chain that a registry has built, at any time of its use;
* `Chain.InUse.operate` — the operations on it return, and it stays in use;
* `Pipe.InUse.pass`, `Pipe.InUse.read` — and so do those on its pipe;
* `terminating_of_silent` — filters that send nothing terminate, those of the library among them.
-/

namespace StreamingTemplate

/-! ## Computations that return

A computation on fuel returns if some fuel is enough. `Yields` adds that more fuel changes
nothing, so that computations can be chained without keeping track of how much each of them
needs. -/

/-- With enough fuel a computation returns a value with a property, and more fuel changes nothing.
-/
def Yields {α : Type} (f : Nat → Option α) (Q : α → Prop) : Prop :=
  ∃ fuel a, Q a ∧ ∀ more, fuel ≤ more → f more = some a

namespace Yields

variable {α β : Type} {f : Nat → Option α} {Q : α → Prop}

theorem pure {a : α} (h : Q a) : Yields (fun _ => some a) Q := ⟨0, a, h, fun _ _ => rfl⟩

theorem returns (h : Yields f Q) : ∃ fuel a, f fuel = some a ∧ Q a := by
  obtain ⟨fuel, a, hq, hf⟩ := h
  exact ⟨fuel, a, hf fuel (Nat.le_refl fuel), hq⟩

theorem mono {R : α → Prop} (h : Yields f Q) (hR : ∀ a, Q a → R a) : Yields f R := by
  obtain ⟨fuel, a, hq, hf⟩ := h
  exact ⟨fuel, a, hR a hq, hf⟩

/-- What is returned with some fuel is what is returned with enough of it. -/
theorem of_some (h : Yields f Q) {fuel : Nat} {a : α}
    (hmono : ∀ {more}, fuel ≤ more → f more = some a) : Q a := by
  obtain ⟨enough, b, hq, henough⟩ := h
  have hsame := (hmono (Nat.le_max_left fuel enough)).symm.trans
    (henough _ (Nat.le_max_right fuel enough))
  exact Option.some.inj hsame ▸ hq

/-- Two computations one after the other: the larger of their fuels is enough for both. -/
theorem bind {g : α → Nat → Option β} {R : β → Prop} (h : Yields f Q)
    (hg : ∀ a, Q a → Yields (g a) R) :
    Yields (fun fuel => (f fuel).bind fun a => g a fuel) R := by
  obtain ⟨fuel, a, hq, hf⟩ := h
  obtain ⟨fuel', b, hr, hga⟩ := hg a hq
  refine ⟨max fuel fuel', b, hr, fun more hle => ?_⟩
  dsimp only
  rw [hf more (by omega), Option.bind_some]
  exact hga more (by omega)

/-- What is done with the result needs no fuel. -/
theorem map {g : α → β} {R : β → Prop} (h : Yields f Q) (hg : ∀ a, Q a → R (g a)) :
    Yields (fun fuel => (f fuel).map g) R := by
  obtain ⟨fuel, a, hq, hf⟩ := h
  refine ⟨fuel, g a, hg a hq, fun more hle => ?_⟩
  dsimp only
  rw [hf more hle, Option.map_some]

end Yields

/-! ## Chains in use

`Uses` is the condition under which a registry promises that operations return: the chain was
built by it, and whatever was done to the chain since was done through the moves of a session. So
the promise covers chains in any state that can come up, and needs no induction over states of
stages. -/

variable {σ : Type} [FilterStage σ]

namespace FilterRegistry

/-- A session with a chain that the registry has built. -/
def Uses (filters : FilterRegistry σ) (s : Session σ) : Prop :=
  ∃ specs stages kept, filters.stages specs = .ok stages ∧ (Session.start kept stages).Becomes s

/-- A chain that the registry has built, after whatever has happened to it and the handles since. -/
def InUse (filters : FilterRegistry σ) (handles : Handles) (c : Chain σ) : Prop :=
  ∃ s, filters.Uses s ∧ s.chain = c ∧ s.handles = handles

/-- Every operation on a chain that the registry has built returns. -/
def Terminating (filters : FilterRegistry σ) : Prop :=
  ∀ s, filters.Uses s → ∀ operation : Chain.Operation,
    ∃ fuel r, operation.run fuel s.handles s.chain = some r

variable {filters : FilterRegistry σ} {handles : Handles} {c : Chain σ}

/-- What is done to a chain in use leaves it in use. -/
theorem Uses.becomes {s s' : Session σ} (h : filters.Uses s) (hlater : s.Becomes s') :
    filters.Uses s' := by
  obtain ⟨specs, stages, kept, hstages, hbecomes⟩ := h
  exact ⟨specs, stages, kept, hstages, hbecomes.trans hlater⟩

/-- A chain is in use once it is built. -/
theorem inUse_of_chain {specs : List FilterSpec} {handles' : Handles}
    (h : filters.chain handles specs = .ok (c, handles')) : filters.InUse handles' c := by
  rw [chain] at h
  cases hstages : filters.stages specs with
  | error err =>
    rw [hstages] at h
    cases h
  | ok stages =>
    rw [hstages] at h
    have hbuilt : Chain.ofStages handles stages = (c, handles') := Except.ok.inj h
    refine ⟨Session.start handles stages, ⟨specs, stages, handles, hstages, .refl _⟩, ?_, ?_⟩
    · rw [Session.start, hbuilt]
    · rw [Session.start, hbuilt]

/-- A change to the chain and the handles that is some move of the session keeps the chain in
use. -/
theorem InUse.step (h : filters.InUse handles c) (move : ChainMove)
    {chain' : Chain σ} {handles' : Handles}
    (hstep : ∀ s : Session σ, s.chain = c → s.handles = handles →
      ∃ s', s.step move = some s' ∧ s'.chain = chain' ∧ s'.handles = handles') :
    filters.InUse handles' chain' := by
  obtain ⟨s, hs, rfl, rfl⟩ := h
  obtain ⟨s', hmove, rfl, rfl⟩ := hstep s rfl rfl
  exact ⟨s', hs.becomes (Session.becomes_of_step hmove), rfl, rfl⟩

/-- **An operation on a chain in use** returns and leaves it in use. That it returns is the
promise of the registry, and the result is that of a move. -/
theorem InUse.operate (hterm : filters.Terminating) (h : filters.InUse handles c)
    (operation : Chain.Operation) :
    Yields (fun fuel => operation.run fuel handles c) fun r => filters.InUse r.handles r.chain := by
  obtain ⟨s, hs, rfl, rfl⟩ := h
  obtain ⟨fuel, r, hrun⟩ := hterm s hs operation
  have hmono {more : Nat} (hle : fuel ≤ more) : operation.run more s.handles s.chain = some r := by
    rw [Chain.Operation.run_eq_propagate] at hrun ⊢
    exact Chain.propagate_mono hle hrun
  refine ⟨fuel, r, ?_, fun more hle => hmono hle⟩
  have hused : filters.InUse s.handles s.chain := ⟨s, hs, rfl, rfl⟩
  cases operation with
  | accept chunk =>
    refine hused.step (.accept fuel chunk) fun s' hchain hhandles => ?_
    rw [Session.step, hchain, hhandles, show s.chain.accept fuel s.handles chunk = some r from hrun]
    exact ⟨_, rfl, rfl, rfl⟩
  | finish =>
    refine hused.step (.finish fuel) fun s' hchain hhandles => ?_
    rw [Session.step, hchain, hhandles, show s.chain.finish fuel s.handles = some r from hrun]
    exact ⟨_, rfl, rfl, rfl⟩
  | poll =>
    refine hused.step (.poll fuel) fun s' hchain hhandles => ?_
    rw [Session.step, hchain, hhandles, show s.chain.poll fuel s.handles = some r from hrun]
    exact ⟨_, rfl, rfl, rfl⟩

end FilterRegistry

/-! ## Pipes

A pipe calls its chain through operations only, so each of its own operations yields, and what is
left in the pipe is in use again. -/

namespace Pipe

/-- The chain of a pipe, if it has one, is in use. -/
def InUse (filters : FilterRegistry σ) (handles : Handles) (p : Pipe σ) : Prop :=
  ∀ c, p.chain = some c → filters.InUse handles c

namespace InUse

variable {filters : FilterRegistry σ} (hterm : filters.Terminating) {p : Pipe σ} {lines : Lines}

include hterm

/-- One operation on the chain, if the pipe has one. -/
theorem onChain (h : p.InUse filters lines.handles) (operation : Chain.Operation) :
    Yields (fun fuel => p.onChain (fun handles c => operation.run fuel handles c) lines)
      fun passed => passed.pipe.InUse filters passed.lines.handles := by
  unfold Pipe.onChain
  split
  · exact .pure h
  · rename_i c hchain
    refine (FilterRegistry.InUse.operate hterm (h c hchain) operation).map fun r hr => ?_
    rintro _ ⟨⟩
    exact hr

theorem pass (h : p.InUse filters lines.handles) (chunk : String) :
    Yields (fun fuel => p.pass fuel chunk lines)
      fun passed => passed.pipe.InUse filters passed.lines.handles := by
  unfold Pipe.pass
  split
  · exact .pure h
  · exact h.onChain hterm (.accept chunk)

/-- Chunks in order: every one of them finds the chain in use. -/
theorem passAll (h : p.InUse filters lines.handles) (chunks : List String) :
    Yields (fun fuel => p.passAll fuel chunks lines)
      fun passed => passed.pipe.InUse filters passed.lines.handles := by
  induction chunks generalizing p lines with
  | nil => exact .pure h
  | cons chunk rest ih => exact (h.pass hterm chunk).bind fun r hr => (ih hr).map fun r' hr' => hr'

/-- The poll at the end of a read. -/
theorem settle (h : p.InUse filters lines.handles) (chunks : List String) :
    Yields (fun fuel => p.settle fuel chunks lines)
      fun res => res.2.1.InUse filters res.2.2.handles := by
  unfold Pipe.settle
  split
  · exact .pure h
  · exact (h.onChain hterm .poll).map fun r hr => hr

/-- **Reading a pipe** with a chain in use returns and leaves it in use. A read is some chunks,
perhaps the end of the input, and a poll, all of which yield. -/
theorem read (h : p.InUse filters lines.handles) :
    Yields (fun fuel => p.read fuel lines) fun res => res.2.1.InUse filters res.2.2.handles := by
  unfold Pipe.read
  split
  · exact h.settle hterm []
  · rename_i id hsource
    have hread : p.InUse filters { lines with streams := (lines.streams.readAll id).2 }.handles := h
    refine (hread.passAll hterm (lines.streams.readAll id).1).bind fun r hr => ?_
    split
    · exact (hr.onChain hterm .poll).map fun r' hr' => hr'
    · have hended : InUse filters r.lines.handles { r.pipe with source := none } := hr
      exact (hended.onChain hterm .finish).bind fun r' hr' => hr'.settle hterm _

end InUse

variable {filters : FilterRegistry σ} {p p' : Pipe σ} {lines lines' : Lines}

/-- A chain stays in use when it is sent to from outside. -/
theorem InUse.send {handles : Handles} (h : p.InUse filters handles) (slot : String)
    (output : LateOutput) :
    InUse filters handles { p with chain := (Chain.sendFrom handles slot output p.chain).2 } := by
  intro c' hc'
  cases hc : p.chain with
  | none =>
    simp only [hc, Chain.sendFrom] at hc'
    split at hc' <;> cases hc'
  | some c =>
    simp only [hc] at hc'
    refine (h c hc).step (.send slot output) fun s hchain hhandles => ?_
    rw [Session.step, hchain, hhandles, hc']
    exact ⟨_, rfl, rfl, rfl⟩

/-- Handles that are released or copied by others do not concern the chain: these are moves of
its session too. -/
theorem InUse.release {handles : Handles} (h : p.InUse filters handles) (slot : String) :
    p.InUse filters (handles.release slot) := by
  intro c hc
  refine (h c hc).step (.release slot) fun s hchain hhandles => ?_
  exact ⟨_, rfl, hchain, by rw [hhandles]⟩

theorem InUse.copy {handles : Handles} (h : p.InUse filters handles) (source target : String) :
    p.InUse filters (handles.copy source target) := by
  intro c hc
  refine (h c hc).step (.copy source target) fun s hchain hhandles => ?_
  exact ⟨_, rfl, hchain, by rw [hhandles]⟩

/-- A chain stays in use when its pipe is waited for. -/
theorem InUse.waitChain {event : Event} (h : p.InUse filters lines.handles)
    (hwait : p.waitChain? lines = some (event, p', lines')) :
    p'.InUse filters lines'.handles := by
  unfold waitChain? at hwait
  split at hwait
  · cases hwait
  · rename_i c hc
    obtain ⟨c', hc', heq⟩ := Option.map_eq_some_iff.mp hwait
    cases heq
    rintro _ ⟨⟩
    refine (h c hc).step .waitLate fun s hchain hhandles => ?_
    rw [Session.step, hchain, hhandles, hc']
    exact ⟨_, rfl, rfl, rfl⟩

theorem InUse.waitSource {event : Event} (h : p.InUse filters lines.handles)
    (hwait : p.waitSource? lines = some (event, p', lines')) :
    p'.InUse filters lines'.handles := by
  obtain ⟨rfl, hhandles⟩ := waitSource_frame hwait
  rwa [hhandles]

end Pipe

/-! ## Filters that send nothing

Without anything sent, one pass is enough for every operation, and such filters are terminating
for whatever registry they come from. -/

/-- **Filters that send nothing terminate.** -/
theorem terminating_of_silent (hsilent : SilentStages fun _ : σ => True)
    (filters : FilterRegistry σ) : filters.Terminating := by
  intro s hs operation
  obtain ⟨r, hr⟩ := Chain.propagate_of_silent hsilent 0 s.handles operation.chunks
    (operation.enter s.chain)
  exact ⟨1, r, (Chain.Operation.run_eq_propagate ..).trans hr⟩

/-- The filters of the library terminate. -/
theorem TextFilter.terminating : (TextFilter.registry id).Terminating :=
  terminating_of_silent TextFilter.inlineStages.silent _

end StreamingTemplate

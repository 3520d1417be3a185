import StreamingTemplate.Proofs.Filter.Finishing
import StreamingTemplate.Proofs.Pipe
import StreamingTemplate.Proofs.PipeAccount

/-!
# The detection of stalls

A chain looks for its handles whenever it collects, and a handle that is dropped is not brought
back. So between operations the chain is right when it has found its handles gone (`Sound`), and
after an operation it also knows when they are (`step_exact`). Then it is stalled exactly if its
input is over, it has not ended, and nobody can send it anything any more (`poll_decides`).

A stalled chain has nothing late and nobody to tell, so operations on it do nothing (`Stuck`). Reads
of a pipe decide by the same poll (`InPipe.read_decides`).

* `live_callAll`, `runLink_frames`, `propagate_frames` — stages bring no handle back, and a link, a
  pass and an operation notice when the last one is gone;
* `step_sound`, `run_sound` — what is done to a chain leaves it right about its handles;
* `Stuck.step`, `Stuck.run` — nothing ends a stall.
-/

namespace StreamingTemplate

/-! ## Handles are not brought back

A handle is copied from another handle of the same chain or released, so once the last handle of
a chain is gone no action brings one back. That is why a chain may remember what it has found. -/

namespace Handles

/-- A handle that can be found is left. -/
theorem live_of_get? {h : Handles} {slot : String} {handle : Handle}
    (hget : h.get? slot = some handle) : h.live handle.chain = true := by
  obtain ⟨kept, hfound, rfl⟩ := Option.map_eq_some_iff.mp hget
  exact List.any_eq_true.mpr ⟨kept, List.mem_of_find?_eq_some hfound, beq_self_eq_true _⟩

/-- No action brings back a handle that is gone. -/
theorem gone_perform {h : Handles} {chain : Nat} (hgone : h.live chain = false)
    (action : StageAction) : (h.perform action).live chain = false := by
  cases hlive : (h.perform action).live chain with
  | false => rfl
  | true => exact (live_perform hlive).symm.trans hgone

end Handles

namespace Chain

/-- Nothing can be sent to a chain without handles. -/
theorem sendFrom_gone {σ : Type} {handles : Handles} {c : Chain σ}
    (hgone : handles.live c.id = false) (slot : String) (output : LateOutput) :
    (sendFrom handles slot output (some c)).2 = some c ∧
      sendDeeds c.id handles slot output = [] := by
  simp only [sendFrom, sendDeeds]
  cases hget : handles.get? slot with
  | none => exact ⟨rfl, rfl⟩
  | some handle =>
    have hid : c.id ≠ handle.chain := by
      intro hid
      rw [hid, Handles.live_of_get? hget] at hgone
      cases hgone
    exact ⟨by simp [hid], by simp [Ne.symm hid]⟩

theorem handles_act (id : Nat) (e : Effects) (action : StageAction) :
    (act id e action).handles = e.handles.perform action := by
  cases action with
  | send slot output =>
    simp only [act]
    split
    · split <;> rfl
    · rfl
  | push | finish | release | copy => rfl

theorem handles_actAll (id : Nat) (e : Effects) (actions : List StageAction) :
    (actAll id e actions).handles = e.handles.performAll actions := by
  induction actions generalizing e with
  | nil => rfl
  | cons action rest ih =>
    rw [Handles.performAll, List.foldl_cons, ← handles_act id]
    exact ih _

variable {σ : Type} [FilterStage σ]

/-- Calls of a stage that leave a handle have found one. -/
theorem live_callAll {id chain : Nat} {stage : σ} {e : Effects} {called : List StageCall}
    (hlive : (callAll id stage e called).handles.live chain = true) :
    e.handles.live chain = true := by
  induction called generalizing stage e with
  | nil => exact hlive
  | cons call rest ih =>
    have hafter := ih hlive
    rw [handles_actAll] at hafter
    exact Handles.live_performAll hafter

/-! ## What a chain knows of its handles

`handlesDropped` is set when a collection finds no handle, and never reset. `Exact` says that it
is right at this moment; `KnowsHandles` says the half that stays true when handles are dropped
afterwards. -/

omit [FilterStage σ] in
/-- The chain knows whether handles are left. -/
def Exact (handles : Handles) (c : Chain σ) : Prop := c.handlesDropped = !handles.live c.id

omit [FilterStage σ] in
/-- A chain that has found its handles gone is right, and has seen all that was sent. -/
structure KnowsHandles (handles : Handles) (c : Chain σ) : Prop where
  gone : c.handlesDropped = true → handles.live c.id = false
  seen : c.handlesDropped = true → c.mailbox = []

omit [FilterStage σ] in
/-- A chain that knows exactly is right when it has found its handles gone, -/
theorem Exact.gone {handles : Handles} {c : Chain σ} (h : Exact handles c)
    (hdropped : c.handlesDropped = true) : handles.live c.id = false := by
  rw [Exact, hdropped] at h
  simpa using h.symm

omit [FilterStage σ] in
/-- and with an empty mailbox it has seen all that was sent. -/
theorem Exact.knows {handles : Handles} {c : Chain σ} (h : Exact handles c)
    (hmailbox : c.mailbox = []) : KnowsHandles handles c := ⟨h.gone, fun _ => hmailbox⟩

/-- What running links keeps of a chain and its handles. -/
structure Frames (p p' : Passing σ) : Prop where
  id : p'.chain.id = p.chain.id
  inputEnded : p'.chain.inputEnded = p.chain.inputEnded
  exact : Exact p.handles p.chain → Exact p'.handles p'.chain

/-- Running a link collects behind it, so the chain knows of the handles that its stage has
dropped. -/
theorem runLink_frames (p : Passing σ) (k : Nat) : Frames p (runLink p k) := by
  cases hlink : p.chain.links[k]? with
  | none =>
    have hsame : runLink p k = p := by
      rw [runLink, hlink]
    rw [hsame]
    exact ⟨rfl, rfl, fun hexact => hexact⟩
  | some link =>
    rw [runLink_of_getElem? hlink, ran_eq]
    refine ⟨rfl, rfl, ?_⟩
    intro hexact
    -- a handle that is left now was left before
    rw [Exact] at hexact ⊢
    dsimp only
    rw [hexact]
    cases hlive : (callAll p.chain.id link.stage
        { out := link.late, mailbox := p.chain.mailbox, handles := p.handles }
        (due link p.upstreamEnded p.chunks)).handles.live p.chain.id with
    | false => simp
    | true =>
      have hbefore : p.handles.live p.chain.id = true := live_callAll hlive
      simp [hbefore]

theorem foldl_runLink_frames (p : Passing σ) (indices : List Nat) :
    Frames p (indices.foldl runLink p) := by
  induction indices generalizing p with
  | nil => exact ⟨rfl, rfl, fun hexact => hexact⟩
  | cons index rest ih =>
    have hlink := runLink_frames p index
    have hrest := ih (runLink p index)
    exact ⟨hrest.id.trans hlink.id, hrest.inputEnded.trans hlink.inputEnded,
      fun hexact => hrest.exact (hlink.exact hexact)⟩

/-- **After a pass** the chain knows whether handles are left. -/
theorem pass_frames (handles : Handles) (chunks : List String) (c : Chain σ) :
    (c.pass handles chunks).chain.id = c.id ∧
      (c.pass handles chunks).chain.inputEnded = c.inputEnded ∧
      ((c.handlesDropped = true → handles.live c.id = false) →
        Exact (c.pass handles chunks).handles (c.pass handles chunks).chain) := by
  rw [pass_eq_foldl]
  have hframes := foldl_runLink_frames
    (⟨chunks, c.inputEnded, c.collect handles, handles⟩ : Passing σ)
    (List.range c.links.length)
  refine ⟨hframes.id, hframes.inputEnded, ?_⟩
  intro hgone
  refine hframes.exact ?_
  change (c.handlesDropped || !handles.live c.id) = !handles.live c.id
  cases hdropped : c.handlesDropped with
  | false => rfl
  | true => simp [hgone hdropped]

/-- The same after an operation, which is some passes. -/
theorem propagate_frames {fuel : Nat} {handles : Handles} {chunks : List String} {c : Chain σ}
    {r : Result σ} (h : c.propagate fuel handles chunks = some r) :
    r.chain.id = c.id ∧ r.chain.inputEnded = c.inputEnded ∧
      ((c.handlesDropped = true → handles.live c.id = false) → Exact r.handles r.chain) := by
  induction fuel generalizing handles chunks c r with
  | zero => cases h
  | succ fuel ih =>
    obtain ⟨hid, hinput, hexact⟩ := pass_frames handles chunks c
    obtain ⟨r', hr', rfl, -⟩ | ⟨-, rfl, -⟩ := propagate_cases h
    · obtain ⟨hid', hinput', hexact'⟩ := ih hr'
      exact ⟨hid'.trans hid, hinput'.trans hinput, fun hgone => hexact' (hexact hgone).gone⟩
    · exact ⟨hid, hinput, hexact⟩

omit [FilterStage σ] in
/-- **A quiet chain** whose input is over is stalled if and only if it has not ended and no handle
is left. -/
theorem isStalled_iff {handles : Handles} {c : Chain σ} (hrest : c.AtRest)
    (hinput : c.inputEnded = true) (hexact : Exact handles c) :
    c.isStalled = true ↔ c.isEnded = false ∧ handles.live c.id = false := by
  rw [isStalled, hinput, hrest.hasLate, hexact]
  simp

/-! ## Stalled chains

A stalled chain is quiet: nothing is late, and every stage was told what there is to tell.
Running its links calls no stage then (`linksDeeds_idle`), and the operation ends after one pass
that changed nothing. -/

/-- The links of a quiet chain do nothing. -/
theorem runLinkDeeds_idle {p : Passing σ} {k : Nat} (h : p.chain.Quiet) (hchunks : p.chunks = [])
    (hupstream : p.upstreamEnded = p.chain.inputOver k) (hk : k < p.chain.links.length) :
    runLinkDeeds p k = [] := by
  obtain ⟨link, hlink⟩ : ∃ link, p.chain.links[k]? = some link := ⟨_, List.getElem?_eq_getElem hk⟩
  have hdue : due link p.upstreamEnded p.chunks = [] := by
    rw [due, hchunks]
    cases hup : p.upstreamEnded with
    | false => rfl
    | true => simp [h.told k link hk hlink (hupstream ▸ hup)]
  rw [runLinkDeeds, hlink]
  dsimp only
  rw [hdue]
  rfl

theorem linksDeeds_idle {p : Passing σ} {k : Nat} (m : Nat) (h : p.chain.Quiet)
    (hchunks : p.chunks = []) (hupstream : p.upstreamEnded = p.chain.inputOver k)
    (hm : k + m = p.chain.links.length) : linksDeeds p (List.range' k m) = [] := by
  induction m generalizing p k with
  | zero => rfl
  | succ m ih =>
    rw [List.range'_succ, linksDeeds, runLinkDeeds_idle h hchunks hupstream (by omega),
      runLink_idle h hchunks hupstream (by omega)]
    refine ih ⟨⟨h.mailbox, h.late⟩, h.told⟩ rfl rfl ?_
    rw [← hm, Nat.add_assoc, Nat.add_comm 1]

/-- Nothing happens in an operation on a quiet chain that gives it nothing. -/
theorem propagateDeeds_idle {c : Chain σ} (h : c.Quiet) (fuel : Nat) (handles : Handles) :
    propagateDeeds fuel handles [] c = [] := by
  cases fuel with
  | zero => rfl
  | succ fuel =>
    obtain ⟨upstreamEnded, handlesDropped, hpass⟩ := pass_idle h handles
    have hlate : (c.pass handles []).chain.hasLate = false := by
      rw [hpass]
      exact (h.redrop handlesDropped).hasLate
    have hpassed : passDeeds handles [] c = [] := by
      rw [passDeeds, collect_idle h, List.range_eq_range']
      exact linksDeeds_idle c.links.length (h.redrop _) rfl rfl (Nat.zero_add _)
    rw [propagateDeeds, hpassed, hlate]
    rfl

/-- An operation on a quiet chain without handles leaves it as it is. -/
theorem propagate_stuck {handles : Handles} {c : Chain σ} (h : c.Quiet)
    (hdropped : c.handlesDropped = true) (hgone : handles.live c.id = false) (fuel : Nat) :
    c.propagate (fuel + 1) handles [] = some ⟨[], c, handles⟩ := by
  obtain ⟨handlesDropped, hidle⟩ := propagate_idle h fuel handles
  obtain ⟨-, -, hexact⟩ := propagate_frames hidle
  have hstill : handlesDropped = !handles.live c.id := hexact fun _ => hgone
  have hsame : { c with handlesDropped } = c := by rw [hstill, hgone, Bool.not_false, ← hdropped]
  rw [hidle, hsame]

end Chain

/-! ## Between operations

`Sound` is the invariant of a session. It is weaker than being exact, since the holder of handles
can drop one at any time and the chain does not see that before it collects again. -/

/-- Whether a move gives the chain a chunk. -/
def ChainMove.isAccept : ChainMove → Bool
  | .accept .. => true
  | _ => false

namespace Session

open Chain

variable {σ : Type} [FilterStage σ] {s s' : Session σ}

/-- Between operations all stages know whether their input is over, and the chain is right about its
handles. -/
structure Sound (s : Session σ) : Prop where
  told : s.chain.ToldUpTo s.chain.links.length
  knows : s.chain.KnowsHandles s.handles

/-- A new chain is right: it was told nothing yet and has not looked for its handles. -/
theorem start_sound (handles : Handles) (stages : List σ) : (start handles stages).Sound where
  told i link _ hlink hover := by
    cases i with
    | zero => cases hover
    | succ i =>
      obtain ⟨before, hbefore, hended⟩ := (Option.any_eq_true _ _).mp hover
      obtain ⟨stage, rfl⟩ := new_of_getElem? hbefore
      cases hended
  knows := ⟨fun hdropped => (by cases hdropped), fun hdropped => by cases hdropped⟩

omit [FilterStage σ] in
/-- An action on the handles from outside brings none back. -/
theorem Sound.perform (h : s.Sound) (action : StageAction) :
    { s with handles := s.handles.perform action }.Sound where
  told := h.told
  knows := ⟨fun hdropped => Handles.gone_perform (h.knows.gone hdropped) action, h.knows.seen⟩

omit [FilterStage σ] in
/-- Waiting takes what was sent out of the mailbox into the links. -/
theorem Sound.waitLate {c : Chain σ} (h : s.Sound) (hwait : s.chain.waitLate? s.handles = some c) :
    { s with chain := c }.Sound := by
  have hdelays := waitLate_delays hwait
  refine ⟨?_, ?_⟩
  · rw [hdelays.length]
    exact hdelays.told h.told
  · rw [waitLate?] at hwait
    split at hwait
    · cases hwait
    · rename_i hopen
      split at hwait
      · cases hwait
        exact ⟨fun hdropped => absurd hdropped hopen, fun hdropped => absurd hdropped hopen⟩
      · rename_i hmailbox
        split at hwait
        · cases hwait
        · -- the mailbox is empty, and nobody is left to fill it
          rename_i hgone
          cases hwait
          exact ⟨fun _ => by simpa using hgone, fun _ => hmailbox⟩

omit [FilterStage σ] in
/-- A send needs a handle, so the chain cannot have found them gone. -/
theorem Sound.send (h : s.Sound) (slot : String) (output : LateOutput) :
    { s with chain := (sendFrom s.handles slot output (some s.chain)).2.getD s.chain }.Sound := by
  obtain ⟨link, hsend, -⟩ | ⟨hsend, -⟩ := sendFrom_deeds s.handles slot output s.chain
  · rw [hsend, Option.getD_some]
    refine ⟨h.told, h.knows.gone, ?_⟩
    -- a chain that has found its handles gone could not have been sent anything
    intro hdropped
    have hnothing := (sendFrom_gone (h.knows.gone hdropped) slot output).1
    rw [hsend] at hnothing
    exact (congrArg Chain.mailbox (Option.some.inj hnothing)).trans (h.knows.seen hdropped)
  · rw [hsend, Option.getD_some]
    exact h

/-- **A move keeps a session sound.** Operations end exact; waits, sends and what is done with
handles are covered by the lemmas above. -/
theorem step_sound (h : s.Sound) {move : ChainMove} (hmove : s.step move = some s') : s'.Sound := by
  cases hforwards : move.forwards with
  | true =>
    obtain ⟨fuel, chunks, inputEnded, r, hr, hchain, hhandles⟩ := step_forwards hforwards hmove
    have hquiet := propagate_quiet hr
    have hexact := (propagate_frames hr).2.2 h.knows.gone
    refine ⟨?_, ?_⟩
    · rw [hchain]
      exact hquiet.told
    · rw [hchain, hhandles]
      exact hexact.knows hquiet.mailbox
  | false =>
    cases move with
    | accept | finish | poll => cases hforwards
    | waitLate =>
      obtain ⟨c, hwait, rfl⟩ := Option.map_eq_some_iff.mp hmove
      exact h.waitLate hwait
    | send slot output =>
      cases hmove
      exact ⟨(h.send slot output).told, (h.send slot output).knows⟩
    | release slot =>
      cases hmove
      exact h.perform (.release slot)
    | copy source target =>
      cases hmove
      exact h.perform (.copy source target)

/-- So do moves in order. -/
theorem run_sound (h : s.Sound) {moves : List ChainMove} (hrun : s.run moves = some s') :
    s'.Sound := by
  induction moves generalizing s with
  | nil =>
    cases hrun
    exact h
  | cons move rest ih =>
    obtain ⟨s₁, hmove, hrest⟩ := Option.bind_eq_some_iff.mp hrun
    exact ih (step_sound h hmove) hrest

/-! ## Nothing ends a stall

A stuck chain has no handle left, so nothing can be sent to it, and its links have nothing to do.
The only move that could call a stage is to give it a chunk. -/

/-- A chain that is stalled and has lost its handles, with nothing left to do. -/
structure Stuck (s : Session σ) : Prop where
  quiet : s.chain.Quiet
  gone : s.handles.live s.chain.id = false
  stalled : s.chain.isStalled = true

omit [FilterStage σ] in
/-- What the chain calls stalled: its input is over, it has not ended, it has found its handles
gone, and nothing is late. -/
theorem isStalled_elim {c : Chain σ} (h : c.isStalled = true) :
    c.inputEnded = true ∧ c.isEnded = false ∧ c.handlesDropped = true ∧ c.hasLate = false := by
  simpa [isStalled, and_assoc] using h

omit [FilterStage σ] in
/-- A sound chain that calls itself stalled is stuck, since what it has found of its handles is
right. -/
theorem Sound.stuck (h : s.Sound) (hstalled : s.chain.isStalled = true) : s.Stuck := by
  obtain ⟨-, -, hdropped, hlate⟩ := isStalled_elim hstalled
  exact ⟨⟨atRest_of_hasLate (h.knows.seen hdropped) hlate, h.told⟩, h.knows.gone hdropped, hstalled⟩

/-- An operation on a stuck chain calls no stage, and leaves everything as it is. -/
theorem Stuck.propagate (h : s.Stuck) (fuel : Nat) :
    propagateDeeds fuel s.handles [] s.chain = [] ∧
      ∀ r, s.chain.propagate fuel s.handles [] = some r → r = ⟨[], s.chain, s.handles⟩ := by
  refine ⟨propagateDeeds_idle h.quiet fuel s.handles, ?_⟩
  intro r hr
  obtain ⟨-, -, hdropped, -⟩ := isStalled_elim h.stalled
  cases fuel with
  | zero => cases hr
  | succ fuel =>
    rw [propagate_stuck h.quiet hdropped h.gone] at hr
    exact (Option.some.inj hr).symm

/-- A poll of a stuck chain returns, and nothing has changed. -/
theorem Stuck.poll (h : s.Stuck) (fuel : Nat) : s.step (.poll (fuel + 1)) = some s := by
  obtain ⟨-, -, hdropped, -⟩ := isStalled_elim h.stalled
  have hlog : propagateLog (fuel + 1) s.handles [] s.chain = [] := by
    rw [← events_propagateDeeds, propagateDeeds_idle h.quiet]
    rfl
  rw [Session.step, Chain.poll, propagate_stuck h.quiet hdropped h.gone, Option.map_some, hlog,
    after, List.append_nil, List.append_nil]

/-- **Nothing ends a stall**: whatever is done to a stalled chain, other than to give it a chunk, it
stays as it is, returns nothing and calls no stage. -/
theorem Stuck.step (h : s.Stuck) {move : ChainMove} (hmove : move.isAccept = false) :
    s.stepDeeds move = [] ∧ ∀ s', s.step move = some s' →
      s'.Stuck ∧ s'.chain = s.chain ∧ s'.returned = s.returned := by
  obtain ⟨hinput, -, hdropped, -⟩ := isStalled_elim h.stalled
  cases move with
  | accept fuel chunk => cases hmove
  | finish fuel =>
    -- the input of a stalled chain is over already
    obtain ⟨hdeeds, hidle⟩ := h.propagate fuel
    have hsame : { s.chain with inputEnded := true } = s.chain := by rw [← hinput]
    refine ⟨by rw [stepDeeds, hsame, hdeeds], ?_⟩
    intro s' hstep
    rw [Session.step, Chain.finish, hsame] at hstep
    obtain ⟨r, hr, rfl⟩ := Option.map_eq_some_iff.mp hstep
    obtain rfl := hidle r hr
    exact ⟨⟨h.quiet, h.gone, h.stalled⟩, rfl, List.append_nil _⟩
  | poll fuel =>
    obtain ⟨hdeeds, hidle⟩ := h.propagate fuel
    refine ⟨hdeeds, ?_⟩
    intro s' hstep
    obtain ⟨r, hr, rfl⟩ := Option.map_eq_some_iff.mp hstep
    obtain rfl := hidle r hr
    exact ⟨⟨h.quiet, h.gone, h.stalled⟩, rfl, List.append_nil _⟩
  | waitLate =>
    refine ⟨rfl, ?_⟩
    intro s' hstep
    rw [Session.step, waitLate?, if_pos hdropped] at hstep
    cases hstep
  | send slot output =>
    obtain ⟨hchain, hdeeds⟩ := sendFrom_gone h.gone slot output
    refine ⟨hdeeds, ?_⟩
    intro s' hstep
    cases hstep
    rw [hchain, Option.getD_some]
    exact ⟨⟨h.quiet, h.gone, h.stalled⟩, rfl, rfl⟩
  | release slot =>
    refine ⟨rfl, ?_⟩
    intro s' hstep
    cases hstep
    exact ⟨⟨h.quiet, Handles.gone_perform h.gone (.release slot), h.stalled⟩, rfl, rfl⟩
  | copy source target =>
    refine ⟨rfl, ?_⟩
    intro s' hstep
    cases hstep
    exact ⟨⟨h.quiet, Handles.gone_perform h.gone (.copy source target), h.stalled⟩, rfl, rfl⟩

/-- **No later moves change anything** but one that gives a chunk: by induction over the moves. -/
theorem Stuck.run (h : s.Stuck) {later : List ChainMove}
    (hlater : ∀ move ∈ later, move.isAccept = false) :
    s.deeds later = [] ∧ ∀ s', s.run later = some s' →
      s'.chain = s.chain ∧ s'.returned = s.returned := by
  induction later generalizing s with
  | nil =>
    refine ⟨rfl, ?_⟩
    intro s' hrun
    cases hrun
    exact ⟨rfl, rfl⟩
  | cons move rest ih =>
    obtain ⟨hdeeds, hstep⟩ := h.step (hlater move List.mem_cons_self)
    cases hs : s.step move with
    | none =>
      refine ⟨by rw [deeds, hdeeds, hs]; rfl, ?_⟩
      intro s' hrun
      rw [Session.run, hs] at hrun
      cases hrun
    | some s₁ =>
      obtain ⟨h₁, hchain, hreturned⟩ := hstep s₁ hs
      obtain ⟨hmore, hall⟩ := ih h₁ fun m hm => hlater m (List.mem_cons_of_mem move hm)
      refine ⟨by rw [deeds, hdeeds, hs]; exact hmore, ?_⟩
      intro s' hrun
      rw [Session.run, hs] at hrun
      obtain ⟨hchain', hreturned'⟩ := hall s' hrun
      exact ⟨hchain'.trans hchain, hreturned'.trans hreturned⟩

/-! ## What a poll finds

Every operation collects the mailbox, and with it what has become of the handles. So right after
one the chain knows for sure, and what it says of being stalled is true. -/

/-- After an operation the chain knows whether handles are left. -/
theorem step_exact (h : s.Sound) {move : ChainMove} (hforwards : move.forwards = true)
    (hmove : s.step move = some s') : Exact s'.handles s'.chain := by
  obtain ⟨fuel, chunks, inputEnded, r, hr, hchain, hhandles⟩ := step_forwards hforwards hmove
  rw [hchain, hhandles]
  exact (propagate_frames hr).2.2 h.knows.gone

/-- Whether the input of a chain is over is decided by what was done to it. -/
theorem run_input {handles : Handles} {stages : List σ} {moves : List ChainMove}
    (hrun : (start handles stages).run moves = some s) :
    s.chain.inputEnded = true ↔ ∃ fuel, .finish fuel ∈ moves := by
  obtain ⟨done, c, -, htraced, hreturned⟩ := run_traced (start_traced handles stages) moves
  obtain ⟨rfl, rfl⟩ := hreturned s hrun
  exact htraced.input

end Session

/-! ## What a read finds

A read ends with a poll, and its outcome is what the chain says of itself right after it. With
the exactness of that moment the outcome says whether a handle is left. -/

namespace Pipe

variable {σ : Type} [FilterStage σ] {p p' : Pipe σ} {lines lines' : Lines} {fuel : Nat}
  {passed : Passed σ}

omit [FilterStage σ] in
/-- The chain of a pipe, if it has one, was told that its input is over. -/
def InputOver (p : Pipe σ) : Prop := ∀ c, p.chain = some c → c.inputEnded = true

omit [FilterStage σ] in
theorem onChain_over {op : Handles → Chain σ → Option (Chain.Result σ)}
    (hop : ∀ c r, p.chain = some c → op lines.handles c = some r → r.chain.inputEnded = true)
    (h : p.onChain op lines = some passed) : passed.pipe.InputOver := by
  rw [onChain] at h
  intro c' hc'
  cases hchain : p.chain with
  | none =>
    rw [hchain] at h
    cases h
    exact absurd hc' (by simp [hchain])
  | some c =>
    rw [hchain] at h
    obtain ⟨r, hr, rfl⟩ := Option.map_eq_some_iff.mp h
    cases hc'
    exact hop c r hchain hr

/-- The end of a read leaves the input of the chain over if it was. -/
theorem settle_over {chunks : List String} {res : Except RenderError Read} (hover : p.InputOver)
    (h : p.settle fuel chunks lines = some (res, p', lines')) : p'.InputOver := by
  rw [settle] at h
  split at h
  · cases h
    exact hover
  · obtain ⟨late, hpoll, heq⟩ := Option.map_eq_some_iff.mp h
    cases heq
    exact onChain_over (fun c r hc hr => (Chain.propagate_frames hr).2.1.trans (hover c hc)) hpoll

/-- **A read that leaves no stream** leaves a chain whose input is over. -/
theorem read_over {res : Except RenderError Read} (hover : p.source = none → p.InputOver)
    (h : p.read fuel lines = some (res, p', lines')) (hsource' : p'.source = none) :
    p'.InputOver := by
  rw [read] at h
  split at h
  · rename_i hsource
    exact settle_over (hover hsource) h
  · rename_i id hsource
    obtain ⟨queued, hpass, h⟩ := Option.bind_eq_some_iff.mp h
    split at h
    · -- the stream may go on, so the pipe would have kept it
      obtain ⟨late, hpoll, heq⟩ := Option.map_eq_some_iff.mp h
      cases heq
      obtain ⟨chain, hpipe, -⟩ := onChain_frame hpoll
      rw [hpipe, passAll_source hpass, hsource] at hsource'
      cases hsource'
    · obtain ⟨last, hfinish, h⟩ := Option.bind_eq_some_iff.mp h
      refine settle_over (onChain_over ?_ hfinish) h
      intro c r _ hr
      exact (Chain.propagate_frames hr).2.1

end Pipe

namespace Session

variable {σ : Type} [FilterStage σ] {s s' : Session σ}

/-- A stalled chain stays stalled, and returns nothing any more. -/
theorem Sound.final (h : s.Sound) (hstalled : s.chain.isStalled = true) {later : List ChainMove}
    (hlater : ∀ move ∈ later, move.isAccept = false) :
    s.deeds later = [] ∧ ∀ s', s.run later = some s' →
      s'.chain.isEnded = false ∧ s'.chain.isStalled = true ∧ s'.returned = s.returned := by
  obtain ⟨hdeeds, hall⟩ := (h.stuck hstalled).run hlater
  refine ⟨hdeeds, ?_⟩
  intro s' hrun
  obtain ⟨hchain, hreturned⟩ := hall s' hrun
  rw [hchain]
  exact ⟨(isStalled_elim hstalled).2.1, hstalled, hreturned⟩

/-- A poll finds a chain whose input is over stalled exactly if nothing can end it. -/
theorem poll_decides {fuel : Nat} (h : s.Sound) (hpoll : s.step (.poll fuel) = some s')
    (hinput : s'.chain.inputEnded = true) :
    s'.chain.isStalled = true ↔
      s'.chain.isEnded = false ∧ s'.handles.live s'.chain.id = false := by
  have hforwards : (ChainMove.poll fuel).forwards = true := rfl
  exact Chain.isStalled_iff (step_quiet hforwards hpoll).toAtRest hinput
    (step_exact h hforwards hpoll)

/-- A read that leaves a pipe without a stream ends with a poll, and its outcome says whether the
chain has ended, is stalled, or may still end. -/
theorem InPipe.read_decides {p p' : Pipe σ} {lines lines' : Lines} {fuel : Nat}
    {res : Except RenderError Pipe.Read} (h : s.Sound) (hin : s.InPipe p lines)
    (hover : p.source = none → p.InputOver) (hread : p.read fuel lines = some (res, p', lines'))
    (hsource' : p'.source = none) :
    ∃ queued ended s', s.run (readMoves fuel queued ended) = some s' ∧ s'.InPipe p' lines' ∧
      (s'.chain.isStalled = true ↔
        s'.chain.isEnded = false ∧ s'.handles.live s'.chain.id = false) ∧
      (res = .error .filterStalled ↔ s'.chain.isStalled = true) ∧
      ((∃ chunks, res = .ok (.pending chunks)) ↔
        s'.chain.isEnded = false ∧ s'.chain.isStalled = false) := by
  obtain ⟨queued, ended, s', chunks, hmoves, hin', -, hfinds, -⟩ := hin.read hread
  refine ⟨queued, ended, s', hmoves, hin', ?_, ?_⟩
  · rw [readMoves, ← List.append_assoc] at hmoves
    obtain ⟨s₁, hfront, hpoll⟩ := run_concat hmoves
    exact poll_decides (run_sound h hfront) hpoll (Pipe.read_over hover hread hsource' _ hin'.chain)
  · cases hfinds with
    | pending =>
      have hwaits : s'.chain.isEnded = false ∧ s'.chain.isStalled = false := by
        obtain hopen | hawaits := Pipe.read_pending hread
        · rw [Pipe.sourceOpen, hsource'] at hopen
          cases hopen
        · obtain ⟨c, hc, hended, hstalled⟩ := hawaits.chain
          obtain rfl := Option.some.inj (hin'.chain.symm.trans hc)
          exact ⟨hended, hstalled⟩
      simp [hwaits]
    | closed hended => simp [hended, Chain.isStalled]
    | stalled hstalled => simp [hstalled]

end Session

open Session in
/-- **The detection of stalls is exact and final.** Take any stages, wired into a chain, and any
sequence of operations, waits and uses of handles that has returned.

If the end of the input was signalled, then right after a poll the chain is stalled if and only if
it has not ended and no handle of it is left.

A poll leaves a stalled chain and all that is known of it as it is, and there is nothing to wait
for. Whatever is done to the chain and with handles, other than to give it a chunk, calls no stage,
and leaves it not ended, stalled and without a chunk to return.

So a read that leaves a pipe with this chain and without a stream fails because of a stall exactly
if the chain has not ended and no handle is left, and then nothing ends it; and it leaves the chain
pending exactly if it has not ended and a handle is left. -/
theorem stalled_exactly_and_finally {σ : Type} [FilterStage σ] {handles : Handles}
    {stages : List σ} {moves : List ChainMove} {s : Session σ}
    (hrun : (start handles stages).run moves = some s) :
    ((∃ fuel, .finish fuel ∈ moves) → ∀ fuel s', s.step (.poll fuel) = some s' →
      (s'.chain.isStalled = true ↔
        s'.chain.isEnded = false ∧ s'.handles.live s'.chain.id = false)) ∧
    (s.chain.isStalled = true →
      (∀ fuel, s.step (.poll (fuel + 1)) = some s) ∧ s.step .waitLate = none ∧
      ∀ later, (∀ move ∈ later, move.isAccept = false) → s.deeds later = [] ∧
        ∀ s', s.run later = some s' →
          s'.chain.isEnded = false ∧ s'.chain.isStalled = true ∧ s'.returned = s.returned) ∧
    (∀ p lines fuel res p' lines', s.InPipe p lines →
      (p.source = none → ∃ fuel, .finish fuel ∈ moves) →
      p.read fuel lines = some (res, p', lines') → p'.source = none →
      ∃ queued ended s', s.run (readMoves fuel queued ended) = some s' ∧ s'.InPipe p' lines' ∧
        (res = .error .filterStalled ↔
          s'.chain.isEnded = false ∧ s'.handles.live s'.chain.id = false) ∧
        (res = .error .filterStalled → ∀ later, (∀ move ∈ later, move.isAccept = false) →
          ∀ s'', s'.run later = some s'' → s''.chain.isEnded = false) ∧
        ((∃ chunks, res = .ok (.pending chunks)) ↔
          s'.chain.isEnded = false ∧ s'.handles.live s'.chain.id = true)) := by
  have hsound : s.Sound := run_sound (start_sound handles stages) hrun
  refine ⟨?_, ?_, ?_⟩
  · intro hfinish fuel s' hpoll
    refine poll_decides hsound hpoll ?_
    obtain ⟨r, hr, rfl⟩ := Option.map_eq_some_iff.mp hpoll
    exact (Chain.propagate_frames hr).2.1.trans ((run_input hrun).mpr hfinish)
  · intro hstalled
    obtain ⟨-, -, hdropped, -⟩ := isStalled_elim hstalled
    have hstuck := hsound.stuck hstalled
    refine ⟨?_, ?_, fun later hlater => hsound.final hstalled hlater⟩
    · intro fuel
      exact hstuck.poll fuel
    · rw [step, Chain.waitLate?, if_pos hdropped]
      rfl
  · intro p lines fuel res p' lines' hin hsource hread hsource'
    have hover : p.source = none → p.InputOver := by
      intro hnone c hc
      obtain rfl := Option.some.inj (hin.chain.symm.trans hc)
      exact (run_input hrun).mpr (hsource hnone)
    obtain ⟨queued, ended, s', hmoves, hin', hexact, hstalled, hpending⟩ :=
      hin.read_decides hsound hover hread hsource'
    refine ⟨queued, ended, s', hmoves, hin', hstalled.trans hexact, ?_, ?_⟩
    · intro hres later hlater s'' hrun''
      exact (((run_sound hsound hmoves).final (hstalled.mp hres) hlater).2 s'' hrun'').1
    · rw [hpending, ← Bool.not_eq_true s'.chain.isStalled, hexact]
      cases s'.chain.isEnded <;> simp

/-- A stage that leaves it to others to end it. -/
def endless : ScriptedStage :=
  { script := { accept := [.echo], finish := [], keep := some "up" }, args := [] }

/-- A chain of this stage after the end of its input, when its handle is just gone. -/
def released : Session ScriptedStage where
  chain :=
    { id := 0
      links := [{ stage := endless, finished := true }]
      inputEnded := true }
  handles := { nextChain := 1 }
  given := ["x"]
  returned := ["x"]
  log := [.took 0 "x", .made 0 "x"]

/-- The chain when it has found that. -/
def stalled : Session ScriptedStage :=
  { released with chain := { released.chain with handlesDropped := true } }

theorem stalled_exactly_and_finally_released :
    (Session.start {} [endless]).run [.accept 1 "x", .finish 1, .release "up"] = some released ∧
    released.chain.isStalled = false ∧
    (stalled.chain.isStalled = true ↔
      stalled.chain.isEnded = false ∧ stalled.handles.live stalled.chain.id = false) ∧
    stalled.deeds [.send "up" .finish, .poll 1, .finish 1] = [] ∧
    ∃ s' : Session ScriptedStage,
      s'.InPipe ⟨none, some stalled.chain⟩ { handles := stalled.handles } ∧
      s'.chain.isEnded = false ∧ s'.handles.live s'.chain.id = false := by
  have hrun : (Session.start {} [endless]).run [.accept 1 "x", .finish 1, .release "up"] =
      some released := rfl
  have hpoll : released.step (.poll 1) = some stalled := rfl
  have hrun' : (Session.start {} [endless]).run
      [.accept 1 "x", .finish 1, .release "up", .poll 1] = some stalled := rfl
  have hread : (⟨none, some released.chain⟩ : Pipe ScriptedStage).read 1
      { handles := released.handles } = some (.error .filterStalled, ⟨none, some stalled.chain⟩,
        { handles := stalled.handles }) := rfl
  obtain ⟨hexact, -, hreads⟩ := stalled_exactly_and_finally hrun
  obtain ⟨-, hfinal, -⟩ := stalled_exactly_and_finally hrun'
  obtain ⟨queued, ended, s', -, hin, hstalled, -⟩ :=
    hreads _ _ _ _ _ _ ⟨rfl, rfl⟩ (fun _ => ⟨1, by simp⟩) hread rfl
  exact ⟨hrun, rfl, hexact ⟨1, by simp⟩ 1 stalled hpoll,
    ((hfinal rfl).2.2 [.send "up" .finish, .poll 1, .finish 1] (by decide)).1,
    s', hin, hstalled.mp rfl⟩

end StreamingTemplate

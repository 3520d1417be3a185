import StreamingTemplate.Proofs.Filter.Pass

/-!
# Stages that act only inside their calls

A stage that sends nothing through handles produces only what it pushes inside its calls. In a chain
of such stages a pass is a walk along the row of links: the chunks of one link are the input of the
next, and one pass is always enough. What such stages may still do is drop handles and copy them
(`SilentStages`); stages that leave the handles alone altogether are `InlineStages`.

Whether a stage is like this may depend on its state, so all of it is about stages in a set of
states that they never leave.

* `feedAlone`, `Link.take`, `takeRow` — a stage, a link and a row of links, without mailbox and
  handles; `rowActions` — all that the stages of the row do meanwhile;
* `pass_silent` — a pass over a chain at rest is `takeRow` on its links;
* `propagate_silent` — hence an operation needs fuel for one pass and leaves the chain at rest;
* `propagate_calm` — and inline stages leave the handles as they are.
-/

namespace StreamingTemplate

/-! ## Actions

An action pushes, signals the end, sends, or moves handles about. What the first two do is seen
in the output, what the last two do in the handles; only sending needs the mailbox. So for stages
that do not send the effects fall apart into an output and handles that can be followed
separately. -/

namespace StageAction

/-- Whether an action stays inside the call of its stage. -/
def isInline : StageAction → Bool
  | .push _ | .finish => true
  | .send .. | .release .. | .copy .. => false

/-- Whether an action sends through a handle. -/
def sends : StageAction → Bool
  | .send .. => true
  | .push _ | .finish | .release .. | .copy .. => false

theorem sends_of_isInline {a : StageAction} (h : a.isInline) : a.sends = false := by
  cases a with
  | push | finish => rfl
  | send | release | copy => cases h

end StageAction

/-- What an action adds to the output of its stage. -/
def Output.perform (out : Output) : StageAction → Output
  | .push chunk => out.push chunk
  | .finish => out.finish
  | .send .. | .release .. | .copy .. => out

namespace Handles

/-- What an action makes of the handles. -/
def perform (h : Handles) : StageAction → Handles
  | .release slot => h.release slot
  | .copy source target => h.copy source target
  | .push _ | .finish | .send .. => h

/-- The handles after actions in order. -/
def performAll (h : Handles) (actions : List StageAction) : Handles := actions.foldl perform h

@[simp] theorem performAll_nil (h : Handles) : h.performAll [] = h := rfl

theorem performAll_append (h : Handles) (actions more : List StageAction) :
    h.performAll (actions ++ more) = (h.performAll actions).performAll more :=
  List.foldl_append

/-- Actions that stay inside their calls leave the handles as they are. -/
theorem performAll_inline {actions : List StageAction} (hinline : ∀ a ∈ actions, a.isInline)
    (h : Handles) : h.performAll actions = h := by
  induction actions with
  | nil => rfl
  | cons a rest ih =>
    have ha : h.perform a = h := by
      have := hinline a List.mem_cons_self
      cases a with
      | push | finish => rfl
      | send | release | copy => cases this
    rw [performAll, List.foldl_cons, ha]
    exact ih fun b hb => hinline b (List.mem_cons_of_mem _ hb)

/-- An action cannot bring back a handle of a chain that has none left. -/
theorem live_perform {h : Handles} {a : StageAction} {chain : Nat}
    (hlive : (h.perform a).live chain = true) : h.live chain = true := by
  cases a with
  | push | finish | send => exact hlive
  | release slot =>
    obtain ⟨kept, hkept, hchain⟩ := List.any_eq_true.mp hlive
    exact List.any_eq_true.mpr ⟨kept, (List.mem_filter.mp hkept).1, hchain⟩
  | copy source target =>
    simp only [perform, copy] at hlive
    cases hsource : h.get? source with
    | none => rwa [hsource] at hlive
    | some handle =>
      rw [hsource] at hlive
      obtain ⟨kept, hkept, hchain⟩ := List.any_eq_true.mp hlive
      rcases List.mem_append.mp hkept with hkept | hkept
      · exact List.any_eq_true.mpr ⟨kept, (List.mem_filter.mp hkept).1, hchain⟩
      · -- the copied handle was there before, in the slot it is copied from
        obtain ⟨original, hfound, rfl⟩ := Option.map_eq_some_iff.mp hsource
        obtain rfl := List.mem_singleton.mp hkept
        exact List.any_eq_true.mpr ⟨original, List.mem_of_find?_eq_some hfound, hchain⟩

/-- What holds of one action holds of actions in order: a handle that is left was there before. -/
theorem live_performAll {h : Handles} {actions : List StageAction} {chain : Nat}
    (hlive : (h.performAll actions).live chain = true) : h.live chain = true := by
  induction actions generalizing h with
  | nil => exact hlive
  | cons a rest ih => exact live_perform (ih hlive)

/-- Whether a chain has lost its handles is decided by the last look at them. -/
theorem dropped_performAll (h : Handles) (actions : List StageAction) (chain : Nat)
    (dropped : Bool) :
    (dropped || !h.live chain || !(h.performAll actions).live chain) =
      (dropped || !(h.performAll actions).live chain) := by
  cases hlive : (h.performAll actions).live chain with
  | false => simp
  | true => simp [live_performAll hlive]

end Handles

/-- States that a stage never leaves, and in which it sends nothing through handles. -/
structure SilentStages {σ : Type} [FilterStage σ] (P : σ → Prop) : Prop where
  accept_stays : ∀ s chunk, P s → P (FilterStage.accept s chunk).1
  finish_stays : ∀ s, P s → P (FilterStage.finish s).1
  /-- taking a chunk sends nothing -/
  accept_silent : ∀ s chunk, P s → ∀ a ∈ (FilterStage.accept s chunk).2, a.sends = false
  /-- taking the end of the input sends nothing -/
  finish_silent : ∀ s, P s → ∀ a ∈ (FilterStage.finish s).2, a.sends = false

/-- States that a stage never leaves, and in which all its actions stay inside their calls. -/
structure InlineStages {σ : Type} [FilterStage σ] (P : σ → Prop) : Prop where
  accept_stays : ∀ s chunk, P s → P (FilterStage.accept s chunk).1
  finish_stays : ∀ s, P s → P (FilterStage.finish s).1
  /-- taking a chunk pushes and finishes only -/
  accept_inline : ∀ s chunk, P s → ∀ a ∈ (FilterStage.accept s chunk).2, a.isInline
  /-- taking the end of the input pushes and finishes only -/
  finish_inline : ∀ s, P s → ∀ a ∈ (FilterStage.finish s).2, a.isInline

theorem InlineStages.silent {σ : Type} [FilterStage σ] {P : σ → Prop} (hP : InlineStages P) :
    SilentStages P where
  accept_stays := hP.accept_stays
  finish_stays := hP.finish_stays
  accept_silent s chunk h a ha := StageAction.sends_of_isInline (hP.accept_inline s chunk h a ha)
  finish_silent s h a ha := StageAction.sends_of_isInline (hP.finish_inline s h a ha)

/-! ## A stage, a link and a row of links

The walk along a row without the machinery of a chain. `takeRow` is by recursion on the links,
where a pass is a fold over their indices; that the two agree (`pass_silent`) is what makes facts
about silent chains provable by induction on the links. -/

section Alone

variable {σ : Type} [FilterStage σ]

/-- A stage takes chunks in order and adds to its output. -/
def feedAlone : σ → Output → List String → σ × Output
  | stage, out, [] => (stage, out)
  | stage, out, chunk :: rest =>
    feedAlone (FilterStage.accept stage chunk).1
      ((FilterStage.accept stage chunk).2.foldl Output.perform out) rest

/-- What a stage does while it takes chunks in order. -/
def feedActions : σ → List String → List StageAction
  | _, [] => []
  | stage, chunk :: rest =>
    (FilterStage.accept stage chunk).2 ++ feedActions (FilterStage.accept stage chunk).1 rest

namespace Link

/-- The stage of a link takes chunks, and the end of its input if that has come and it was not yet
told; beside it stands what it has produced. -/
def work (upstreamEnded : Bool) (chunks : List String) (link : Link σ) : σ × Output :=
  let fed := feedAlone link.stage {} chunks
  if upstreamEnded && !link.finished then
    ((FilterStage.finish fed.1).1, (FilterStage.finish fed.1).2.foldl Output.perform fed.2)
  else fed

/-- What the stage of a link does meanwhile. -/
def actions (upstreamEnded : Bool) (chunks : List String) (link : Link σ) : List StageAction :=
  feedActions link.stage chunks ++
    if upstreamEnded && !link.finished then
      (FilterStage.finish (feedAlone link.stage {} chunks).1).2
    else []

/-- A link takes chunks and perhaps the end of its input; beside it stand the chunks it hands on. -/
def take (upstreamEnded : Bool) (chunks : List String) (link : Link σ) : Link σ × List String :=
  ({ link with
      stage := (link.work upstreamEnded chunks).1
      finished := link.finished || upstreamEnded
      ended := link.ended || (link.work upstreamEnded chunks).2.ended },
    (link.work upstreamEnded chunks).2.chunks)

end Link

/-- A row of links takes chunks, each link what the one before it hands on. Beside the links stand
the chunks of the last one, and whether that one has ended. -/
def takeRow : List (Link σ) → List String → Bool → List (Link σ) × List String × Bool
  | [], chunks, upstreamEnded => ([], chunks, upstreamEnded)
  | link :: rest, chunks, upstreamEnded =>
    let taken := link.take upstreamEnded chunks
    let row := takeRow rest taken.2 taken.1.ended
    (taken.1 :: row.1, row.2)

/-- What the stages of a row do while it takes chunks, link by link. -/
def rowActions : List (Link σ) → List String → Bool → List StageAction
  | [], _, _ => []
  | link :: rest, chunks, upstreamEnded =>
    link.actions upstreamEnded chunks ++
      rowActions rest (link.take upstreamEnded chunks).2 (link.take upstreamEnded chunks).1.ended

namespace SilentStages

variable {P : σ → Prop} (hP : SilentStages P)

include hP

/-- A stage stays among its states while it is fed, -/
theorem feedAlone {stage : σ} (h : P stage) (out : Output) (chunks : List String) :
    P (feedAlone stage out chunks).1 := by
  induction chunks generalizing stage out with
  | nil => exact h
  | cons chunk rest ih => exact ih (hP.accept_stays stage chunk h) _

/-- and when it is told that its input is over. -/
theorem work {link : Link σ} (h : P link.stage) (upstreamEnded : Bool) (chunks : List String) :
    P (link.work upstreamEnded chunks).1 := by
  rw [Link.work]
  split
  · exact hP.finish_stays _ (hP.feedAlone h _ _)
  · exact hP.feedAlone h _ _

end SilentStages

namespace InlineStages

variable {P : σ → Prop} (hP : InlineStages P)

include hP

theorem feedActions {stage : σ} (h : P stage) (chunks : List String) :
    ∀ a ∈ feedActions stage chunks, a.isInline := by
  induction chunks generalizing stage with
  | nil => exact fun a ha => absurd ha List.not_mem_nil
  | cons chunk rest ih =>
    exact List.forall_mem_append.mpr
      ⟨hP.accept_inline stage chunk h, ih (hP.accept_stays stage chunk h)⟩

theorem rowActions {links : List (Link σ)} (h : ∀ link ∈ links, P link.stage)
    (chunks : List String) (upstreamEnded : Bool) :
    ∀ a ∈ rowActions links chunks upstreamEnded, a.isInline := by
  induction links generalizing chunks upstreamEnded with
  | nil => exact fun a ha => absurd ha List.not_mem_nil
  | cons link rest ih =>
    have hstage := h link List.mem_cons_self
    refine List.forall_mem_append.mpr ⟨List.forall_mem_append.mpr ⟨?_, ?_⟩, ?_⟩
    · exact hP.feedActions hstage chunks
    · split
      · exact hP.finish_inline _ (hP.silent.feedAlone hstage {} chunks)
      · exact fun a ha => absurd ha List.not_mem_nil
    · exact ih (fun l hl => h l (List.mem_cons_of_mem _ hl)) _ _

end InlineStages

/-- A row at rest stays at rest, as nothing is sent to it. -/
theorem late_takeRow {links : List (Link σ)} (h : ∀ link ∈ links, link.late = {})
    (chunks : List String) (upstreamEnded : Bool) :
    ∀ link ∈ (takeRow links chunks upstreamEnded).1, link.late = {} := by
  induction links generalizing chunks upstreamEnded with
  | nil => exact h
  | cons link rest ih =>
    intro l hl
    rcases List.mem_cons.mp hl with rfl | hl
    · exact h link List.mem_cons_self
    · exact ih (fun l hl => h l (List.mem_cons_of_mem _ hl)) _ _ l hl

/-- Stages stay in a set of states that they never leave. -/
theorem stages_takeRow {P : σ → Prop} (hP : SilentStages P) {links : List (Link σ)}
    (h : ∀ link ∈ links, P link.stage) (chunks : List String) (upstreamEnded : Bool) :
    ∀ link ∈ (takeRow links chunks upstreamEnded).1, P link.stage := by
  induction links generalizing chunks upstreamEnded with
  | nil => exact h
  | cons link rest ih =>
    intro l hl
    rcases List.mem_cons.mp hl with rfl | hl
    · exact hP.work (h link List.mem_cons_self) upstreamEnded chunks
    · exact ih (fun l hl => h l (List.mem_cons_of_mem _ hl)) _ _ l hl

/-- Whether a row has ended is whether its last link has; a row without links ends with its input.
-/
theorem getLast?_takeRow (links : List (Link σ)) (chunks : List String) (upstreamEnded : Bool) :
    ((takeRow links chunks upstreamEnded).1.getLast?.elim upstreamEnded Link.ended) =
      (takeRow links chunks upstreamEnded).2.2 := by
  induction links generalizing chunks upstreamEnded with
  | nil => rfl
  | cons link rest ih =>
    rw [takeRow, List.getLast?_cons, ← ih]
    cases (takeRow rest (link.take upstreamEnded chunks).2
      (link.take upstreamEnded chunks).1.ended).1.getLast? <;> rfl

end Alone

namespace Chain

/-- Actions that send nothing change the output and the handles only. -/
theorem actAll_silent {id : Nat} {actions : List StageAction}
    (h : ∀ a ∈ actions, a.sends = false) (e : Effects) :
    actAll id e actions =
      { e with
        out := actions.foldl Output.perform e.out
        handles := e.handles.performAll actions } := by
  induction actions generalizing e with
  | nil => rfl
  | cons a rest ih =>
    have ha : a.sends = false := h a List.mem_cons_self
    have step : actAll id e (a :: rest) = actAll id (act id e a) rest := rfl
    rw [step, ih fun b hb => h b (List.mem_cons_of_mem _ hb)]
    cases a with
    | push | finish | release | copy => rfl
    | send => cases ha

variable {σ : Type} [FilterStage σ]

/-- Nothing has been sent that is not yet forwarded. -/
structure AtRest (c : Chain σ) : Prop where
  mailbox : c.mailbox = []
  late : ∀ link ∈ c.links, link.late = {}

/-- A chain at rest with all stages in a set of states. -/
structure Calm (P : σ → Prop) (c : Chain σ) : Prop extends AtRest c where
  stages : ∀ link ∈ c.links, P link.stage

omit [FilterStage σ] in
/-- A chain at rest has nothing late, -/
theorem AtRest.hasLate {c : Chain σ} (h : c.AtRest) : c.hasLate = false := by
  rw [Chain.hasLate, List.any_eq_false]
  intro link hlink
  simp [h.late link hlink, Output.isEmpty]

omit [FilterStage σ] in
/-- and one with nothing late is at rest if its mailbox is empty. -/
theorem atRest_of_hasLate {c : Chain σ} (hmailbox : c.mailbox = []) (hlate : c.hasLate = false) :
    c.AtRest := by
  refine ⟨hmailbox, ?_⟩
  intro link hlink
  rw [Chain.hasLate, List.any_eq_false] at hlate
  have hempty := hlate link hlink
  rw [Bool.not_eq_true', Bool.not_eq_false] at hempty
  exact (Output.isEmpty_iff link.late).mp hempty

/-- A new chain is at rest. -/
theorem ofStages_calm {P : σ → Prop} {stages : List σ} (h : ∀ stage ∈ stages, P stage)
    (kept : Handles) : (ofStages kept stages).1.Calm P := by
  refine ⟨⟨rfl, ?_⟩, ?_⟩
  · intro link hlink
    obtain ⟨stage, -, rfl⟩ := List.mem_map.mp hlink
    rfl
  · intro link hlink
    obtain ⟨stage, hstage, rfl⟩ := List.mem_map.mp hlink
    exact h stage hstage

/-- A chain has ended if the row it has taken has. -/
theorem isEnded_takeRow (c : Chain σ) (chunks : List String) (handlesDropped : Bool) :
    isEnded { c with links := (takeRow c.links chunks c.inputEnded).1, handlesDropped } =
      (takeRow c.links chunks c.inputEnded).2.2 := by
  rw [isEnded, ← getLast?_takeRow]
  cases (takeRow c.links chunks c.inputEnded).1.getLast? <;> rfl

section Silent

variable {P : σ → Prop} (hP : SilentStages P)

include hP

/-- Feeding a silent stage, with its effects apart: the output is that of the stage alone, the
mailbox stays as it is, and the handles are those that its actions leave. -/
theorem feed_silent (id : Nat) {stage : σ} (hstage : P stage) (e : Effects)
    (chunks : List String) :
    feed id stage e chunks =
      ((feedAlone stage e.out chunks).1,
        { e with
          out := (feedAlone stage e.out chunks).2
          handles := e.handles.performAll (feedActions stage chunks) }) := by
  induction chunks generalizing stage e with
  | nil => rfl
  | cons chunk rest ih =>
    rw [feed_cons, actAll_silent (hP.accept_silent stage chunk hstage),
      ih (hP.accept_stays stage chunk hstage), feedActions, Handles.performAll_append]
    rfl

/-- The same for a run of the stage, the end of its input included. -/
theorem runStage_silent (id : Nat) (upstreamEnded : Bool) {link : Link σ} (hstage : P link.stage)
    (chunks : List String) (mailbox : List (Nat × LateOutput)) (handles : Handles) :
    runStage id upstreamEnded link chunks { out := {}, mailbox, handles } =
      ({ link with
          stage := (link.work upstreamEnded chunks).1
          finished := link.finished || upstreamEnded },
        { out := (link.work upstreamEnded chunks).2
          mailbox
          handles := handles.performAll (link.actions upstreamEnded chunks) }) := by
  obtain ⟨stage, finished, ended, late⟩ := link
  have hfinish := hP.finish_silent _ (hP.feedAlone hstage {} chunks)
  cases upstreamEnded <;> cases finished <;>
    simp [runStage, feed_silent hP id hstage, Link.work, Link.actions, actAll_silent hfinish,
      Handles.performAll_append]

/-! ## A pass over a chain at rest

The induction goes over the links still to be run, with those already run in front. The
hypotheses say that nothing waits at the links to come, which every link keeps for those behind
it. -/

/-- The links from an index on run like a row, if nothing waits to be forwarded. -/
theorem foldl_runLink_atRest (todo done : List (Link σ)) (p : Passing σ) (dropped : Bool)
    (hlinks : p.chain.links = done ++ todo) (hmail : p.chain.mailbox = [])
    (hlate : ∀ link ∈ todo, link.late = {}) (hstages : ∀ link ∈ todo, P link.stage)
    (hdropped : p.chain.handlesDropped = (dropped || !p.handles.live p.chain.id)) :
    (List.range' done.length todo.length).foldl runLink p =
      { chunks := (takeRow todo p.chunks p.upstreamEnded).2.1
        upstreamEnded := (takeRow todo p.chunks p.upstreamEnded).2.2
        handles := p.handles.performAll (rowActions todo p.chunks p.upstreamEnded)
        chain := { p.chain with
          links := done ++ (takeRow todo p.chunks p.upstreamEnded).1
          handlesDropped := dropped ||
            !(p.handles.performAll (rowActions todo p.chunks p.upstreamEnded)).live
              p.chain.id } } := by
  induction todo generalizing done p with
  | nil =>
    obtain ⟨chunks, upstreamEnded, chain, handles⟩ := p
    simp only [takeRow, rowActions, Handles.performAll_nil, ← hlinks, ← hdropped]
    rfl
  | cons link rest ih =>
    have hlink : p.chain.links[done.length]? = some link := by simp [hlinks]
    have hran : ran p link =
        ({ link with
            stage := (link.work p.upstreamEnded p.chunks).1
            finished := link.finished || p.upstreamEnded },
          { out := (link.work p.upstreamEnded p.chunks).2
            mailbox := []
            handles := p.handles.performAll (link.actions p.upstreamEnded p.chunks) }) := by
      rw [ran, hlate link List.mem_cons_self, hmail, runStage_silent hP]
      · rw [← hlate link List.mem_cons_self]
      · exact hstages link List.mem_cons_self
    have hout : handedOn p done.length link = (link.work p.upstreamEnded p.chunks).2 := by
      simp [handedOn, hran]
    have hstep : runLink p done.length =
        { chunks := (link.take p.upstreamEnded p.chunks).2
          upstreamEnded := (link.take p.upstreamEnded p.chunks).1.ended
          handles := p.handles.performAll (link.actions p.upstreamEnded p.chunks)
          chain := { p.chain with
            links := done ++ (link.take p.upstreamEnded p.chunks).1 :: rest
            handlesDropped := dropped ||
              !(p.handles.performAll (link.actions p.upstreamEnded p.chunks)).live
                p.chain.id } } := by
      rw [runLink_of_getElem? hlink, hran, hout]
      simp [hlinks, hmail, hdropped, Handles.dropped_performAll, Link.take,
        hlate link List.mem_cons_self]
    have hdone : (done ++ [(link.take p.upstreamEnded p.chunks).1]).length = done.length + 1 := by
      simp
    rw [List.length_cons, List.range'_succ, List.foldl_cons, hstep, ← hdone, ih]
    · simp [takeRow, rowActions, Handles.performAll_append]
    · simp
    · exact hmail
    · exact fun l hl => hlate l (List.mem_cons_of_mem _ hl)
    · exact fun l hl => hstages l (List.mem_cons_of_mem _ hl)
    · rfl

/-- A pass over a chain at rest: the links take the chunks in a row, and the chain notices whether
handles are left. -/
theorem pass_silent {c : Chain σ} (h : c.Calm P) (handles : Handles) (chunks : List String) :
    c.pass handles chunks =
      { chunks := (takeRow c.links chunks c.inputEnded).2.1
        upstreamEnded := (takeRow c.links chunks c.inputEnded).2.2
        handles := handles.performAll (rowActions c.links chunks c.inputEnded)
        chain := { c with
          links := (takeRow c.links chunks c.inputEnded).1
          handlesDropped := c.handlesDropped ||
            !(handles.performAll (rowActions c.links chunks c.inputEnded)).live c.id } } := by
  have hcollect : c.collect handles =
      { c with handlesDropped := c.handlesDropped || !handles.live c.id } := by
    simp [collect, h.mailbox]
  rw [pass_eq_foldl, hcollect, List.range_eq_range']
  rw [show 0 = ([] : List (Link σ)).length from rfl,
    foldl_runLink_atRest hP c.links [] _ c.handlesDropped]
  · rfl
  · rfl
  · exact h.mailbox
  · exact h.late
  · exact h.stages
  · rfl

/-- The chain after its links have taken something in a row. -/
theorem Calm.took {c : Chain σ} (h : c.Calm P) (chunks : List String) (handlesDropped : Bool) :
    Calm P { c with links := (takeRow c.links chunks c.inputEnded).1, handlesDropped } where
  mailbox := h.mailbox
  late := late_takeRow h.late chunks c.inputEnded
  stages := stages_takeRow hP h.stages chunks c.inputEnded

/-- An operation on a chain at rest takes one pass. -/
theorem propagate_silent {c : Chain σ} (h : c.Calm P) (fuel : Nat) (handles : Handles)
    (chunks : List String) :
    c.propagate (fuel + 1) handles chunks =
      some
        { chunks := (takeRow c.links chunks c.inputEnded).2.1
          handles := handles.performAll (rowActions c.links chunks c.inputEnded)
          chain := { c with
            links := (takeRow c.links chunks c.inputEnded).1
            handlesDropped := c.handlesDropped ||
              !(handles.performAll (rowActions c.links chunks c.inputEnded)).live c.id } } := by
  simp only [propagate, pass_silent hP h, (h.took hP chunks _).hasLate]
  rfl

end Silent

/-- Inline stages leave the handles as they are. -/
theorem propagate_calm {P : σ → Prop} (hP : InlineStages P) {c : Chain σ} (h : c.Calm P)
    (fuel : Nat) (handles : Handles) (chunks : List String) :
    c.propagate (fuel + 1) handles chunks =
      some
        { chunks := (takeRow c.links chunks c.inputEnded).2.1
          handles
          chain := { c with
            links := (takeRow c.links chunks c.inputEnded).1
            handlesDropped := c.handlesDropped || !handles.live c.id } } := by
  rw [propagate_silent hP.silent h,
    Handles.performAll_inline (hP.rowActions h.stages chunks c.inputEnded)]

end Chain

end StreamingTemplate

import StreamingTemplate.Proofs.Filter.Inline

/-!
# Chains that do the same

A chain in use differs from a new one in its number, in what it knows about its handles, and in how
often it was polled. Of stages that act only inside their calls none of this shows: two chains with
the same links hand on the same chunks and keep the same links, whatever is fed to both, and a poll
of one of them hands on nothing (`Chain.Alike`).

A poll runs the row of links without input. It hands on nothing because each link has been told by
then that its input is over, if it is (`RowQuiet`).
-/

namespace StreamingTemplate

variable {σ : Type}

/-! ## Rows that have nothing to tell

A link may have ended without its input, and then the next one is told; so a row that is not told
of anything is not quiet for that alone. After each turn it is (`rowQuiet_takeRow`). -/

/-- Each link has been told that its input is over, if it is. -/
def RowQuiet : Bool → List (Link σ) → Prop
  | _, [] => True
  | upstreamEnded, link :: rest =>
    (upstreamEnded = true → link.finished = true) ∧ RowQuiet link.ended rest

/-- Links that are not told of an end have nothing to pass on. -/
theorem rowQuiet_new {links : List (Link σ)} (h : ∀ link ∈ links, link.ended = false) :
    RowQuiet false links := by
  induction links with
  | nil => trivial
  | cons link rest ih =>
    refine ⟨nofun, ?_⟩
    rw [h link List.mem_cons_self]
    exact ih fun l hl => h l (List.mem_cons_of_mem _ hl)

variable [FilterStage σ]

theorem rowQuiet_takeRow (links : List (Link σ)) (chunks : List String) (upstreamEnded : Bool) :
    RowQuiet upstreamEnded (takeRow links chunks upstreamEnded).1 := by
  induction links generalizing chunks upstreamEnded with
  | nil => trivial
  | cons link rest ih =>
    refine ⟨?_, ih _ _⟩
    rintro rfl
    exact Bool.or_true _

/-- A quiet row that takes nothing stays as it is and hands on nothing. -/
theorem takeRow_of_quiet {links : List (Link σ)} {upstreamEnded : Bool}
    (h : RowQuiet upstreamEnded links) :
    (takeRow links [] upstreamEnded).1 = links ∧ (takeRow links [] upstreamEnded).2.1 = [] := by
  induction links generalizing upstreamEnded with
  | nil => exact ⟨rfl, rfl⟩
  | cons link rest ih =>
    obtain ⟨htold, hrest⟩ := h
    have htake : link.take upstreamEnded [] = (link, []) := by
      -- a link that takes no chunk and is not told of the end leaves its stage alone
      obtain ⟨stage, finished, ended, late⟩ := link
      cases upstreamEnded with
      | false => simp [Link.take, Link.work, feedAlone]
      | true =>
        obtain rfl : finished = true := htold rfl
        simp [Link.take, Link.work, feedAlone]
    obtain ⟨hlinks, hchunks⟩ := ih hrest
    simp only [takeRow, htake, hlinks, hchunks, and_self]

/-! ## Rows that end with their input

Stages that signal their end when they are told of the end of their input pass it on down the
row. -/

section Ends

omit [FilterStage σ] in
theorem ended_foldl_perform {actions : List StageAction} (out : Output)
    (h : out.ended = true ∨ .finish ∈ actions) :
    (actions.foldl Output.perform out).ended = true := by
  induction actions generalizing out with
  | nil => exact h.resolve_right List.not_mem_nil
  | cons action rest ih =>
    refine ih _ ?_
    rcases h with hended | hmem
    · exact .inl (by cases action <;> simp [Output.perform, Output.push, Output.finish, hended])
    · rcases List.mem_cons.mp hmem with rfl | hmem
      · exact .inl rfl
      · exact .inr hmem

/-- Each link that was told that its input is over has signalled its end. -/
def RowPrompt (links : List (Link σ)) : Prop :=
  ∀ link ∈ links, link.finished = true → link.ended = true

/-- Stages that signal their end whenever they are told of that of their input: their row stays
prompt, and ends with its input. -/
theorem takeRow_prompt {P : σ → Prop} (hP : InlineStages P)
    (hends : ∀ stage, P stage → .finish ∈ (FilterStage.finish stage).2) {links : List (Link σ)}
    (hstages : ∀ link ∈ links, P link.stage) (h : RowPrompt links) (chunks : List String)
    (upstreamEnded : Bool) :
    RowPrompt (takeRow links chunks upstreamEnded).1 ∧
      (upstreamEnded = true → (takeRow links chunks upstreamEnded).2.2 = true) := by
  induction links generalizing chunks upstreamEnded with
  | nil => exact ⟨h, id⟩
  | cons link rest ih =>
    have htake : (link.take upstreamEnded chunks).1.finished = true →
        (link.take upstreamEnded chunks).1.ended = true := by
      intro htold
      -- a link that was told before has ended then, and stays so
      cases hfinished : link.finished with
      | true => simp [Link.take, h link List.mem_cons_self hfinished]
      | false =>
        obtain rfl : upstreamEnded = true := by simpa [Link.take, hfinished] using htold
        have hstage := hP.silent.feedAlone (hstages link List.mem_cons_self) {} chunks
        have hsignals := ended_foldl_perform (feedAlone link.stage {} chunks).2
          (.inr (hends _ hstage))
        simp [Link.take, Link.work, hfinished, hsignals]
    obtain ⟨hrest, hlast⟩ := ih (fun l hl => hstages l (List.mem_cons_of_mem _ hl))
      (fun l hl => h l (List.mem_cons_of_mem _ hl)) (link.take upstreamEnded chunks).2
      (link.take upstreamEnded chunks).1.ended
    refine ⟨List.forall_mem_cons.mpr ⟨htake, hrest⟩, fun hended => hlast (htake ?_)⟩
    simp [Link.take, hended]

end Ends

/-! ## Chains

Alike are two chains that need not have seen the same, for one of them may have been polled in
between. What both are fed from now on, they hand on alike. -/

namespace Chain

/-- Two chains at rest with the same links. -/
structure Alike (P : σ → Prop) (c d : Chain σ) : Prop where
  left : c.Calm P
  right : d.Calm P
  links : c.links = d.links
  inputEnded : c.inputEnded = d.inputEnded
  quiet : RowQuiet d.inputEnded d.links

variable {P : σ → Prop} {c d : Chain σ}

/-- What two chains with the same links are fed, they hand on alike, and are alike behind it. -/
theorem Calm.propagate_alike (hP : InlineStages P) (hc : c.Calm P) (hd : d.Calm P)
    (hlinks : c.links = d.links) (hinput : c.inputEnded = d.inputEnded) (fuel fuel' : Nat)
    (handles handles' : Handles) (chunks : List String) :
    ∃ out c' d', c.propagate (fuel + 1) handles chunks = some ⟨out, c', handles⟩ ∧
      d.propagate (fuel' + 1) handles' chunks = some ⟨out, d', handles'⟩ ∧ c'.Alike P d' := by
  have hran := propagate_calm hP hc fuel handles chunks
  have htook := hc.took hP.silent chunks (c.handlesDropped || !handles.live c.id)
  rw [hlinks, hinput] at hran htook
  exact ⟨_, _, _, hran, propagate_calm hP hd fuel' handles' chunks, htook,
    hd.took hP.silent chunks _, rfl, rfl, rowQuiet_takeRow d.links chunks d.inputEnded⟩

/-- Two new chains of the same stages. -/
theorem ofStages_alike {stages : List σ} (h : ∀ stage ∈ stages, P stage)
    (kept kept' : Handles) : (ofStages kept stages).1.Alike P (ofStages kept' stages).1 := by
  have hended : ∀ link ∈ stages.map fun stage => ({ stage } : Link σ), link.ended = false := by
    simp
  exact ⟨ofStages_calm h kept, ofStages_calm h kept', rfl, rfl, rowQuiet_new hended⟩

namespace Alike

omit [FilterStage σ] in
theorem isEnded_eq (h : c.Alike P d) : c.isEnded = d.isEnded := by
  rw [isEnded, isEnded, h.links, h.inputEnded]

theorem accept (hP : InlineStages P) (h : c.Alike P d) (fuel fuel' : Nat)
    (handles handles' : Handles) (chunk : String) :
    ∃ out c' d', c.accept (fuel + 1) handles chunk = some ⟨out, c', handles⟩ ∧
      d.accept (fuel' + 1) handles' chunk = some ⟨out, d', handles'⟩ ∧ c'.Alike P d' :=
  h.left.propagate_alike hP h.right h.links h.inputEnded fuel fuel' handles handles' [chunk]

theorem finish (hP : InlineStages P) (h : c.Alike P d) (fuel fuel' : Nat)
    (handles handles' : Handles) :
    ∃ out c' d', c.finish (fuel + 1) handles = some ⟨out, c', handles⟩ ∧
      d.finish (fuel' + 1) handles' = some ⟨out, d', handles'⟩ ∧ c'.Alike P d' :=
  Calm.propagate_alike hP (c := { c with inputEnded := true }) (d := { d with inputEnded := true })
    ⟨⟨h.left.mailbox, h.left.late⟩, h.left.stages⟩
    ⟨⟨h.right.mailbox, h.right.late⟩, h.right.stages⟩ h.links rfl fuel fuel' handles handles' []

omit [FilterStage σ] in
/-- A chain that knows more or less about its handles is alike. -/
theorem observed (h : c.Alike P d) (handlesDropped : Bool) :
    Alike P { c with handlesDropped } d :=
  ⟨⟨⟨h.left.mailbox, h.left.late⟩, h.left.stages⟩, h.right, h.links, h.inputEnded, h.quiet⟩

/-- A poll of one of two alike chains does not show. -/
theorem poll (hP : InlineStages P) (h : c.Alike P d) (fuel : Nat) (handles : Handles) :
    ∃ c', c.poll (fuel + 1) handles = some ⟨[], c', handles⟩ ∧ c'.Alike P d := by
  have hquiet : RowQuiet c.inputEnded c.links := by
    rw [h.links, h.inputEnded]
    exact h.quiet
  obtain ⟨hlinks, hchunks⟩ := takeRow_of_quiet hquiet
  refine ⟨_, ?_, h.observed (c.handlesDropped || !handles.live c.id)⟩
  rw [Chain.poll, propagate_calm hP h.left, hlinks, hchunks]

omit [FilterStage σ] in
/-- At rest there is nothing to wait for but the end of the handles. -/
theorem waitLate (h : c.Alike P d) {handles : Handles} {c' : Chain σ}
    (hwait : c.waitLate? handles = some c') : c'.Alike P d := by
  simp only [waitLate?, h.left.mailbox] at hwait
  split at hwait
  · cases hwait
  · split at hwait
    · cases hwait
    · obtain rfl := Option.some.inj hwait
      rw [← h.left.mailbox]
      exact h.observed true

end Alike

end Chain

end StreamingTemplate

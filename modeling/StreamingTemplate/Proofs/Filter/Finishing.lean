import StreamingTemplate.Proofs.Filter.Traced
import StreamingTemplate.Filter.Text

/-!
# The discipline of the ends

Whatever is done to a chain, no stage is told twice that its input is over, and after each operation
exactly those were told whose input is over (`told_once_and_last`). Stages that keep to their ends
are told last of all, so what `wrap` puts behind its input is behind all of it.

* `step_traced`, `run_traced` — a move and a sequence of moves keep a chain traced to its deeds,
  also when an operation does not return;
* `run_answers` — what the stages have become is a function of these calls;
* `answers_wrap`, `answers_wrap_finish` — what `wrap` puts out for its calls.
-/

namespace StreamingTemplate

namespace Chain

variable {σ : Type} [FilterStage σ] {handles : Handles} {stages : List σ}
  {moves : List ChainMove} {D : List Deed}

/-! ## Moves

`Traced` ties a chain to the deeds that made it, under the moves made so far. A move that adds no
deed changes only the list of moves, and the end of the input only the flag of the chain. Both
are settled here, so that of an operation only what it passes on is left. -/

omit [FilterStage σ] in
/-- Some move is the end of the input. -/
theorem exists_finish_append (move : ChainMove) :
    (∃ fuel, .finish fuel ∈ moves ++ [move]) ↔
      (∃ fuel, .finish fuel ∈ moves) ∨ ∃ fuel, move = .finish fuel := by
  simp [exists_or, eq_comm]

/-- A move that gives the chain nothing, and does not end its input. The premise is there for
`input`, which says that the input has ended just if some move was its end. -/
theorem Traced.move {c : Chain σ} (h : Traced handles stages moves D c) (move : ChainMove)
    (hmove : ∀ fuel, move ≠ .finish fuel) : Traced handles stages (moves ++ [move]) D c where
  leads := h.leads
  input := by
    rw [h.input, exists_finish_append]
    simp [hmove]
  told := h.told
  tidy hends hmoves := h.tidy hends (List.pairwise_append.mp hmoves).1

theorem Traced.end_input {c : Chain σ} (h : Traced handles stages moves D c) (fuel : Nat) :
    Traced handles stages (moves ++ [.finish fuel]) D { c with inputEnded := true } where
  leads := ⟨h.leads.length, h.leads.link⟩
  input := by simp
  told i link hlink hfinished := by
    have hover := h.told i link hlink hfinished
    cases i with
    | zero => rfl
    | succ i => exact hover
  tidy hends hmoves :=
    have htidy := h.tidy hends (List.pairwise_append.mp hmoves).1
    ⟨htidy.late, htidy.calls⟩

end Chain

namespace Session

open Chain

variable {σ : Type} [FilterStage σ] {handles : Handles} {stages : List σ} {moves : List ChainMove}
  {D : List Deed}

theorem start_traced (handles : Handles) (stages : List σ) :
    Traced handles stages [] [] (start handles stages).chain where
  leads := ⟨rfl, fun i link link' hlink hlink' => by
    obtain rfl := Option.some.inj (hlink.symm.trans hlink')
    exact .refl i link _⟩
  input := by simp [start, ofStages]
  told i link hlink hfinished := by
    obtain ⟨stage, rfl⟩ := new_of_getElem? hlink
    cases hfinished
  tidy _ _ := by
    refine ⟨?_, ?_⟩
    · intro i link hlink hended
      obtain ⟨stage, rfl⟩ := new_of_getElem? hlink
      cases hended
    · intro i link hlink
      obtain ⟨stage, rfl⟩ := new_of_getElem? hlink
      exact ⟨[], rfl⟩

/-- Whatever an operation is part of, it keeps the chain traced. -/
theorem traced_operation {c : Chain σ} (h : Traced handles stages moves D c) (fuel : Nat)
    (kept : Handles) (chunks : List String)
    (hgiven : ChainMove.InOrder moves → chunks ≠ [] → c.inputEnded = false)
    {after : Result σ → Session σ} (hafter : ∀ r, (after r).chain = r.chain) :
    ∃ c', Traced handles stages moves (D ++ propagateDeeds fuel kept chunks c) c' ∧
      ∀ s', (c.propagate fuel kept chunks).map after = some s' → s'.chain = c' := by
  obtain ⟨c', hc', hreturned⟩ := h.propagate fuel kept chunks hgiven
  refine ⟨c', hc', ?_⟩
  intro s' hmap
  obtain ⟨r, hr, rfl⟩ := Option.map_eq_some_iff.mp hmap
  exact (hafter r).trans (hreturned r hr)

/-- **A move keeps a chain traced**, also one that does not return. -/
theorem step_traced {s : Session σ} (h : Traced handles stages moves D s.chain) (move : ChainMove) :
    ∃ c, Traced handles stages (moves ++ [move]) (D ++ s.stepDeeds move) c ∧
      ∀ s', s.step move = some s' → s'.chain = c := by
  cases move with
  | accept fuel chunk =>
    have htraced := h.move (.accept fuel chunk) (by simp)
    -- had the input ended before, the moves would be out of order with this one
    have hgiven : ChainMove.InOrder (moves ++ [.accept fuel chunk]) → [chunk] ≠ [] →
        s.chain.inputEnded = false := by
      intro hmoves _
      cases hended : s.chain.inputEnded with
      | false => rfl
      | true =>
        obtain ⟨fuel', hfinish⟩ := h.input.mp hended
        cases (List.pairwise_append.mp hmoves).2.2 _ hfinish _ List.mem_cons_self
    exact traced_operation htraced fuel s.handles [chunk] hgiven fun _ => rfl
  | finish fuel =>
    exact traced_operation (h.end_input fuel) fuel s.handles [] (by simp) fun _ => rfl
  | poll fuel =>
    exact traced_operation (h.move (.poll fuel) (by simp)) fuel s.handles [] (by simp) fun _ => rfl
  | waitLate =>
    have htraced := h.move .waitLate (by simp)
    cases hwait : s.chain.waitLate? s.handles with
    | none =>
      refine ⟨s.chain, by rwa [stepDeeds, List.append_nil], ?_⟩
      intro s' hstep
      rw [step, hwait] at hstep
      cases hstep
    | some c =>
      refine ⟨c, htraced.delay (waitLate_delays hwait), ?_⟩
      intro s' hstep
      rw [step, hwait] at hstep
      cases hstep
      rfl
  | send slot output =>
    have htraced := h.move (.send slot output) (by simp)
    obtain ⟨link, hsend, hdeeds⟩ | ⟨hsend, hdeeds⟩ := sendFrom_deeds s.handles slot output s.chain
    · refine ⟨s.chain.post link output, ?_, ?_⟩
      · rw [stepDeeds, hdeeds]
        exact htraced.delay (post_delays s.chain link output)
      · intro s' hstep
        cases hstep
        exact congrArg (Option.getD · s.chain) hsend
    · refine ⟨s.chain, ?_, ?_⟩
      · rwa [stepDeeds, hdeeds, List.append_nil]
      · intro s' hstep
        cases hstep
        exact congrArg (Option.getD · s.chain) hsend
  | release slot =>
    refine ⟨s.chain, ?_, fun s' hstep => by cases hstep; rfl⟩
    rw [stepDeeds, List.append_nil]
    exact h.move (.release slot) (by simp)
  | copy source target =>
    refine ⟨s.chain, ?_, fun s' hstep => by cases hstep; rfl⟩
    rw [stepDeeds, List.append_nil]
    exact h.move (.copy source target) (by simp)

/-- **A chain stays traced through every sequence of moves**, up to a move that does not return. -/
theorem run_traced {s : Session σ} (h : Traced handles stages moves D s.chain)
    (later : List ChainMove) :
    ∃ done c, done <+: later ∧ Traced handles stages (moves ++ done) (D ++ s.deeds later) c ∧
      ∀ s', s.run later = some s' → done = later ∧ s'.chain = c := by
  induction later generalizing s moves D with
  | nil =>
    refine ⟨[], s.chain, List.prefix_rfl, ?_, ?_⟩
    · rw [deeds, List.append_nil, List.append_nil]
      exact h
    · intro s' hrun
      cases hrun
      exact ⟨rfl, rfl⟩
  | cons move rest ih =>
    obtain ⟨c, hc, hreturned⟩ := step_traced h move
    cases hstep : s.step move with
    | none =>
      -- an operation that goes on for ever is the last move, and its deeds are those so far
      refine ⟨[move], c, by simp, ?_, ?_⟩
      · simpa [deeds, hstep] using hc
      · intro s' hrun
        rw [run, hstep] at hrun
        cases hrun
    | some s₁ =>
      obtain ⟨done, c', hdone, htraced, hall⟩ := ih (s := s₁) (hreturned s₁ hstep ▸ hc)
      refine ⟨move :: done, c', by simpa using hdone, ?_, ?_⟩
      · simpa [deeds, hstep] using htraced
      · intro s' hrun
        rw [run, hstep] at hrun
        obtain ⟨rfl, hchain⟩ := hall s' hrun
        exact ⟨rfl, hchain⟩

/-- **The stages are what their calls have made of them.** A stage answers a call by its own
state alone, so its state after any moves is that after its calls, whatever its neighbours did in
between. -/
theorem run_answers {s : Session σ} (hrun : (start handles stages).run moves = some s) (i : Nat) :
    s.chain.links[i]?.map Link.stage = stages[i]?.map fun stage =>
      (answers stage (calls i ((start handles stages).deeds moves))).1 := by
  obtain ⟨done, c, -, htraced, hreturned⟩ := run_traced (start_traced handles stages) moves
  obtain ⟨-, rfl⟩ := hreturned s hrun
  rw [List.nil_append, List.nil_append] at htraced
  cases hstage : stages[i]? with
  | none =>
    have hnone : s.chain.links[i]? = none := by
      rw [List.getElem?_eq_none_iff] at hstage ⊢
      exact htraced.length ▸ hstage
    rw [hnone]
    rfl
  | some stage =>
    obtain ⟨hlt, -⟩ := List.getElem?_eq_some_iff.mp hstage
    have hlink := List.getElem?_eq_getElem (htraced.length.symm ▸ hlt)
    rw [hlink, Option.map_some, Option.map_some, (htraced.link hstage hlink).stage]

/-- `accept`, `finish` and `poll` pass on, from the chain or from the chain with its input over. -/
theorem step_forwards {s s' : Session σ} {move : ChainMove} (hforwards : move.forwards = true)
    (hstep : s.step move = some s') :
    ∃ fuel chunks inputEnded r,
      { s.chain with inputEnded }.propagate fuel s.handles chunks = some r ∧
        s'.chain = r.chain ∧ s'.handles = r.handles := by
  cases move with
  | accept fuel chunk =>
    obtain ⟨r, hr, rfl⟩ := Option.map_eq_some_iff.mp hstep
    exact ⟨fuel, [chunk], s.chain.inputEnded, r, hr, rfl, rfl⟩
  | finish fuel =>
    obtain ⟨r, hr, rfl⟩ := Option.map_eq_some_iff.mp hstep
    exact ⟨fuel, [], true, r, hr, rfl, rfl⟩
  | poll fuel =>
    obtain ⟨r, hr, rfl⟩ := Option.map_eq_some_iff.mp hstep
    exact ⟨fuel, [], s.chain.inputEnded, r, hr, rfl, rfl⟩
  | waitLate | send | release | copy => cases hforwards

/-- An operation leaves a quiet chain. -/
theorem step_quiet {s s' : Session σ} {move : ChainMove} (hforwards : move.forwards = true)
    (hstep : s.step move = some s') : s'.chain.Quiet := by
  obtain ⟨fuel, chunks, inputEnded, r, hr, hchain, -⟩ := step_forwards hforwards hstep
  rw [hchain]
  exact propagate_quiet hr

/-- The last of a sequence of moves. -/
theorem run_concat {before : List ChainMove} {last : ChainMove} {s s' : Session σ}
    (hrun : s.run (before ++ [last]) = some s') :
    ∃ s₁, s.run before = some s₁ ∧ s₁.step last = some s' := by
  rw [run_append] at hrun
  obtain ⟨s₁, hbefore, hrun⟩ := Option.bind_eq_some_iff.mp hrun
  obtain ⟨s₂, hstep, hnil⟩ := Option.bind_eq_some_iff.mp hrun
  cases hnil
  exact ⟨s₁, hbefore, hstep⟩

end Session

namespace Chain.Traced

variable {σ : Type} [FilterStage σ] {handles : Handles} {stages : List σ}
  {moves : List ChainMove} {D : List Deed} {c : Chain σ}

/-- A stage was told once if it counts as told, and otherwise never. -/
theorem count_finish (h : Traced handles stages moves D c) {i : Nat} {link : Link σ}
    (hlink : c.links[i]? = some link) : (calls i D).count .finish = link.finished.toNat := by
  obtain ⟨hlt, -⟩ := List.getElem?_eq_some_iff.mp hlink
  have hstage := List.getElem?_eq_getElem (h.length ▸ hlt)
  have hcount := (h.link hstage hlink).finished
  rw [hcount]
  exact (Nat.zero_add _).symm

/-- In a quiet chain exactly the stages whose input is over were told. Only one direction needs
the quiet: no stage is told before its input is over, but without it one may not have been told
yet. -/
theorem finish_mem_calls (h : Traced handles stages moves D c) (hquiet : c.Quiet) {i : Nat}
    (hi : i < stages.length) : .finish ∈ calls i D ↔ c.inputOver i = true := by
  have hlt : i < c.links.length := h.length.symm ▸ hi
  have hlink := List.getElem?_eq_getElem hlt
  rw [← List.count_pos_iff, h.count_finish hlink]
  cases hfinished : c.links[i].finished with
  | true => simpa using h.told i _ hlink hfinished
  | false =>
    have hnot : c.inputOver i ≠ true := fun hover => by
      have htold := hquiet.told i _ hlt hlink hover
      rw [hfinished] at htold
      cases htold
    simpa using hnot

/-- In a quiet chain the end of a stage is known if it was signalled. -/
theorem finish_mem_produced (h : Traced handles stages moves D c) (hquiet : c.Quiet) {i : Nat}
    (hi : i < stages.length) : .finish ∈ produced i D ↔ c.inputOver (i + 1) = true := by
  have hlt : i < c.links.length := h.length.symm ▸ hi
  have hlink := List.getElem?_eq_getElem hlt
  have hlate := hquiet.late _ (List.mem_of_getElem? hlink)
  rw [← h.signalled hlink, inputOver, hlink, waiting, hquiet.mailbox, hlate]
  simp

end Chain.Traced

/-! ## What `wrap` puts out

`wrap` has its own text for each end of its input. Given how it was called, what it puts out can
be computed. -/

namespace TextFilter

variable {σ : Type} [FilterStage σ]

/-- The built-in filters as stages of another type. -/
structure Embeds (embed : TextFilter → σ) : Prop where
  accept : ∀ (filter : TextFilter) (chunk : String), FilterStage.accept (embed filter) chunk =
    (embed (FilterStage.accept filter chunk).1, (FilterStage.accept filter chunk).2)
  finish : ∀ filter : TextFilter, FilterStage.finish (embed filter) =
    (embed (FilterStage.finish filter).1, (FilterStage.finish filter).2)

theorem embeds_inl {τ : Type} [FilterStage τ] : Embeds (Sum.inl : TextFilter → TextFilter ⊕ τ) :=
  ⟨fun _ _ => rfl, fun _ => rfl⟩

theorem Embeds.answers {embed : TextFilter → σ} (h : Embeds embed) (filter : TextFilter)
    (calls : List StageCall) :
    StreamingTemplate.answers (embed filter) calls =
      (embed (StreamingTemplate.answers filter calls).1,
        (StreamingTemplate.answers filter calls).2) := by
  induction calls generalizing filter with
  | nil => rfl
  | cons call rest ih =>
    cases call with
    | accept chunk => simp [StreamingTemplate.answers, StageCall.on, h.accept, ih]
    | finish => simp [StreamingTemplate.answers, StageCall.on, h.finish, ih]

theorem answers_started (before after : String) (chunks : List String) :
    answers (TextFilter.wrap before after true) (chunks.map .accept) =
      (.wrap before after true, chunks.map .chunk) := by
  induction chunks with
  | nil => rfl
  | cons chunk rest ih =>
    simp [answers, StageCall.on, FilterStage.accept, StageAction.put?, ih]

/-- `wrap` puts its first text in front of its input. -/
theorem answers_wrap (before after : String) (chunks : List String) :
    answers (TextFilter.wrap before after false) (chunks.map .accept) =
      (.wrap before after (!chunks.isEmpty),
        if chunks = [] then [] else (before :: chunks).map .chunk) := by
  cases chunks with
  | nil => rfl
  | cons chunk rest =>
    simp [answers, StageCall.on, FilterStage.accept, StageAction.put?, answers_started]

/-- `wrap` puts its second text behind its input. No chunk is behind the end of the calls here,
since none is where the ends are kept. -/
theorem answers_wrap_finish (before after : String) (chunks : List String) :
    (answers (TextFilter.wrap before after false) (chunks.map .accept ++ [.finish])).2 =
      (before :: chunks ++ [after]).map .chunk ++ [.finish] := by
  rw [answers_append, answers_wrap]
  cases chunks <;> simp [answers, StageCall.on, FilterStage.finish, StageAction.put?]

end TextFilter

open Chain in
/-- **The discipline of the ends.** Take any stages, wired into a chain, and any sequence of
operations, waits and uses of handles, with its deeds: the stages are what their calls in it have
made of them. No stage is told twice that its input is over. Whenever
`accept`, `finish` or `poll` has returned, the first stage was told if and only if the end of the
input of the chain was signalled, and every other stage if and only if the one before it has
signalled its end, inside a call or through its handle.

If moreover no stage produces a chunk after the end it has signalled, and the chain is given none
after the end of its input, then no stage is called with a chunk after it was told. So `wrap` puts
its second text behind all its input, and not before that has ended. -/
theorem told_once_and_last {σ : Type} [FilterStage σ] {handles : Handles} {stages : List σ}
    {moves : List ChainMove} {deeds : List Deed}
    (hdeeds : (Session.start handles stages).deeds moves = deeds) :
    (∀ s, (Session.start handles stages).run moves = some s → ∀ i,
      s.chain.links[i]?.map Link.stage =
        stages[i]?.map fun stage => (answers stage (calls i deeds)).1) ∧
    (∀ i, i < stages.length → (calls i deeds).count .finish ≤ 1) ∧
    (∀ before last s, moves = before ++ [last] → last.forwards = true →
      (Session.start handles stages).run moves = some s →
      (stages ≠ [] → (.finish ∈ calls 0 deeds ↔ ∃ fuel, .finish fuel ∈ moves)) ∧
      ∀ i, i + 1 < stages.length →
        (.finish ∈ calls (i + 1) deeds ↔ .finish ∈ produced i deeds)) ∧
    (KeepsToEnd deeds → ChainMove.InOrder moves →
      (∀ i, i < stages.length → ∃ chunks : List String,
        calls i deeds = chunks.map .accept ∨ calls i deeds = chunks.map .accept ++ [.finish]) ∧
      ∀ (embed : TextFilter → σ), TextFilter.Embeds embed → ∀ i before after,
        stages[i]? = some (embed (.wrap before after false)) → ∃ chunks : List String,
          (calls i deeds = chunks.map .accept ∧
            puts i deeds = if chunks = [] then [] else (before :: chunks).map .chunk) ∨
          (calls i deeds = chunks.map .accept ++ [.finish] ∧
            puts i deeds = (before :: chunks ++ [after]).map .chunk ++ [.finish])) := by
  obtain ⟨done, c, hdone, htraced, hreturned⟩ :=
    Session.run_traced (Session.start_traced handles stages) moves
  rw [List.nil_append, List.nil_append, hdeeds] at htraced
  have hlink {i : Nat} (hi : i < stages.length) : ∃ link, c.links[i]? = some link :=
    ⟨_, List.getElem?_eq_getElem (htraced.length.symm ▸ hi)⟩
  refine ⟨?_, ?_, ?_, ?_⟩
  · intro s hrun i
    rw [← hdeeds]
    exact Session.run_answers hrun i
  · intro i hi
    obtain ⟨link, hlink⟩ := hlink hi
    rw [htraced.count_finish hlink]
    exact Bool.toNat_le link.finished
  · rintro before last s rfl hlast hrun
    obtain ⟨rfl, rfl⟩ := hreturned s hrun
    obtain ⟨s₁, -, hstep⟩ := Session.run_concat hrun
    have hquiet := Session.step_quiet hlast hstep
    refine ⟨?_, ?_⟩
    · intro hstages
      rw [htraced.finish_mem_calls hquiet (List.length_pos_iff.mpr hstages), ← htraced.input]
      rfl
    · intro i hi
      rw [htraced.finish_mem_calls hquiet hi, htraced.finish_mem_produced hquiet (by omega)]
  · intro hends hmoves
    -- the moves that were made are in order as all moves are
    have htidy := htraced.tidy hends (hmoves.sublist hdone.sublist)
    have hcalls {i : Nat} (hi : i < stages.length) : ∃ chunks : List String,
        calls i deeds = chunks.map .accept ∨
          calls i deeds = chunks.map .accept ++ [.finish] := by
      obtain ⟨link, hlink⟩ := hlink hi
      obtain ⟨chunks, hcalls⟩ := htidy.calls i link hlink
      cases hfinished : link.finished with
      | false => exact ⟨chunks, .inl (by simpa [hfinished] using hcalls)⟩
      | true => exact ⟨chunks, .inr (by simpa [hfinished] using hcalls)⟩
    refine ⟨fun i hi => hcalls hi, ?_⟩
    intro embed hembed i before after hstage
    obtain ⟨hi, -⟩ := List.getElem?_eq_some_iff.mp hstage
    obtain ⟨link, hlink⟩ := hlink hi
    have hputs := (htraced.link hstage hlink).puts
    obtain ⟨chunks, hopen | hover⟩ := hcalls hi
    · refine ⟨chunks, .inl ⟨hopen, ?_⟩⟩
      rw [hputs, hopen, hembed.answers, TextFilter.answers_wrap]
    · refine ⟨chunks, .inr ⟨hover, ?_⟩⟩
      rw [hputs, hover, hembed.answers, TextFilter.answers_wrap_finish]

/-- A stage that passes everything on and leaves it to others to end it, in front of `wrap`. -/
def openWrap : List (TextFilter ⊕ ScriptedStage) :=
  [.inr { script := { accept := [.echo], finish := [], keep := some "up" }, args := [] },
    .inl (.wrap "<" ">" false)]

/-- The first stage gets a chunk from its handle before the end of its input, another one behind it,
and is ended last. -/
def openWrapMoves : List ChainMove :=
  [.accept 1 "a", .send "up" (.chunk "b"), .finish 1, .send "up" (.chunk "c"), .waitLate,
    .send "up" .finish] ++ [.poll 1]

/-- What happens then. -/
def openWrapDeeds : List Chain.Deed :=
  [.call 0 (.accept "a"), .put 0 (.chunk "a"), .call 1 (.accept "a"), .put 1 (.chunk "<"),
    .put 1 (.chunk "a"), .sent 0 (.chunk "b"), .call 0 .finish, .call 1 (.accept "b"),
    .put 1 (.chunk "b"), .sent 0 (.chunk "c"), .sent 0 .finish, .call 1 (.accept "c"),
    .put 1 (.chunk "c"), .call 1 .finish, .put 1 (.chunk ">"), .put 1 .finish]

open Chain in
theorem told_once_and_last_open :
    (Session.start {} openWrap).deeds openWrapMoves = openWrapDeeds ∧
    (∃ s, (Session.start {} openWrap).run openWrapMoves = some s ∧
      s.chain.links[1]?.map Link.stage =
        openWrap[1]?.map fun stage => (answers stage (calls 1 openWrapDeeds)).1) ∧
    (calls 1 openWrapDeeds).count .finish ≤ 1 ∧
    (.finish ∈ calls 0 openWrapDeeds ↔ ∃ fuel, .finish fuel ∈ openWrapMoves) ∧
    (.finish ∈ calls 1 openWrapDeeds ↔ .finish ∈ produced 0 openWrapDeeds) ∧
    ∃ chunks : List String,
      (calls 1 openWrapDeeds = chunks.map .accept ∧
        puts 1 openWrapDeeds = if chunks = [] then [] else ("<" :: chunks).map .chunk) ∨
      (calls 1 openWrapDeeds = chunks.map .accept ++ [.finish] ∧
        puts 1 openWrapDeeds = ("<" :: chunks ++ [">"]).map .chunk ++ [.finish]) := by
  have hdeeds : (Session.start {} openWrap).deeds openWrapMoves = openWrapDeeds := rfl
  have hreturns : ((Session.start {} openWrap).run openWrapMoves).isSome = true := rfl
  obtain ⟨s, hrun⟩ := Option.isSome_iff_exists.mp hreturns
  have hends : KeepsToEnd openWrapDeeds := by
    intro i
    match i with
    | 0 => decide
    | 1 => decide
    | i + 2 => exact .nil
  obtain ⟨hstages, honce, htold, hlast⟩ := told_once_and_last hdeeds
  obtain ⟨hfirst, hothers⟩ := htold _ _ s rfl rfl hrun
  obtain ⟨-, hwrap⟩ := hlast hends (by decide)
  exact ⟨hdeeds, ⟨s, hrun, hstages s hrun 1⟩, honce 1 (by decide), hfirst (by decide),
    hothers 0 (by decide), hwrap .inl TextFilter.embeds_inl 1 "<" ">" rfl⟩

end StreamingTemplate

import StreamingTemplate.Proofs.Filter.Deeds
import StreamingTemplate.Proofs.Filter.Quiet

/-!
# Ends on their way through a chain

What a link knows of ends, whether its stage was told of the end of its input and whether that stage
has signalled its own, can be traced to the deeds of the chain at every moment of a pass: an end
that was signalled is known or waits with the late output, and a stage that counts as told was told
once.

As long as the stages produce nothing after their ends (`KeepsToEnd`), no chunk is behind an end
either: none waits at a link whose end is known, and none comes to a stage that was told (`Tidy`,
`Midway.chunks`).

* `Evolves`, `Leads` — what deeds do to a link and to a chain, one after the other;
* `runLink_leads`, `Delays.leads` — running a link, and everything that only makes output wait;
* `Traced.delay`, `Midway.runLink`, `Traced.pass`, `Traced.propagate` — a chain stays traced through
  what waits, a link, a pass and an operation.
-/

namespace StreamingTemplate

namespace Chain

variable {σ : Type} [FilterStage σ]

/-! ## What deeds do to a link

`Evolves` follows one link through deeds: its stage, what counts as told, what is known of its
end, and what waits at it. The output that waits is a parameter of its own, as it may be in the
link or in the mailbox. It is reflexive and composes, so a pass is followed link by link
(`Leads`). -/

omit [FilterStage σ] in
/-- What a link has not yet forwarded: its late output, and behind it what the mailbox has for it.
-/
def waiting (i : Nat) (mailbox : List (Nat × LateOutput)) (link : Link σ) : Output :=
  link.late.absorb (lateFor i mailbox)

/-- What deeds do to the link at a position and to the output that waits there. -/
structure Evolves (i : Nat) (D : List Deed) (link : Link σ) (before : Output) (link' : Link σ)
    (after : Output) : Prop where
  /-- the stage is what its calls make of it -/
  stage : link'.stage = (answers link.stage (calls i D)).1
  /-- it has put out what it answers to its calls -/
  puts : Chain.puts i D = (answers link.stage (calls i D)).2
  /-- it counts as told once for each time it was told -/
  finished : link'.finished.toNat = link.finished.toNat + (calls i D).count .finish
  /-- an end that was signalled is known or waits -/
  ended : (link'.ended || after.ended) = true ↔
    (link.ended || before.ended) = true ∨ .finish ∈ produced i D
  /-- no chunk waits that was not produced -/
  late : before.chunks = [] → (∀ output ∈ produced i D, output = .finish) → after.chunks = []

namespace Evolves

variable {i : Nat} {D D' : List Deed} {link link' link'' : Link σ} {before between after : Output}

/-- Without deeds a link stays as it is. -/
theorem refl (i : Nat) (link : Link σ) (out : Output) : Evolves i [] link out link out where
  stage := rfl
  puts := rfl
  finished := by simp
  ended := by simp
  late h _ := h

/-- Deeds in two parts take a link from one state to the next. The counts of being told add up,
and so do the ends that were signalled. -/
theorem trans (h : Evolves i D link before link' between)
    (h' : Evolves i D' link' between link'' after) :
    Evolves i (D ++ D') link before link'' after where
  stage := by rw [h'.stage, h.stage, calls_append, answers_append]
  puts := by rw [puts_append, h.puts, h'.puts, h.stage, calls_append, answers_append]
  finished := by rw [h'.finished, h.finished, calls_append, List.count_append, Nat.add_assoc]
  ended := by rw [h'.ended, h.ended, produced_append, List.mem_append, or_assoc]
  late hempty hends := by
    simp only [produced_append, List.mem_append] at hends
    exact h'.late (h.late hempty fun o ho => hends o (.inl ho)) fun o ho => hends o (.inr ho)

/-- What is sent through the handle of a stage waits. -/
theorem of_sends (hcalls : calls i D = []) (hputs : Chain.puts i D = []) (link : Link σ)
    (late out : Output) :
    Evolves i D link out { link with late } (out.absorb (outputOf (sends i D))) where
  stage := by rw [hcalls]; rfl
  puts := by rw [hcalls, hputs]; rfl
  finished := by simp [hcalls]
  ended := by simp [mem_produced, hputs, ended_outputOf, or_assoc]
  late hempty hends := by simp [hempty, chunks_sends hends]

end Evolves

/-- What deeds do to a chain. -/
structure Leads (D : List Deed) (c c' : Chain σ) : Prop where
  length : c'.links.length = c.links.length
  link : ∀ i link link', c.links[i]? = some link → c'.links[i]? = some link' →
    Evolves i D link (waiting i c.mailbox link) link' (waiting i c'.mailbox link')

omit [FilterStage σ] in
/-- A link is told once: not again if it was told, and otherwise as soon as the end has come. -/
theorem count_due (link : Link σ) (upstreamEnded : Bool) (chunks : List String) :
    link.finished.toNat + (due link upstreamEnded chunks).count .finish =
      (link.finished || upstreamEnded).toNat := by
  have hchunks : (chunks.map StageCall.accept).count .finish = 0 := by
    simp [List.count_eq_zero]
  rw [due, List.count_append, hchunks]
  cases link.finished <;> cases upstreamEnded <;> simp

/-- **Running a link** forwards all that it has. -/
theorem ran_evolves {p : Passing σ} {k : Nat} {link : Link σ}
    (hlink : p.chain.links[k]? = some link) :
    Evolves k (runLinkDeeds p k) link (waiting k p.chain.mailbox link)
      { (ran p link).1 with ended := link.ended || (handedOn p k link).ended, late := {} } {} := by
  have hdeeds := ran_accounted hlink
  have hcalls := hdeeds.calls k
  have hputs := hdeeds.puts k
  rw [if_pos rfl] at hcalls hputs
  refine ⟨?_, ?_, ?_, ?_, fun _ _ => rfl⟩
  · rw [hcalls, ran_eq]
  · rw [hcalls, hputs]
  · rw [hcalls, count_due, ran_eq]
  · -- the end was late, or the stage signals it now, inside a call or through its handle
    have hhanded : (handedOn p k link).ended = true ↔
        (waiting k p.chain.mailbox link).ended = true ∨
          .finish ∈ produced k (runLinkDeeds p k) := by
      rw [mem_produced, hputs, ← ended_outputOf, ← ended_outputOf]
      simp [handedOn, hdeeds.out, hdeeds.late, waiting, or_assoc, or_left_comm]
    simp [hhanded, or_assoc]

/-- **Running a link** in a chain: the link itself evolves by its deeds, and the other links by
what its stage has sent to them. -/
theorem runLink_leads (p : Passing σ) {k : Nat} (hk : k < p.chain.links.length) :
    Leads (runLinkDeeds p k) p.chain (runLink p k).chain := by
  obtain ⟨ran, hran⟩ : ∃ link, p.chain.links[k]? = some link := ⟨_, List.getElem?_eq_getElem hk⟩
  have hdeeds := ran_accounted hran
  have hmailbox : (runLink p k).chain.mailbox = [] := by rw [runLink_of_getElem? hran]
  refine ⟨?_, ?_⟩
  · rw [runLink_of_getElem? hran]
    simp [length_foldl_deliver]
  · intro i link link' hlink hlink'
    rw [hmailbox]
    by_cases hik : i = k
    · subst hik
      rw [getElem?_runLink_self hlink] at hlink'
      obtain rfl := Option.some.inj hlink'
      exact ran_evolves hlink
    · -- another link only gets what is sent to it while this one runs
      rw [getElem?_runLink_of_ne hran hik, hlink] at hlink'
      obtain rfl := Option.some.inj hlink'
      have hcalls := hdeeds.calls i
      have hputs := hdeeds.puts i
      rw [if_neg hik] at hcalls hputs
      have hevolves := Evolves.of_sends hcalls hputs link
        (link.late.absorb (lateFor i (Chain.ran p ran).2.mailbox)) (waiting i p.chain.mailbox link)
      simpa [waiting, hdeeds.late, Output.absorb_assoc] using hevolves

/-- Chains are led on link by link. -/
theorem Leads.trans {D D' : List Deed} {c c' c'' : Chain σ} (h : Leads D c c')
    (h' : Leads D' c' c'') : Leads (D ++ D') c c'' where
  length := h'.length.trans h.length
  link i link link'' hlink hlink'' := by
    obtain ⟨hlt, -⟩ := List.getElem?_eq_some_iff.mp hlink
    have hlink' := List.getElem?_eq_getElem (h.length.symm ▸ hlt)
    exact (h.link i link _ hlink hlink').trans (h'.link i _ link'' hlink' hlink'')

/-! ## Output that waits

Posting, collecting and waiting move output about between the mailbox and the links. None of them
calls a stage, and what waits for a link grows only by what is sent to it. -/

/-- Deeds that call no stage change only what waits. -/
structure Delays (D : List Deed) (c c' : Chain σ) : Prop where
  calls : ∀ i, Chain.calls i D = []
  puts : ∀ i, Chain.puts i D = []
  inputEnded : c'.inputEnded = c.inputEnded
  length : c'.links.length = c.links.length
  link : ∀ i link, c.links[i]? = some link → ∃ late, c'.links[i]? = some { link with late } ∧
    late.absorb (lateFor i c'.mailbox) = (waiting i c.mailbox link).absorb (outputOf (sends i D))

namespace Delays

variable {D : List Deed} {c c' : Chain σ}

/-- Where no stage is called, links evolve by what is sent. -/
theorem leads (h : Delays D c c') : Leads D c c' where
  length := h.length
  link i link link' hlink hlink' := by
    obtain ⟨late, hlate, hwaiting⟩ := h.link i link hlink
    obtain rfl := Option.some.inj (hlate.symm.trans hlink')
    have hevolves := Evolves.of_sends (h.calls i) (h.puts i) link late (waiting i c.mailbox link)
    rwa [← hwaiting] at hevolves

omit [FilterStage σ] in
/-- The links are the same but for what is late. -/
theorem link_eq (h : Delays D c c') {i : Nat} {link' : Link σ}
    (hlink' : c'.links[i]? = some link') :
    ∃ link late, c.links[i]? = some link ∧ link' = { link with late } := by
  obtain ⟨hlt, -⟩ := List.getElem?_eq_some_iff.mp hlink'
  have hlink := List.getElem?_eq_getElem (h.length ▸ hlt)
  obtain ⟨late, hlate, -⟩ := h.link i _ hlink
  exact ⟨_, late, hlink, Option.some.inj (hlink'.symm.trans hlate)⟩

omit [FilterStage σ] in
theorem inputOver (h : Delays D c c') (i : Nat) : c'.inputOver i = c.inputOver i := by
  cases i with
  | zero => exact h.inputEnded
  | succ i =>
    rw [Chain.inputOver, Chain.inputOver]
    cases hlink : c.links[i]? with
    | none =>
      have hnone : c'.links[i]? = none := by
        rw [List.getElem?_eq_none_iff] at hlink ⊢
        exact h.length ▸ hlink
      rw [hnone]
    | some link =>
      obtain ⟨late, hlate, -⟩ := h.link i link hlink
      rw [hlate]
      rfl

omit [FilterStage σ] in
/-- Who was told does not change. -/
theorem told (h : Delays D c c') {n : Nat} (htold : c.ToldUpTo n) : c'.ToldUpTo n := by
  intro i link' hi hlink' hover
  obtain ⟨link, late, hlink, rfl⟩ := h.link_eq hlink'
  rw [h.inputOver] at hover
  exact htold i link hi hlink hover

end Delays

omit [FilterStage σ] in
/-- A collection moves output from the mailbox to the links, -/
theorem collect_delays (handles : Handles) (c : Chain σ) : Delays [] c (c.collect handles) where
  calls _ := rfl
  puts _ := rfl
  inputEnded := rfl
  length := length_collect handles c
  link i link hlink := by
    refine ⟨_, by rw [getElem?_collect, hlink, Option.map_some], ?_⟩
    simp [waiting]

omit [FilterStage σ] in
/-- waiting does the same with what it has waited for, -/
theorem waitLate_delays {handles : Handles} {c c' : Chain σ}
    (hwait : c.waitLate? handles = some c') : Delays [] c c' := by
  obtain ⟨message, rest, hmailbox, rfl⟩ | rfl := waitLate_cases hwait
  · refine ⟨fun _ => rfl, fun _ => rfl, rfl, length_deliver c.links message, ?_⟩
    intro i link hlink
    by_cases hi : message.1 = i
    · refine ⟨link.late.deliver message.2, ?_, ?_⟩
      · rw [getElem?_deliver, hlink, Option.map_some, if_pos hi]
      · rw [waiting, hmailbox, lateFor_cons, if_pos hi, Output.deliver_eq_absorb]
        simp [Output.absorb_assoc]
    · refine ⟨link.late, ?_, ?_⟩
      · rw [getElem?_deliver, hlink, Option.map_some, if_neg hi]
      · rw [waiting, hmailbox, lateFor_cons, if_neg hi]
        simp
  · exact ⟨fun _ => rfl, fun _ => rfl, rfl, rfl, fun i link hlink =>
      ⟨link.late, hlink, by simp [waiting]⟩⟩

omit [FilterStage σ] in
/-- and a send adds one message for its link. -/
theorem post_delays (c : Chain σ) (link : Nat) (output : LateOutput) :
    Delays [.sent link output] c (c.post link output) where
  calls _ := rfl
  puts _ := rfl
  inputEnded := rfl
  length := rfl
  link i l hl := by
    refine ⟨l.late, hl, ?_⟩
    rw [post, lateFor_append_sent, waiting, Output.absorb_assoc]

/-! ## The order of calls

A stage may signal its end and go on producing. Nothing can be said about the order of its calls
then, so the claims about order are made under `KeepsToEnd`, a condition on what the stages have
produced. -/

/-- After it has signalled its end, a stage produces no chunk. -/
def KeepsToEnd (D : List Deed) : Prop :=
  ∀ i, (produced i D).Pairwise fun earlier later => earlier = .finish → later = .finish

/-- What keeps to its ends has done so from the start, -/
theorem KeepsToEnd.of_append {D D' : List Deed} (h : KeepsToEnd (D ++ D')) : KeepsToEnd D := by
  intro i
  have hi := h i
  rw [produced_append, List.pairwise_append] at hi
  exact hi.1

/-- and behind an end that was signalled there is nothing but ends. -/
theorem KeepsToEnd.later {D D' : List Deed} (h : KeepsToEnd (D ++ D')) {i : Nat}
    (hended : .finish ∈ produced i D) : ∀ output ∈ produced i D', output = .finish := by
  intro output houtput
  have hi := h i
  rw [produced_append, List.pairwise_append] at hi
  exact hi.2.2 .finish hended output houtput rfl

/-- The links of a chain whose stages keep to their ends. -/
structure Tidy (D : List Deed) (c : Chain σ) : Prop where
  /-- no chunk waits behind a known end -/
  late : ∀ i link, c.links[i]? = some link → link.ended = true →
    (waiting i c.mailbox link).chunks = []
  /-- a stage was told of the end of its input behind all its chunks -/
  calls : ∀ i link, c.links[i]? = some link → ∃ chunks : List String,
    Chain.calls i D = chunks.map .accept ++ if link.finished then [.finish] else []

end Chain

/-! ## The order of moves

The holder of a chain can break the order as well, by giving it a chunk after the end of its
input. -/

/-- Whether a chain that a move was made with may still make another one: it is given no chunk after
the end of its input. -/
def ChainMove.mayPrecede : ChainMove → ChainMove → Bool
  | .finish _, .accept .. => false
  | _, _ => true

/-- No chunk is given to a chain after the end of its input. -/
def ChainMove.InOrder (moves : List ChainMove) : Prop :=
  moves.Pairwise fun earlier later => earlier.mayPrecede later = true

instance : DecidablePred ChainMove.InOrder :=
  fun moves => inferInstanceAs (Decidable (moves.Pairwise _))

namespace Chain

variable {σ : Type} [FilterStage σ]

/-- What the moves so far and their deeds say about a chain of new stages. -/
structure Traced (handles : Handles) (stages : List σ) (moves : List ChainMove) (D : List Deed)
    (c : Chain σ) : Prop where
  leads : Leads D (ofStages handles stages).1 c
  input : c.inputEnded = true ↔ ∃ fuel, .finish fuel ∈ moves
  told : ∀ i link, c.links[i]? = some link → link.finished = true → c.inputOver i = true
  tidy : KeepsToEnd D → ChainMove.InOrder moves → Tidy D c

theorem getElem?_ofStages (handles : Handles) (stages : List σ) (i : Nat) :
    (ofStages handles stages).1.links[i]? = stages[i]?.map fun stage => { stage } := by
  simp [ofStages]

/-- The links of a chain that was not yet used know nothing. -/
theorem new_of_getElem? {handles : Handles} {stages : List σ} {i : Nat} {link : Link σ}
    (hlink : (ofStages handles stages).1.links[i]? = some link) :
    ∃ stage, link = { stage } := by
  rw [getElem?_ofStages] at hlink
  obtain ⟨stage, -, rfl⟩ := Option.map_eq_some_iff.mp hlink
  exact ⟨stage, rfl⟩

namespace Traced

variable {handles : Handles} {stages : List σ} {moves : List ChainMove} {D D' : List Deed}
  {c c' : Chain σ}

/-- What the deeds have made of the stage at a position. -/
theorem link (h : Traced handles stages moves D c) {i : Nat} {stage : σ} {link : Link σ}
    (hstage : stages[i]? = some stage) (hlink : c.links[i]? = some link) :
    Evolves i D { stage } {} link (waiting i c.mailbox link) := by
  have hnew : (ofStages handles stages).1.links[i]? = some { stage } := by
    rw [getElem?_ofStages, hstage]
    rfl
  exact h.leads.link i _ link hnew hlink

theorem length (h : Traced handles stages moves D c) : c.links.length = stages.length := by
  rw [h.leads.length]
  simp [ofStages]

/-- An end that a link knows or that waits there was signalled, and no other. -/
theorem signalled (h : Traced handles stages moves D c) {i : Nat} {link : Link σ}
    (hlink : c.links[i]? = some link) :
    (link.ended || (waiting i c.mailbox link).ended) = true ↔ .finish ∈ produced i D := by
  obtain ⟨hlt, -⟩ := List.getElem?_eq_some_iff.mp hlink
  have hstage := List.getElem?_eq_getElem (h.length ▸ hlt)
  rw [(h.link hstage hlink).ended]
  simp

/-- A known end was signalled. -/
theorem ended (h : Traced handles stages moves D c) {i : Nat} {link : Link σ}
    (hlink : c.links[i]? = some link) (hended : link.ended = true) : .finish ∈ produced i D :=
  (h.signalled hlink).mp (by rw [hended]; rfl)

/-- A chain stays traced when output is moved about: what is known of ends counts the output that
waits. -/
theorem delay (h : Traced handles stages moves D c) (hdelays : Delays D' c c') :
    Traced handles stages moves (D ++ D') c' where
  leads := h.leads.trans hdelays.leads
  input := hdelays.inputEnded ▸ h.input
  told i link' hlink' hfinished := by
    obtain ⟨link, late, hlink, rfl⟩ := hdelays.link_eq hlink'
    exact (hdelays.inputOver i).trans (h.told i link hlink hfinished)
  tidy hends hmoves := by
    have htidy := h.tidy hends.of_append hmoves
    refine ⟨?_, ?_⟩
    · intro i link' hlink' hended
      obtain ⟨link, late, hlink, rfl⟩ := hdelays.link_eq hlink'
      exact (hdelays.leads.link i link _ hlink hlink').late (htidy.late i link hlink hended)
        (hends.later (h.ended hlink hended))
    · intro i link' hlink'
      obtain ⟨link, late, hlink, rfl⟩ := hdelays.link_eq hlink'
      obtain ⟨chunks, hcalls⟩ := htidy.calls i link hlink
      exact ⟨chunks, by rw [calls_append, hdelays.calls, List.append_nil, hcalls]⟩

end Traced

/-! ## A pass

In the middle of a pass some links have run and some have not, and the end that the next link
will hear of is that of the one before it. `Midway` is `Traced` with this and with the chunks
that are on their way. -/

/-- A traced chain in the middle of a pass that has come to a position. -/
structure Midway (handles : Handles) (stages : List σ) (moves : List ChainMove) (D : List Deed)
    (k : Nat) (p : Passing σ) : Prop where
  traced : Traced handles stages moves D p.chain
  upstream : p.upstreamEnded = p.chain.inputOver k
  /-- no chunk comes to a stage that was told that its input is over -/
  chunks : KeepsToEnd D → ChainMove.InOrder moves → p.chunks ≠ [] →
    ∀ link, p.chain.links[k]? = some link → link.finished = false

section RunLink

variable {p : Passing σ} {k : Nat} {ran : Link σ}

/-- The input of a link stays over. -/
theorem inputOver_runLink (hran : p.chain.links[k]? = some ran) {i : Nat}
    (hover : p.chain.inputOver i = true) : (runLink p k).chain.inputOver i = true := by
  cases i with
  | zero =>
    rw [runLink_of_getElem? hran]
    exact hover
  | succ i =>
    by_cases hik : i = k
    · subst hik
      rw [inputOver, hran] at hover
      rw [inputOver, getElem?_runLink_self hran]
      exact (Bool.or_eq_true _ _).mpr (.inl hover)
    · rw [inputOver] at hover
      rw [inputOver, getElem?_runLink_of_ne hran hik]
      cases hlink : p.chain.links[i]? with
      | none => rwa [hlink] at hover
      | some link => rwa [hlink] at hover

/-- With no chunk waiting and none produced, no chunk is handed on. -/
theorem chunks_runLink (hran : p.chain.links[k]? = some ran)
    (hempty : (waiting k p.chain.mailbox ran).chunks = [])
    (hends : ∀ output ∈ produced k (runLinkDeeds p k), output = .finish) :
    (runLink p k).chunks = [] := by
  have hdeeds := ran_accounted hran
  have hputs := hdeeds.puts k
  rw [if_pos rfl] at hputs
  rw [waiting, Output.chunks_absorb, List.append_eq_nil_iff] at hempty
  rw [runLink_of_getElem? hran, handedOn, hdeeds.out, hdeeds.late, ← hputs]
  simp [hempty, chunks_puts hends, chunks_sends hends]

/-- A link after one has run: it is the same but for what is late, or it is the one that has run. -/
theorem runLink_cases (hran : p.chain.links[k]? = some ran) {i : Nat} {link' : Link σ}
    (hlink' : (runLink p k).chain.links[i]? = some link') :
    (i = k ∧ link'.finished = (ran.finished || p.upstreamEnded) ∧ link'.late = {}) ∨
    (i ≠ k ∧ ∃ link late, p.chain.links[i]? = some link ∧ link' = { link with late }) := by
  by_cases hik : i = k
  · subst hik
    rw [getElem?_runLink_self hran] at hlink'
    obtain rfl := Option.some.inj hlink'
    exact .inl ⟨rfl, (runStage_link _ _ _ _ _).2.2, rfl⟩
  · rw [getElem?_runLink_of_ne hran hik] at hlink'
    obtain ⟨link, hlink, rfl⟩ := Option.map_eq_some_iff.mp hlink'
    exact .inr ⟨hik, link, _, hlink, rfl⟩

end RunLink

variable {handles : Handles} {stages : List σ} {moves : List ChainMove} {D : List Deed}

/-- A link with chunks due was not told before, and is told behind them. -/
theorem Midway.calls_due {p : Passing σ} {k : Nat} {ran : Link σ}
    (h : Midway handles stages moves D k p) (hran : p.chain.links[k]? = some ran)
    (hends : KeepsToEnd D) (hmoves : ChainMove.InOrder moves) :
    ∃ chunks : List String, calls k D ++ due ran p.upstreamEnded p.chunks =
      chunks.map .accept ++ if ran.finished || p.upstreamEnded then [.finish] else [] := by
  obtain ⟨chunks, hcalls⟩ := (h.traced.tidy hends hmoves).calls k ran hran
  cases hfinished : ran.finished with
  | true =>
    -- nothing comes to a stage that was told, so nothing is due
    have hnone : p.chunks = [] := by
      cases hchunks : p.chunks with
      | nil => rfl
      | cons chunk rest =>
        have hopen := h.chunks hends hmoves (by simp [hchunks]) ran hran
        rw [hfinished] at hopen
        cases hopen
    exact ⟨chunks, by simp [hcalls, due, hfinished, hnone]⟩
  | false => exact ⟨chunks ++ p.chunks, by simp [hcalls, due, hfinished]⟩

/-- The links stay tidy when one has run: it was told behind all its chunks, and what it has
produced reaches only links whose end is not known. -/
theorem Midway.tidy {p : Passing σ} {k : Nat} {ran : Link σ}
    (h : Midway handles stages moves D k p) (hran : p.chain.links[k]? = some ran)
    (hends : KeepsToEnd (D ++ runLinkDeeds p k)) (hmoves : ChainMove.InOrder moves) :
    Tidy (D ++ runLinkDeeds p k) (runLink p k).chain := by
  obtain ⟨hk, -⟩ := List.getElem?_eq_some_iff.mp hran
  have htidy := h.traced.tidy hends.of_append hmoves
  refine ⟨?_, ?_⟩
  · intro i link' hlink' hended
    obtain ⟨-, -, hlate⟩ | ⟨-, link, late, hlink, rfl⟩ := runLink_cases hran hlink'
    · rw [waiting, hlate, runLink_of_getElem? hran]
      rfl
    · exact ((runLink_leads p hk).link i link _ hlink hlink').late
        (htidy.late i link hlink hended) (hends.later (h.traced.ended hlink hended))
  · intro i link' hlink'
    rw [calls_append, (ran_accounted hran).calls]
    obtain ⟨rfl, htold, -⟩ | ⟨hik, link, late, hlink, rfl⟩ := runLink_cases hran hlink'
    · rw [if_pos rfl, htold]
      exact h.calls_due hran hends.of_append hmoves
    · rw [if_neg hik, List.append_nil]
      exact htidy.calls i link hlink

/-- A stage that was told gets nothing more: the end of the link in front of it is known, and
nothing comes from there. -/
theorem Midway.halts {p : Passing σ} {k : Nat} {ran link' : Link σ}
    (h : Midway handles stages moves D k p) (hran : p.chain.links[k]? = some ran)
    (hends : KeepsToEnd (D ++ runLinkDeeds p k)) (hmoves : ChainMove.InOrder moves)
    (hlink' : (runLink p k).chain.links[k + 1]? = some link')
    (hfinished : link'.finished = true) : (runLink p k).chunks = [] := by
  obtain ⟨hk, -⟩ | ⟨-, link, late, hlink, rfl⟩ := runLink_cases hran hlink'
  · exact absurd hk (Nat.succ_ne_self k)
  · have hended := h.traced.told (k + 1) link hlink hfinished
    rw [inputOver, hran] at hended
    exact chunks_runLink hran ((h.traced.tidy hends.of_append hmoves).late k ran hran hended)
      (hends.later (h.traced.ended hran hended))

/-- **One link of a pass.** The chain stays traced by the deeds of the link, and the pass comes
to the next one. -/
theorem Midway.runLink {p : Passing σ} {k : Nat} (h : Midway handles stages moves D k p)
    (hk : k < p.chain.links.length) :
    Midway handles stages moves (D ++ runLinkDeeds p k) (k + 1) (Chain.runLink p k) := by
  obtain ⟨ran, hran⟩ : ∃ link, p.chain.links[k]? = some link := ⟨_, List.getElem?_eq_getElem hk⟩
  refine ⟨⟨h.traced.leads.trans (runLink_leads p hk), ?_, ?_, h.tidy hran⟩, ?_, ?_⟩
  · rw [runLink_of_getElem? hran]
    exact h.traced.input
  · intro i link' hlink' hfinished
    apply inputOver_runLink hran
    obtain ⟨rfl, htold, -⟩ | ⟨-, link, late, hlink, rfl⟩ := runLink_cases hran hlink'
    · rw [htold, Bool.or_eq_true, h.upstream] at hfinished
      obtain hfinished | hover := hfinished
      · exact h.traced.told i ran hran hfinished
      · exact hover
    · exact h.traced.told i link hlink hfinished
  · rw [inputOver, getElem?_runLink_self hran, runLink_of_getElem? hran]
    rfl
  · intro hends hmoves hchunks link' hlink'
    cases hfinished : link'.finished with
    | false => rfl
    | true => exact absurd (h.halts hran hends hmoves hlink' hfinished) hchunks

/-- The links from position `k` on run in order. -/
theorem Midway.runLinks {p : Passing σ} {k : Nat} (m : Nat) (h : Midway handles stages moves D k p)
    (hm : k + m = p.chain.links.length) :
    Midway handles stages moves (D ++ linksDeeds p (List.range' k m)) (k + m)
      ((List.range' k m).foldl Chain.runLink p) := by
  induction m generalizing p k D with
  | zero =>
    rw [List.range'_zero, linksDeeds, List.append_nil]
    exact h
  | succ m ih =>
    have hk : k < p.chain.links.length := by omega
    rw [List.range'_succ, linksDeeds, ← List.append_assoc, List.foldl_cons,
      show k + (m + 1) = k + 1 + m by omega]
    exact ih (h.runLink hk) (by rw [(runLink_leads p hk).length]; omega)

/-- **A pass keeps a chain traced.** -/
theorem Traced.pass {c : Chain σ} (h : Traced handles stages moves D c) (kept : Handles)
    (chunks : List String)
    (hgiven : ChainMove.InOrder moves → chunks ≠ [] → c.inputEnded = false) :
    Traced handles stages moves (D ++ passDeeds kept chunks c) (c.pass kept chunks).chain := by
  have hcollected := h.delay (collect_delays kept c)
  rw [List.append_nil] at hcollected
  have hstart : Midway handles stages moves D 0
      (⟨chunks, c.inputEnded, c.collect kept, kept⟩ : Passing σ) := by
    refine ⟨hcollected, rfl, ?_⟩
    intro _ hmoves hchunks link hlink
    cases hfinished : link.finished with
    | false => rfl
    | true => exact (hcollected.told 0 link hlink hfinished).symm.trans (hgiven hmoves hchunks)
  rw [pass_eq_foldl, passDeeds, List.range_eq_range']
  exact (hstart.runLinks c.links.length (by simp)).traced

/-- **An operation keeps a chain traced**, also one that does not return. -/
theorem Traced.propagate {c : Chain σ} (h : Traced handles stages moves D c) (fuel : Nat)
    (kept : Handles) (chunks : List String)
    (hgiven : ChainMove.InOrder moves → chunks ≠ [] → c.inputEnded = false) :
    ∃ c', Traced handles stages moves (D ++ propagateDeeds fuel kept chunks c) c' ∧
      ∀ r, c.propagate fuel kept chunks = some r → r.chain = c' := by
  induction fuel generalizing c D kept chunks with
  | zero =>
    refine ⟨c, ?_, fun r hr => by cases hr⟩
    rw [propagateDeeds, List.append_nil]
    exact h
  | succ fuel ih =>
    have hpass := h.pass kept chunks hgiven
    rw [propagateDeeds, Chain.propagate]
    cases hlate : (c.pass kept chunks).chain.hasLate with
    | true =>
      -- the next pass is given no chunks, so it does not matter whether the input is over
      obtain ⟨c', htraced, hreturned⟩ := ih hpass (c.pass kept chunks).handles [] (by simp)
      refine ⟨c', ?_, ?_⟩
      · rw [if_pos rfl, ← List.append_assoc]
        exact htraced
      · intro r hr
        rw [if_pos rfl] at hr
        obtain ⟨r', hr', rfl⟩ := Option.map_eq_some_iff.mp hr
        exact hreturned r' hr'
    | false =>
      refine ⟨(c.pass kept chunks).chain, ?_, ?_⟩
      · rw [if_neg Bool.false_ne_true, List.append_nil]
        exact hpass
      · intro r hr
        rw [if_neg Bool.false_ne_true] at hr
        cases hr
        rfl

end Chain

end StreamingTemplate

import StreamingTemplate.Proofs.Filter.Delivery

/-!
# A chain computes the composition of its stages

A chain runs all its stages a little whenever a chunk comes, and tells a stage that its input is
over as soon as the one before it has ended, be the input of the chain over or not. The reference is
simpler: each stage alone takes everything that the one before it produces in all, and is then
finished (`composed`). For stages that send nothing through handles, and that keep to their end
(`Orderly`), both produce the same.

In time, a chain is a row of links in turns, and the reference is one link after the other, each
through all turns. The two orders are exchanged in two steps:

* `rowTakes_cons` — a row in turns is its first link in turns, and the rest of the row in the turns
  that this link hands on;
* `takes_closes`, `takes_total` — the turns of an orderly stage come to an end like those it takes,
  behind which it hands on nothing, and in all it hands on what it produces alone.

`rowTakes_composed` puts them together along the row, and `chain_composes` says it of a chain in
use.
-/

namespace StreamingTemplate

variable {σ : Type} [FilterStage σ]

/-! ## Stages on their own

A stage on its own is fed chunk after chunk and then finished; nothing of a chain is around it.
The lemmas say that feeding in two parts is feeding at once, and that the output of the later
part stands behind that of the earlier one (`Output.absorb`). -/

/-- What a stage alone produces when it accepts chunks in order and is then finished. -/
def alone (stage : σ) (chunks : List String) : Output :=
  (FilterStage.finish (feedAlone stage {} chunks).1).2.foldl Output.perform
    (feedAlone stage {} chunks).2

/-- What the last of some stages produces when each of them alone takes all that the one before it
produces. -/
def composed (stages : List σ) (chunks : List String) : List String :=
  stages.foldl (fun chunks stage => (alone stage chunks).chunks) chunks

/-- A stage that keeps to its end, which may come before that of its input. -/
structure Orderly (stage : σ) : Prop where
  /-- when it has been finished it has ended -/
  ends : ∀ chunks, (alone stage chunks).ended = true
  /-- once it has ended it produces nothing more -/
  quiet : ∀ chunks more, (feedAlone stage {} chunks).2.ended = true →
    (alone (feedAlone stage {} chunks).1 more).chunks = []

omit [FilterStage σ] in
/-- What a stage does to its output only adds to what is there. -/
theorem foldl_perform_absorb (actions : List StageAction) (first later : Output) :
    actions.foldl Output.perform (first.absorb later) =
      first.absorb (actions.foldl Output.perform later) := by
  induction actions generalizing later with
  | nil => rfl
  | cons action rest ih =>
    have haction : (first.absorb later).perform action = first.absorb (later.perform action) := by
      cases action <;> simp [Output.perform, Output.push, Output.finish, Output.absorb]
    rw [List.foldl_cons, haction, ih, List.foldl_cons]

/-- A stage that takes chunks puts what it produces behind what is there. -/
theorem feedAlone_absorb (stage : σ) (first later : Output) (chunks : List String) :
    feedAlone stage (first.absorb later) chunks =
      ((feedAlone stage later chunks).1, first.absorb (feedAlone stage later chunks).2) := by
  induction chunks generalizing stage later with
  | nil => rfl
  | cons chunk rest ih => rw [feedAlone, foldl_perform_absorb, ih, feedAlone]

/-- Chunks in two parts: the later ones are taken by the stage that the earlier ones have left. -/
theorem feedAlone_append (stage : σ) (chunks more : List String) :
    feedAlone stage {} (chunks ++ more) =
      ((feedAlone (feedAlone stage {} chunks).1 {} more).1,
        (feedAlone stage {} chunks).2.absorb
          (feedAlone (feedAlone stage {} chunks).1 {} more).2) := by
  have happend (stage : σ) (out : Output) : feedAlone stage out (chunks ++ more) =
      feedAlone (feedAlone stage out chunks).1 (feedAlone stage out chunks).2 more := by
    induction chunks generalizing stage out with
    | nil => rfl
    | cons chunk rest ih => exact ih _ _
  rw [happend, ← feedAlone_absorb, Output.absorb_empty]

/-- All a stage produces is what it produces for the first chunks, and what the stage that these
have left produces from there to its end. -/
theorem alone_append (stage : σ) (chunks more : List String) :
    alone stage (chunks ++ more) =
      (feedAlone stage {} chunks).2.absorb (alone (feedAlone stage {} chunks).1 more) := by
  rw [alone, feedAlone_append, foldl_perform_absorb]
  rfl

/-- What a stage produces before it is finished is a part of what it produces. -/
theorem feedAlone_eq_nil {stage : σ} {chunks : List String} (h : (alone stage chunks).chunks = []) :
    (feedAlone stage {} chunks).2.chunks = [] := by
  have hfinish := foldl_perform_absorb (FilterStage.finish (feedAlone stage {} chunks).1).2
    (feedAlone stage {} chunks).2 {}
  rw [Output.absorb_empty] at hfinish
  rw [alone, hfinish, Output.chunks_absorb] at h
  exact (List.append_eq_nil_iff.mp h).1

/-! ## Turns

What comes to a link over time is a list of turns: some chunks, and whether the input is over behind
them. -/

/-- What a link hands on in turns. -/
def Link.takes : Link σ → List (List String × Bool) → List (List String × Bool)
  | _, [] => []
  | link, (chunks, ended) :: rest =>
    ((link.take ended chunks).2, (link.take ended chunks).1.ended) ::
      (link.take ended chunks).1.takes rest

/-- What a row of links hands on in turns. -/
def rowTakes : List (Link σ) → List (List String × Bool) → List (List String × Bool)
  | _, [] => []
  | links, (chunks, ended) :: rest =>
    (takeRow links chunks ended).2 :: rowTakes (takeRow links chunks ended).1 rest

/-- The chunks of all turns. -/
def total (turns : List (List String × Bool)) : List String := turns.flatMap Prod.fst

theorem rowTakes_nil (turns : List (List String × Bool)) :
    rowTakes ([] : List (Link σ)) turns = turns := by
  induction turns with
  | nil => rfl
  | cons turn rest ih => exact congrArg (turn :: ·) ih

/-- **A row in turns is one link after the other**: the first link takes all turns, and the rest of
the row what it hands on. -/
theorem rowTakes_cons (link : Link σ) (links : List (Link σ)) (turns : List (List String × Bool)) :
    rowTakes (link :: links) turns = rowTakes links (link.takes turns) := by
  induction turns generalizing link links with
  | nil => rfl
  | cons turn rest ih => exact congrArg (_ :: ·) (ih _ _)

/-- Turns that come to an end: from some turn on the input is over, and nothing comes behind it. -/
inductive Closes : List (List String × Bool) → Prop where
  | last (chunks : List String) {later : List (List String × Bool)}
      (h : ∀ turn ∈ later, turn = ([], true)) : Closes ((chunks, true) :: later)
  | more (chunks : List String) {turns : List (List String × Bool)} (h : Closes turns) :
      Closes ((chunks, false) :: turns)

theorem total_over {turns : List (List String × Bool)} (h : ∀ turn ∈ turns, turn = ([], true)) :
    total turns = [] := by
  rw [total, List.flatMap_eq_nil_iff]
  intro turn hturn
  rw [h turn hturn]

/-- With the last turn the input is over. -/
theorem Closes.getLast? {turns : List (List String × Bool)} (h : Closes turns) :
    ∃ chunks, turns.getLast? = some (chunks, true) := by
  induction h with
  | last chunks h =>
    rw [List.getLast?_cons]
    cases hlast : List.getLast? _ with
    | none => exact ⟨chunks, rfl⟩
    | some turn => exact ⟨[], by rw [h turn (List.mem_of_getLast? hlast)]; rfl⟩
  | more chunks _ ih =>
    obtain ⟨final, hfinal⟩ := ih
    exact ⟨final, by rw [List.getLast?_cons, hfinal]; rfl⟩

/-! ## One link

A new link is `behind` the chunks that it has taken so far, and this determines it until its
input is over. Of a stage that is orderly the turns it hands on are again turns that come to an
end (`takes_closes`), and in all it hands on what it produces alone (`takes_total`). Both go by
induction on the turns, from the first to the one with which the input is over. -/

namespace Link

/-- The link of a stage that has taken chunks, and was not yet told that its input is over. -/
def behind (stage : σ) (taken : List String) : Link σ :=
  { stage := (feedAlone stage {} taken).1, ended := (feedAlone stage {} taken).2.ended }

/-- While the input goes on, a link hands on what its stage produces for the chunks of this turn. -/
theorem take_behind (stage : σ) (taken chunks : List String) :
    (behind stage taken).take false chunks =
      (behind stage (taken ++ chunks),
        (feedAlone (feedAlone stage {} taken).1 {} chunks).2.chunks) := by
  simp [take, work, behind, feedAlone_append]

/-- With the end of the input a link finishes its stage, and hands on all that is left. -/
theorem finish_behind (stage : σ) (taken chunks : List String) :
    ((behind stage taken).take true chunks).2 =
        (alone (feedAlone stage {} taken).1 chunks).chunks ∧
      ((behind stage taken).take true chunks).1.finished = true ∧
      ((behind stage taken).take true chunks).1.ended = (alone stage (taken ++ chunks)).ended := by
  rw [alone_append]
  exact ⟨rfl, rfl, rfl⟩

/-- A link that was told of the end of its input, and has ended, has nothing more to hand on. -/
theorem takes_told {link : Link σ} (htold : link.finished = true) (hended : link.ended = true)
    {turns : List (List String × Bool)} (h : ∀ turn ∈ turns, turn = ([], true)) :
    ∀ turn ∈ link.takes turns, turn = ([], true) := by
  induction turns with
  | nil => exact fun turn hturn => absurd hturn List.not_mem_nil
  | cons turn rest ih =>
    obtain rfl := h turn List.mem_cons_self
    have htake : link.take true [] = (link, []) := by
      obtain ⟨stage, finished, ended, late⟩ := link
      cases htold
      cases hended
      rfl
    rw [takes, htake]
    refine List.forall_mem_cons.mpr ⟨by rw [hended], ?_⟩
    exact ih fun t ht => h t (List.mem_cons_of_mem _ ht)

end Link

namespace Orderly

variable {stage : σ} (h : Orderly stage)

include h

/-- Behind its last chunks a stage that was finished hands on nothing. -/
theorem takes_last (taken chunks : List String) {later : List (List String × Bool)}
    (hlater : ∀ turn ∈ later, turn = ([], true)) :
    ∃ rest, (Link.behind stage taken).takes ((chunks, true) :: later) =
        ((alone (feedAlone stage {} taken).1 chunks).chunks, true) :: rest ∧
      ∀ turn ∈ rest, turn = ([], true) := by
  obtain ⟨hchunks, htold, hended⟩ := Link.finish_behind stage taken chunks
  rw [h.ends] at hended
  exact ⟨_, by rw [Link.takes, hchunks, hended], Link.takes_told htold hended hlater⟩

/-- A stage that has ended hands on nothing, while its input goes on and when that is over. -/
theorem takes_quiet {turns : List (List String × Bool)} (hturns : Closes turns)
    {taken : List String} (hended : (feedAlone stage {} taken).2.ended = true) :
    ∀ turn ∈ (Link.behind stage taken).takes turns, turn = ([], true) := by
  induction hturns generalizing taken with
  | last chunks hlater =>
    obtain ⟨rest, htakes, hrest⟩ := h.takes_last taken chunks hlater
    rw [htakes, h.quiet taken chunks hended]
    exact List.forall_mem_cons.mpr ⟨rfl, hrest⟩
  | more chunks _ ih =>
    have hended' : (feedAlone stage {} (taken ++ chunks)).2.ended = true := by
      rw [feedAlone_append, Output.ended_absorb, hended]
      rfl
    rw [Link.takes, Link.take_behind, feedAlone_eq_nil (h.quiet taken chunks hended)]
    refine List.forall_mem_cons.mpr ⟨?_, ih hended'⟩
    exact congrArg (Prod.mk []) hended'

/-- The turns of a stage come to an end if those it takes do: with them, or earlier. -/
theorem takes_closes {turns : List (List String × Bool)} (hturns : Closes turns)
    (taken : List String) : Closes ((Link.behind stage taken).takes turns) := by
  induction hturns generalizing taken with
  | last chunks hlater =>
    obtain ⟨rest, htakes, hrest⟩ := h.takes_last taken chunks hlater
    rw [htakes]
    exact .last _ hrest
  | more chunks hturns ih =>
    rw [Link.takes, Link.take_behind]
    -- the stage may end inside a chunk, before its input does
    cases hended : (Link.behind stage (taken ++ chunks)).ended with
    | true => exact .last _ (h.takes_quiet hturns hended)
    | false => exact .more _ (ih _)

/-- In all turns together a stage hands on what it produces alone. -/
theorem takes_total {turns : List (List String × Bool)} (hturns : Closes turns)
    (taken : List String) :
    (feedAlone stage {} taken).2.chunks ++ total ((Link.behind stage taken).takes turns) =
      (alone stage (taken ++ total turns)).chunks := by
  induction hturns generalizing taken with
  | last chunks hlater =>
    obtain ⟨rest, htakes, hrest⟩ := h.takes_last taken chunks hlater
    rw [htakes]
    change _ ++ (_ ++ total rest) = (alone stage (taken ++ (chunks ++ total _))).chunks
    rw [total_over hrest, total_over hlater, List.append_nil, List.append_nil, alone_append,
      Output.chunks_absorb]
  | more chunks _ ih =>
    have hsplit := congrArg (fun fed => fed.2.chunks) (feedAlone_append stage taken chunks)
    simp only [Output.chunks_absorb] at hsplit
    rw [Link.takes, Link.take_behind]
    change _ ++ (_ ++ total _) = (alone stage (taken ++ (chunks ++ total _))).chunks
    rw [← List.append_assoc, ← hsplit, ih, List.append_assoc]

end Orderly

/-! ## A row of links

The row is taken apart from the front: `rowTakes_cons` gives the turns of the first link to the
rest of the row, which by `takes_closes` come to an end again, so that the induction goes on
along the row. -/

/-- **New links in a row compute the composition of their stages**, whatever comes in which turn. -/
theorem rowTakes_composed {stages : List σ} (h : ∀ stage ∈ stages, Orderly stage)
    {turns : List (List String × Bool)} (hturns : Closes turns) :
    Closes (rowTakes (stages.map fun stage => { stage }) turns) ∧
      total (rowTakes (stages.map fun stage => { stage }) turns) =
        composed stages (total turns) := by
  induction stages generalizing turns with
  | nil =>
    rw [List.map_nil, rowTakes_nil]
    exact ⟨hturns, rfl⟩
  | cons stage rest ih =>
    have hstage := h stage List.mem_cons_self
    obtain ⟨hcloses, htotal⟩ := ih (fun s hs => h s (List.mem_cons_of_mem _ hs))
      (hstage.takes_closes hturns [])
    have halone := hstage.takes_total hturns []
    rw [List.map_cons, rowTakes_cons, composed, List.foldl_cons]
    refine ⟨hcloses, htotal.trans ?_⟩
    exact congrArg (composed rest) halone

/-! ## A chain

A chain at rest does in each operation what its row does in one turn, since none of its stages
has anything to send. So a history of operations is a list of turns, the last of them the end of
the input, and what has been returned is what the row has handed on. -/

/-- What is done to a chain in one turn: it is given a chunk, or polled. -/
def ChainMove.turn (fuel : Nat) : Option String → ChainMove
  | some chunk => .accept fuel chunk
  | none => .poll fuel

namespace Chain

/-- An operation on a chain at rest returns what its row of links makes of it. -/
theorem Calm.propagates {P : σ → Prop} (hP : SilentStages P) {c : Chain σ} (h : c.Calm P)
    (fuel : Nat) (handles : Handles) (chunks : List String) :
    ∃ r, c.propagate (fuel + 1) handles chunks = some r ∧ r.chain.Calm P ∧
      r.chain.inputEnded = c.inputEnded ∧
      (r.chain.links, r.chunks, r.chain.isEnded) = takeRow c.links chunks c.inputEnded := by
  refine ⟨_, propagate_silent hP h fuel handles chunks, h.took hP chunks _, rfl, ?_⟩
  rw [isEnded_takeRow]

end Chain

namespace Session

open Chain

variable {P : σ → Prop} (hP : SilentStages P)

include hP

/-- One turn of a chain is one of its row. -/
theorem step_turn {s : Session σ} (hcalm : s.chain.Calm P) (hopen : s.chain.inputEnded = false)
    (fuel : Nat) (given : Option String) :
    ∃ s', s.step (.turn (fuel + 1) given) = some s' ∧ s'.chain.Calm P ∧
      s'.chain.inputEnded = false ∧
      s'.chain.links = (takeRow s.chain.links given.toList false).1 ∧
      s'.returned = s.returned ++ (takeRow s.chain.links given.toList false).2.1 := by
  obtain ⟨r, hr, hcalm', hinput, htook⟩ := hcalm.propagates hP fuel s.handles given.toList
  rw [hopen] at hinput htook
  rw [← htook]
  cases given with
  | none =>
    rw [ChainMove.turn, step, Chain.poll, show s.chain.propagate _ _ [] = some r from hr]
    exact ⟨_, rfl, hcalm', hinput, rfl, rfl⟩
  | some chunk =>
    rw [ChainMove.turn, step, Chain.accept, show s.chain.propagate _ _ [chunk] = some r from hr]
    exact ⟨_, rfl, hcalm', hinput, rfl, rfl⟩

/-- The end of the input is the last turn of the row. -/
theorem step_finish {s : Session σ} (hcalm : s.chain.Calm P) (fuel : Nat) :
    ∃ s', s.step (.finish (fuel + 1)) = some s' ∧
      s'.returned = s.returned ++ (takeRow s.chain.links [] true).2.1 ∧
      s'.chain.isEnded = (takeRow s.chain.links [] true).2.2 := by
  have hended : Calm P { s.chain with inputEnded := true } :=
    ⟨⟨hcalm.mailbox, hcalm.late⟩, hcalm.stages⟩
  obtain ⟨r, hr, -, -, htook⟩ := hended.propagates hP fuel s.handles []
  rw [← htook, step, Chain.finish, hr]
  exact ⟨_, rfl, rfl, rfl⟩

/-- A chain in turns is a row in turns, in front of whatever comes behind them. -/
theorem run_turns {s : Session σ} (hcalm : s.chain.Calm P) (hopen : s.chain.inputEnded = false)
    (fuel : Nat) (schedule : List (Option String)) :
    ∃ s' handed, s.run (schedule.map (.turn (fuel + 1))) = some s' ∧ s'.chain.Calm P ∧
      s'.chain.inputEnded = false ∧ s'.returned = s.returned ++ total handed ∧
      ∀ later, rowTakes s.chain.links (schedule.map (fun given => (given.toList, false)) ++ later) =
        handed ++ rowTakes s'.chain.links later := by
  induction schedule generalizing s with
  | nil => exact ⟨s, [], rfl, hcalm, hopen, (List.append_nil _).symm, fun _ => rfl⟩
  | cons given rest ih =>
    obtain ⟨s₁, hstep, hcalm₁, hopen₁, hlinks, hreturned⟩ := step_turn hP hcalm hopen fuel given
    obtain ⟨s', handed, hrun, hcalm', hopen', hreturned', htakes⟩ := ih hcalm₁ hopen₁
    refine ⟨s', (takeRow s.chain.links given.toList false).2 :: handed, ?_, hcalm', hopen', ?_, ?_⟩
    · rw [List.map_cons, run, hstep]
      exact hrun
    · rw [hreturned', hreturned, List.append_assoc]
      rfl
    · intro later
      rw [List.map_cons, List.cons_append, rowTakes, ← hlinks, htakes]
      rfl

end Session

/-- The chunks of two lists of turns. -/
theorem total_append (turns later : List (List String × Bool)) :
    total (turns ++ later) = total turns ++ total later :=
  List.flatMap_append

/-- A schedule gives the chunks in it; a poll gives nothing. -/
theorem total_schedule (schedule : List (Option String)) :
    total (schedule.map fun given => (given.toList, false)) = schedule.reduceOption := by
  induction schedule with
  | nil => rfl
  | cons given rest ih =>
    cases given with
    | none => exact ih
    | some chunk => exact congrArg (chunk :: ·) ih

/-- A schedule with the end of the input behind it comes to an end. -/
theorem closes_schedule (schedule : List (Option String)) :
    Closes (schedule.map (fun given => (given.toList, false)) ++ [([], true)]) := by
  induction schedule with
  | nil => exact .last [] (by simp)
  | cons given rest ih => exact .more _ ih

/-- **A chain computes the composition of its stages.** Take a new chain of stages that send nothing
through handles and keep to their end. Whatever chunks it is given one by one, however often it is
polled in between, all operations return, and so does the end of the input behind them; what has
been returned then is what the stages make of the chunks one after the other, each on its own, and
the chain has ended. A chain without stages returns the chunks as they come, and ends exactly with
its input. -/
theorem chain_composes {P : σ → Prop} (hP : SilentStages P) {stages : List σ}
    (hstages : ∀ stage ∈ stages, P stage) (horderly : ∀ stage ∈ stages, Orderly stage)
    (handles : Handles) (fuel : Nat) (schedule : List (Option String)) :
    ∃ before after : Session σ,
      (Session.start handles stages).run (schedule.map (.turn (fuel + 1))) = some before ∧
      before.step (.finish (fuel + 1)) = some after ∧
      after.returned = composed stages schedule.reduceOption ∧
      after.chain.isEnded = true ∧
      -- an empty chain is not covered by the stages: it ends with its input, and not a turn earlier
      (stages = [] → before.returned = schedule.reduceOption ∧ before.chain.isEnded = false) := by
  have hcalm : (Session.start handles stages).chain.Calm P := Chain.ofStages_calm hstages handles
  obtain ⟨before, handed, hrun, hcalm', hopen, hreturned, htakes⟩ :=
    Session.run_turns hP hcalm rfl fuel schedule
  obtain ⟨after, hfinish, hall, hended⟩ := Session.step_finish hP hcalm' fuel
  have hlast : rowTakes (stages.map fun stage => { stage })
      (schedule.map (fun given => (given.toList, false)) ++ [([], true)]) =
        handed ++ [(takeRow before.chain.links [] true).2] := htakes [([], true)]
  obtain ⟨hcloses, htotal⟩ := rowTakes_composed horderly (closes_schedule schedule)
  rw [hlast] at hcloses htotal
  -- split off the last turn: the rest of the row's turns is what the chain returned before
  rw [total_append, total_append, total_schedule] at htotal
  refine ⟨before, after, hrun, hfinish, ?_, ?_, ?_⟩
  · rw [hall, hreturned]
    simpa [total, Session.start] using htotal
  · obtain ⟨chunks, hchunks⟩ := hcloses.getLast?
    rw [List.getLast?_append, List.getLast?_singleton] at hchunks
    rw [hended]
    exact congrArg Prod.snd (Option.some.inj hchunks)
  · rintro rfl
    have hnone : before.chain.links = [] := by
      obtain ⟨-, hlength⟩ := (Session.start_kept handles []).run hrun
      exact List.eq_nil_of_length_eq_zero hlength
    have hhanded : rowTakes [] (schedule.map (fun given => (given.toList, false)) ++ []) =
        handed ++ rowTakes before.chain.links [] := htakes []
    rw [hnone, rowTakes_nil, rowTakes_nil, List.append_nil, List.append_nil] at hhanded
    refine ⟨?_, ?_⟩
    · rw [hreturned, ← hhanded, total_schedule]
      rfl
    · rw [Chain.isEnded, hnone]
      exact hopen

/-! ## Scripted stages

A script sends nothing if none of its steps does. -/

/-- Whether a step of a script sends through a handle. -/
def StageStep.sends : StageStep → Bool
  | .send .. | .sendEcho _ | .sendEnd _ => true
  | .once inner => inner.sends
  | .echo | .push _ | .arg _ | .hold | .flush | .finish | .release _ => false

namespace ScriptedStage

/-- The stages with scripts that send nothing. -/
def Silent (s : ScriptedStage) : Prop :=
  ∀ st ∈ s.script.accept ++ s.script.finish, st.sends = false

theorem step_silent (chunk : String) (position : Nat) (s : ScriptedStage) {st : StageStep}
    (h : st.sends = false) :
    (step chunk position s st).1.script = s.script ∧
      ∀ a ∈ (step chunk position s st).2, a.sends = false := by
  induction st generalizing s with
  | send | sendEcho | sendEnd => cases h
  | hold => exact ⟨rfl, fun a ha => absurd ha List.not_mem_nil⟩
  | echo | push | arg | flush | finish | release =>
    exact ⟨rfl, List.forall_mem_singleton.mpr rfl⟩
  | once inner ih =>
    rw [step]
    split
    · exact ⟨rfl, fun a ha => absurd ha List.not_mem_nil⟩
    · exact ih _ h

theorem steps_silent (chunk : String) (position : Nat) (s : ScriptedStage) {sts : List StageStep}
    (h : ∀ st ∈ sts, st.sends = false) :
    (steps chunk position s sts).1.script = s.script ∧
      ∀ a ∈ (steps chunk position s sts).2, a.sends = false := by
  induction sts generalizing position s with
  | nil => exact ⟨rfl, fun a ha => absurd ha List.not_mem_nil⟩
  | cons st rest ih =>
    obtain ⟨hscript, hactions⟩ := step_silent chunk position s (h st List.mem_cons_self)
    obtain ⟨hscript', hactions'⟩ := ih (position + 1) (step chunk position s st).1
      fun t ht => h t (List.mem_cons_of_mem _ ht)
    exact ⟨hscript'.trans hscript, List.forall_mem_append.mpr ⟨hactions, hactions'⟩⟩

theorem silentStages : SilentStages Silent where
  accept_stays s chunk h := by
    have hscript : (FilterStage.accept s chunk).1.script = s.script :=
      (steps_silent chunk 0 s (List.forall_mem_append.mp h).1).1
    rwa [Silent, hscript]
  finish_stays s h := by
    have hscript : (FilterStage.finish s).1.script = s.script :=
      (steps_silent "" 0 { s with spent := [] } (List.forall_mem_append.mp h).2).1
    rwa [Silent, hscript]
  accept_silent s chunk h := (steps_silent chunk 0 s (List.forall_mem_append.mp h).1).2
  finish_silent s h := (steps_silent "" 0 { s with spent := [] } (List.forall_mem_append.mp h).2).2

end ScriptedStage

/-! ## A stage that ends early

The first of the two stages is not a mapping: it ends inside its first chunk, whatever comes
behind. It is orderly all the same, and so is the stage that puts a mark behind everything; the
mark shows when it was told of the end. -/

/-- A stage that passes its first chunk on and then ends, and drops its handle. -/
def firstOnly : ScriptedStage :=
  { script := { accept := [.once .echo, .once .finish, .release "first"], keep := some "first" }
    args := [] }

/-- A stage that passes everything on, and a mark behind it. -/
def marking : ScriptedStage :=
  { script := { accept := [.echo], finish := [.push ")", .finish] }, args := [] }

/-- Behind its first chunk the stage takes chunks without doing anything. -/
theorem feedAlone_firstOnly_spent (out : Output) (chunks : List String) :
    feedAlone { firstOnly with spent := [1, 0] } out chunks =
      ({ firstOnly with spent := [1, 0] }, out) := by
  induction chunks generalizing out with
  | nil => rfl
  | cons chunk rest ih => exact ih out

/-- The stage that ends with its first chunk keeps to its end. -/
theorem orderly_firstOnly : Orderly firstOnly := by
  have hfed (chunk : String) (rest : List String) : feedAlone firstOnly {} (chunk :: rest) =
      ({ firstOnly with spent := [1, 0] }, ⟨[chunk], true⟩) :=
    feedAlone_firstOnly_spent ⟨[chunk], true⟩ rest
  refine ⟨?_, ?_⟩
  · rintro (_ | ⟨chunk, rest⟩)
    · rfl
    · rw [alone, hfed]
      rfl
  · rintro (_ | ⟨chunk, rest⟩) more hended
    · cases hended
    · rw [hfed, alone, feedAlone_firstOnly_spent]
      rfl

/-- The stage with the mark passes everything on, and stays as it is. -/
theorem feedAlone_marking (out : Output) (chunks : List String) :
    feedAlone marking out chunks = (marking, { out with chunks := out.chunks ++ chunks }) := by
  induction chunks generalizing out with
  | nil => simp [feedAlone]
  | cons chunk rest ih =>
    rw [feedAlone]
    refine (ih (out.push chunk)).trans ?_
    simp [Output.push]

/-- The stage with the mark ends when it is finished, and not before. -/
theorem orderly_marking : Orderly marking := by
  refine ⟨?_, ?_⟩
  · intro chunks
    rw [alone, feedAlone_marking]
    rfl
  · intro chunks more hended
    rw [feedAlone_marking] at hended
    cases hended

/-- The first stage ends with the first chunk, long before its input, and the second one is told of
that at once; chunks and polls behind it change nothing. -/
theorem chain_composes_early : ∃ before after : Session ScriptedStage,
    (Session.start {} [firstOnly, marking]).run
        ([some "a", none, some "b", none].map (.turn 1)) = some before ∧
      before.step (.finish 1) = some after ∧
      before.returned = ["a", ")"] ∧ before.chain.isEnded = true ∧
      after.returned = ["a", ")"] ∧ after.chain.isEnded = true := by
  have hsilent : ∀ stage ∈ [firstOnly, marking], stage.Silent := by
    simp [ScriptedStage.Silent, firstOnly, marking, StageStep.sends, or_imp, forall_and]
  obtain ⟨before, after, hrun, hfinish, hreturned, hended, -⟩ :=
    chain_composes ScriptedStage.silentStages hsilent
      (List.forall_mem_cons.mpr ⟨orderly_firstOnly, List.forall_mem_singleton.mpr orderly_marking⟩)
      {} 0 [some "a", none, some "b", none]
  refine ⟨before, after, hrun, hfinish, ?_, ?_, hreturned, hended⟩
  · cases hrun
    rfl
  · cases hrun
    rfl

end StreamingTemplate

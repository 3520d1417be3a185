import StreamingTemplate.Proofs.Engine.Skipping
import StreamingTemplate.Proofs.Engine.Waits

/-!
# Counted loops

A directive that restarts its block while a counter is positive, and closes it afterwards, makes the
block a loop. Restarting closes the block and goes back to the directive that opened it, which opens
it again: so each pass begins with the blocks of the first one, and the last pass leaves those that
were open before the loop.

`CountedLoop` is a loop in a template, with a tree as its body. The body begins and ends with output
not suppressed (`walk_flatten`), whatever its conditions hide. A pass in which all the variables are
there is a step of a sequence of passes: `Comes` says that a run gets from one place to another, and
`comes_around` puts the passes together by induction on the counter.

A variable that is not there is missed in the first pass; the later passes find it, as nothing is
unset. `Repeats` describes the run with its waits. That it comes to an end is shown by induction on
the number of variables that are not set (`repeats_of_follows`); the walk through the body in parts,
from one wait to the next, is the walk that knows all of the variables (`follows_resume`).
-/

namespace StreamingTemplate

/-! ## The variables of a tree

The rendering of a tree asks only for the variables that stand in it. So two stores that agree on
these render it alike, and a variable that is set while the loop waits matters to the body only
if it is one of them. `Tree.paths` lists them, and `Rendering.Among` says that a rendering keeps
to such a list. -/

/-- What a rendering shows, and what it lacks, are variables of a list; it is lacked by a directive
from an index on. -/
structure Rendering.Among (look : Path → Option Value) (paths : List Path) (first : Nat)
    (R : Rendering) : Prop where
  shown : ∀ value ∈ R.shown, ∃ path ∈ paths, look path = some value
  blocked : ∀ path index, R.blocked = some (path, index) →
    path ∈ paths ∧ look path = none ∧ first ≤ index

namespace Rendering.Among

variable {look : Path → Option Value} {paths paths' : List Path} {first first' : Nat}
  {R R' : Rendering}

/-- Chunks alone show nothing and lack nothing. -/
theorem silent (chunks : List String) : Among look paths first { chunks } where
  shown value hvalue := absurd hvalue List.not_mem_nil
  blocked path index hblocked := by cases hblocked

theorem showing {path : Path} {value : Value} (h : path ∈ paths) (hvalue : look path = some value)
    (chunks : List String) : Among look paths first { chunks, shown := [value] } where
  shown other hother := by
    obtain rfl := List.mem_singleton.mp hother
    exact ⟨path, h, hvalue⟩
  blocked path index hblocked := by cases hblocked

/-- A longer list, and an earlier first index, allow more. -/
theorem mono (h : R.Among look paths' first') (hpaths : paths' ⊆ paths) (hfirst : first ≤ first') :
    R.Among look paths first where
  shown value hvalue := by
    obtain ⟨path, hmem, hlook⟩ := h.shown value hvalue
    exact ⟨path, hpaths hmem, hlook⟩
  blocked path index hblocked := by
    obtain ⟨hmem, hunset, hindex⟩ := h.blocked path index hblocked
    exact ⟨hpaths hmem, hunset, Nat.le_trans hfirst hindex⟩

/-- Two renderings that keep to a list keep to it one behind the other. -/
theorem andThen (h : R.Among look paths first) (h' : R'.Among look paths first) :
    (R.andThen R').Among look paths first := by
  rw [Rendering.andThen]
  split
  · exact h
  · exact ⟨fun value hvalue =>
      (List.mem_append.mp hvalue).elim (h.shown value) (h'.shown value), h'.blocked⟩

theorem lacking {path : Path} (h : path ∈ paths) (hunset : look path = none) :
    Among look paths first { blocked := some (path, first) } where
  shown value hvalue := absurd hvalue List.not_mem_nil
  blocked other index hblocked := by
    obtain ⟨rfl, rfl⟩ := Prod.mk.inj (Option.some.inj hblocked)
    exact ⟨h, hunset, Nat.le_refl _⟩

end Rendering.Among

/-- A directive of a tree asks for the variable of its node. -/
theorem Question.AskedBy.eq_varPath {question : Question} {name : String} {path : VarPath}
    {args : List Argument} {other : Path}
    (h : question.AskedBy name (.path path.1 :: args) other) : other = path.1 :=
  Except.ok.inj (h.first.2.symm.trans (Place.pathArg_varPath name path args))

namespace Tree

/-- The variables that a tree shows or tests. -/
def paths : Tree → List Path
  | nil => []
  | literal _ rest => rest.paths
  | var path _ rest => path.1 :: rest.paths
  | cond path body rest => path.1 :: (body.paths ++ rest.paths)

theorem among_render (tree : Tree) (look : Path → Option Value) (index : Nat) :
    (tree.render look index).Among look tree.paths index := by
  induction tree generalizing index with
  | nil => exact .silent []
  | literal text rest ih =>
    exact .andThen (.silent [text]) ((ih _).mono (List.Subset.refl _) (Nat.le_succ _))
  | var path filters rest ih =>
    have hrest := (ih (index + 1)).mono (List.subset_cons_self path.1 rest.paths)
      (Nat.le_succ index)
    rw [render]
    split
    · exact .lacking List.mem_cons_self ‹_›
    · exact .andThen (.showing List.mem_cons_self ‹_› _) hrest
  | cond path body rest ihbody ih =>
    have hinner : body.paths ++ rest.paths ⊆ (cond path body rest).paths :=
      List.subset_cons_self path.1 _
    have hbody := (ihbody (index + 1)).mono
      (List.Subset.trans (List.subset_append_left body.paths rest.paths) hinner) (Nat.le_succ index)
    have hrest := (ih (index + body.size + 2)).mono
      (List.Subset.trans (List.subset_append_right body.paths rest.paths) hinner)
      (show index ≤ index + body.size + 2 by omega)
    rw [render]
    split
    · exact .lacking List.mem_cons_self ‹_›
    · split
      · exact hbody.andThen hrest
      · exact .andThen (.silent []) hrest

/-- The directives of a flat tree are built in, and ask for variables of the tree. -/
theorem directive_mem_flatten {tree : Tree} {name : String} {args : List Argument}
    (h : .directive name args ∈ tree.flatten) :
    name ∈ ["if", "endif", "var"] ∧
      ∀ path (question : Question), question.AskedBy name args path → path ∈ tree.paths := by
  induction tree with
  | nil => cases h
  | literal text rest ih =>
    rcases List.mem_cons.mp h with h | h
    · cases h
    · exact ih h
  | var path filters rest ih =>
    rcases List.mem_cons.mp h with h | h
    · obtain ⟨rfl, rfl⟩ := Instruction.directive.inj h
      exact ⟨by simp, fun other question hask => hask.eq_varPath ▸ List.mem_cons_self⟩
    · exact (ih h).imp_right fun hasks other question hask =>
        List.mem_cons_of_mem _ (hasks other question hask)
  | cond path body rest ihbody ih =>
    rw [flatten, List.cons_append, List.mem_cons, List.mem_append, List.mem_cons] at h
    rcases h with h | h | h | h
    · obtain ⟨rfl, rfl⟩ := Instruction.directive.inj h
      exact ⟨by simp, fun other question hask => hask.eq_varPath ▸ List.mem_cons_self⟩
    · exact (ihbody h).imp_right fun hasks other question hask =>
        List.mem_cons_of_mem _ (List.mem_append_left _ (hasks other question hask))
    · obtain ⟨rfl, rfl⟩ := Instruction.directive.inj h
      exact ⟨by simp, fun other question hask => by simpa using hask.first.1⟩
    · exact (ih h).imp_right fun hasks other question hask =>
        List.mem_cons_of_mem _ (List.mem_append_right _ (hasks other question hask))

/-- A walk through a tree that knows more of its variables is the walk that knows less, resumed. -/
theorem walk_flatten_extend (tree : Tree) {look look' : Path → Option Value}
    (hlook : ∀ path ∈ tree.paths, ∀ value, look path = some value → look' path = some value)
    {all : List Instruction} {p : Place} (hall : all.drop p.cursor = tree.flatten) :
    walk look' p tree.flatten = (walk look p tree.flatten).resume look'
      (all.drop (walk look p tree.flatten).place.cursor) := by
  -- what `look` knows besides the variables of the tree is not looked up
  have hcongr : walk look p tree.flatten =
      walk (fun path => if path ∈ tree.paths then look path else none) p tree.flatten :=
    walk_congr (fun _ _ path question hmem hask =>
      (if_pos ((directive_mem_flatten hmem).2 path question hask)).symm) p
  rw [hcongr]
  refine walk_extend (fun path value hvalue => ?_) hall
  split at hvalue
  · exact hlook path ‹_› value hvalue
  · cases hvalue

end Tree

/-! ## Waking a render that waits

A loop is followed through its waits by one event: a write that brings the value the render waits
for. The host may have parked questions under the same key before; they are served first, and the
wait of the render last, since it was parked last. These lemmas say that such a write is the run
that is resumed. -/

/-- A write that brings a value to the path of the last wait wakes this wait after all others. -/
theorem Store.set_wakes_last {s s' : Store Waiter} {path p : Path} {value found : Value}
    {earlier : List (String × Waiter)} {woken : List Waiter}
    (hparked : s.parked = earlier ++ [(path.waitKey, .engine)])
    (hearlier : .engine ∉ earlier.map (·.2)) (hunset : s.resolve path = none)
    (hset : s.set p value = .ok (s', woken)) (hfound : s'.resolve path = some found) :
    ∃ hosts, woken = hosts ++ [.engine] ∧ .engine ∉ hosts ∧ .engine ∉ s'.parked.map (·.2) := by
  obtain ⟨hwrite, hleft, rfl⟩ := set_eq_ok hset
  -- a write elsewhere would not have brought a value to the path
  have hkey : path.waitKey = p.waitKey := by
    refine Decidable.byContradiction fun hne => ?_
    exact absurd (hfound.symm.trans ((lookup_write_of_ne hwrite hne).trans hunset)) nofun
  have hhosts : ∀ keep : String × Waiter → Bool, .engine ∉ (earlier.filter keep).map (·.2) :=
    fun keep hmem => hearlier ((List.filter_sublist.map _).subset hmem)
  refine ⟨(earlier.filter (·.1 == p.waitKey)).map (·.2), ?_, hhosts _, ?_⟩
  · rw [hparked, List.filter_append, List.map_append]
    simp [hkey]
  · rw [hleft, hparked, List.filter_append, List.map_append]
    simpa [hkey] using hhosts (·.1 != p.waitKey)

namespace Render

variable {σ κ μ : Type} [FilterStage σ] [OutputSink κ] {setup : Setup σ μ} {r : Render σ κ μ}

omit [FilterStage σ] [OutputSink κ] in
/-- Serving the host parks no wait of the render itself. -/
theorem unparked_wakeHosts (woken : List Waiter) (h : .engine ∉ r.store.parked.map (·.2)) :
    .engine ∉ (wakeHosts woken r).store.parked.map (·.2) := by
  induction woken generalizing r with
  | nil => exact h
  | cons wait rest ih =>
    cases wait with
    | engine => exact ih h
    | host path ticket =>
      refine ih ?_
      rw [ask]
      split
      · exact h
      · simpa [Store.subscribe] using h

/-- A wait of the render itself that is served last decides about the outcome. -/
theorem wake_engine (fuel : Nat) (o : Outcome σ κ μ Unit) :
    wake setup fuel [.engine] o = resumeParked setup fuel o.2 := by
  obtain ⟨outcome, r⟩ := o
  rw [wake]
  cases resumeParked setup fuel r <;> rfl

/-- **A write to what is waited for.** A render whose own wait was parked last goes on with the
value, after the questions of the host have been served. -/
theorem set_resumes (setup : Setup σ μ) {path p : Path} {index : Nat} {since : Instant}
    {earlier : List (String × Waiter)} {value found : Value} {store : Store Waiter}
    {woken : List Waiter} (hstatus : r.status = .suspended (.variable path index since))
    (hparked : r.store.parked = earlier ++ [(path.waitKey, .engine)])
    (hearlier : .engine ∉ earlier.map (·.2)) (hunset : r.store.resolve path = none)
    (hset : r.store.set p value = .ok (store, woken)) (hfound : store.resolve path = some found) :
    ∃ store' answers, store'.vars = store.vars ∧ .engine ∉ store'.parked.map (·.2) ∧
      ∀ fuel, Render.set setup fuel p value r = run setup fuel (.resume index found)
        { r with store := store', answers, status := .running } := by
  obtain ⟨hosts, rfl, hnot, hunparked⟩ :=
    Store.set_wakes_last hparked hearlier hunset hset hfound
  have hserved := unparked_wakeHosts (r := { r with store }) hosts hunparked
  obtain ⟨store', answers, hframe, hvars⟩ := wakeHosts_frame hosts { r with store }
  rw [hframe] at hserved
  refine ⟨store', answers, hvars, hserved, fun fuel => ?_⟩
  have hresolve : store'.resolve path = some found := by
    rw [Store.resolve_congr hvars]
    exact hfound
  have hresume : resumeParked setup fuel { r with store := store', answers } =
      run setup fuel (.resume index found)
        { r with store := store', answers, status := .running } := by
    simp only [resumeParked, hstatus, hresolve]
  rw [Render.set, hset]
  dsimp only
  rw [wake_append, wake_of_not_mem hnot, Option.bind_some, hframe]
  exact (wake_engine fuel _).trans hresume

end Render

/-! ## Loops

`CountedLoop` is a piece of a template together with what the directives at its two ends do.
Around the loop the template is arbitrary, and so are the arguments of the two directives, which
they do not look at. The places of a loop are its beginning (`entry`), the body (`inside`), the
directive at the end (`bottom`) and what is behind (`exit`), each with the blocks that are open
around the loop. -/

/-- A loop in the template of a setup: `repeat` opens its block, and the directive at its end
restarts or closes the block, as its counter tells. -/
structure CountedLoop (setup : Setup TextFilter ScriptMemories) where
  /-- the instructions before the loop -/
  before : List Instruction
  startArgs : List Argument
  body : Tree
  /-- the name of the directive at the end -/
  again : String
  againArgs : List Argument
  /-- the instructions behind the loop -/
  more : List Instruction
  /-- where the counter starts -/
  times : Nat
  code : setup.template.instructions =
    before ++ .directive "repeat" startArgs :: (body.flatten ++ .directive again againArgs :: more)
  opens : setup.directives.directive? "repeat" =
    some (DirectiveScript.directive "repeat" { opensBlock := true })
  counts : setup.directives.directive? again =
    some (DirectiveScript.directive again { call := [.again], times })
  builtins : ∀ name ∈ ["if", "endif", "var"],
    setup.directives.directive? name = Directive.builtins.directive? name
  filters : setup.filters = TextFilter.registry id

namespace CountedLoop

variable {setup : Setup TextFilter ScriptMemories} (l : CountedLoop setup)

/-- The index of the first instruction of the loop. -/
def start : Nat := l.before.length

/-- The place where the loop begins, inside of some blocks. -/
def entry (blocks : BlockStack) : Place := ⟨l.start, blocks, .notSkipping⟩

/-- The place of the first instruction of the body. -/
def inside (blocks : BlockStack) : Place := (l.entry blocks).opened

/-- The place of the directive at the end. -/
def bottom (blocks : BlockStack) : Place := (l.inside blocks).further l.body.size

/-- The place behind the loop. -/
def exit (blocks : BlockStack) : Place := (l.entry blocks).further (l.body.size + 2)

/-- The instructions from the end of the body on. -/
def ending : List Instruction := .directive l.again l.againArgs :: l.more

/-- The rendering of the body. -/
def rendering (look : Path → Option Value) : Rendering := l.body.render look (l.start + 1)

/-- The counter. -/
def counter (memory : ScriptMemories) : Nat :=
  ((Fields.find? l.again memory).getD { times := l.times }).times

/-! ### The code of a loop

What stands where in the template, as the instructions from an index on. A run is compared with
the walk through the instructions that are left, so the template is cut at the places of the
loop. -/

/-- From the beginning of the loop on, -/
theorem drop_start : setup.template.instructions.drop l.start =
    .directive "repeat" l.startArgs :: (l.body.flatten ++ l.ending) := by
  rw [l.code]
  exact List.drop_left

/-- from the first instruction of the body on, -/
theorem drop_inside :
    setup.template.instructions.drop (l.start + 1) = l.body.flatten ++ l.ending :=
  (getElem?_of_drop l.drop_start).2

/-- and from the end of the body on. -/
theorem drop_bottom :
    setup.template.instructions.drop (l.start + 1 + l.body.size) = l.ending := by
  rw [← List.drop_drop, l.drop_inside]
  exact List.drop_left' l.body.length_flatten

/-- An instruction of the body, and what is behind it. -/
theorem get_body {j : Nat} {instruction : Instruction}
    (h : l.body.flatten[j]? = some instruction) :
    setup.template.get? (l.start + 1 + j) = some instruction ∧
      setup.template.instructions.drop (l.start + 1 + (j + 1)) =
        l.body.flatten.drop (j + 1) ++ l.ending := by
  have hlength : j < l.body.flatten.length := (List.getElem?_eq_some_iff.mp h).1
  refine ⟨?_, ?_⟩
  · rw [Template.get?, ← List.getElem?_drop, l.drop_inside, List.getElem?_append_left hlength, h]
  · rw [← List.drop_drop, l.drop_inside, List.drop_append_of_le_length hlength]

/-- The instructions up to the end of the body. -/
def front : List Instruction := l.before ++ .directive "repeat" l.startArgs :: l.body.flatten

theorem drop_front : l.front.drop (l.start + 1) = l.body.flatten :=
  (getElem?_of_drop List.drop_left).2

/-- The directive at the end has another name than the one that opens the block. -/
theorem again_ne_repeat : l.again ≠ "repeat" := by
  intro heq
  have := l.counts
  rw [heq, l.opens] at this
  exact absurd (congrArg Directive.opensBlock (Option.some.inj this)) nofun

/-! ### The variables of the body

While the loop waits, variables come in from outside. `Fills` is the condition on such a write:
it brings the value that is waited for and takes nothing from the variables that are set. So the
number of variables that are not set falls with each wait, which is the measure of the induction
over waits. -/

/-- No variable of the body is a stream. -/
def Streamless (look : Path → Option Value) : Prop :=
  ∀ path ∈ l.body.paths, ∀ value, look path = some value → ∀ id, value ≠ .stream id

/-- A write that sets the variable at a path, and leaves those variables of the body alone that were
set before. -/
structure Fills (path : Path) (store : Store Waiter) (p : Path) (value : Value)
    (store' : Store Waiter) (woken : List Waiter) : Prop where
  written : store.set p value = .ok (store', woken)
  found : store'.resolve path ≠ none
  kept : ∀ other ∈ l.body.paths, ∀ v, store.resolve other = some v → store'.resolve other = some v
  streamless : l.Streamless store'.resolve

/-- The number of variables of the body that are not set. -/
def unset (look : Path → Option Value) : Nat := l.body.paths.countP fun path => (look path).isNone

/-- A variable that is set counts no more, and none that was set counts again. -/
theorem unset_lt {look look' : Path → Option Value} {path : Path} (hmem : path ∈ l.body.paths)
    (hunset : look path = none) (hfound : look' path ≠ none)
    (hkept : ∀ other ∈ l.body.paths, ∀ v, look other = some v → look' other = some v) :
    l.unset look' < l.unset look := by
  have hmono : ∀ other ∈ l.body.paths,
      (look' other).isNone = true → (look other).isNone = true := by
    intro other hother hnone
    rcases hlook : look other with _ | v
    · rfl
    · rw [hkept other hother v hlook] at hnone
      cases hnone
  obtain ⟨before, after, hpaths⟩ := List.append_of_mem hmem
  rw [hpaths] at hmono
  have hbefore := List.countP_mono_left fun other hother =>
    hmono other (List.mem_append_left _ hother)
  have hafter := List.countP_mono_left fun other hother =>
    hmono other (List.mem_append_right _ (List.mem_cons_of_mem _ hother))
  have hlacked : (look path).isNone = true := by rw [hunset]; rfl
  have hset : ¬ (look' path).isNone = true := fun hnone =>
    hfound (Option.isNone_iff_eq_none.mp hnone)
  rw [unset, unset, hpaths, List.countP_append, List.countP_append, List.countP_cons,
    List.countP_cons, if_neg hset, if_pos hlacked]
  omega

/-! ### The directives of a loop

The counter is kept in the memory of the directive at the end. `Counting` and `At` are the states
between two steps of a loop: the render runs at a place, with a sink and a value of the counter,
and nothing of its own is parked. -/

variable {κ : Type} [OutputSink κ]

/-- A render that runs and has a value of the counter. -/
structure Counting (count : Nat) (r : Render TextFilter κ ScriptMemories) : Prop where
  status : r.status = .running
  pipe : r.pipe = none
  count : l.counter r.memory = count
  /-- the render itself waits for nothing -/
  unparked : .engine ∉ r.store.parked.map (·.2)

/-- A render that runs at a place, with a sink and a value of the counter. -/
structure At (p : Place) (sink : κ) (count : Nat) (r : Render TextFilter κ ScriptMemories) : Prop
    extends Counting l count r where
  place : r.place = p
  sink : r.sink = some sink

variable {l} {blocks : BlockStack} {sink : κ} {count : Nat} {r : Render TextFilter κ ScriptMemories}

/-- The first directive leaves the counter alone. -/
theorem perform_repeat (r : Render TextFilter κ ScriptMemories) (args : List Argument) : ∃ memory,
    l.counter memory = l.counter r.memory ∧ ∀ fuel, Render.perform setup fuel
      ((DirectiveScript.directive "repeat" { opensBlock := true }).call args) r =
        some (.ok .advance, { r with memory }) := by
  refine ⟨_, ?_, fun _ => rfl⟩
  rw [counter, Fields.find?_insert_of_ne l.again_ne_repeat]
  rfl

/-- The directive at the end counts down, and restarts the block unless the counter was zero. -/
theorem perform_again (r : Render TextFilter κ ScriptMemories) (args : List Argument) : ∃ memory,
    l.counter memory = l.counter r.memory - 1 ∧ ∀ fuel, Render.perform setup fuel
      ((DirectiveScript.directive l.again { call := [.again], times := l.times }).call args) r =
        Render.perform setup fuel
          (if 0 < l.counter r.memory then .restart (Body.orFail fun _ => .done .advance)
            else .close (Body.orFail fun _ => .done .advance)) { r with memory } := by
  unfold counter
  generalize hmemory : (Fields.find? l.again r.memory).getD { times := l.times } = m
  refine ⟨Fields.insert l.again { times := m.times - 1 }
    (Fields.insert l.again { times := m.times } r.memory), ?_, fun fuel => ?_⟩
  · rw [Fields.find?_insert_self]
    rfl
  · simp only [DirectiveScript.directive, DirectiveScript.withMemory, DirectiveScript.body,
      Render.perform, Fields.find?_insert_self, Option.getD_some, hmemory]
    by_cases hpos : 0 < m.times
    · simp only [if_pos hpos]
    · obtain hzero : m.times = 0 := Nat.eq_zero_of_not_pos hpos
      simp only [hzero, Nat.lt_irrefl, if_false]

/-! ### From place to place

`Comes` is a run with its fuel accounted for, stated for all fuel so that two of them compose by
adding their turns. The step lemmas of the loop are the opening of the block and the two ways out
of its end. -/

omit [OutputSink κ] in
/-- The block that was opened last is the one that is closed, -/
theorem closeBlock_push {frame : Nat} (hblocks : r.blocks = blocks.push frame)
    (hskip : r.skip = .notSkipping) (index : Nat) :
    r.closeBlock index = (.ok frame, { r with blocks }) := by
  obtain ⟨store, _, _, cursor, sink, status, pipe, lines, memory, answers, clock⟩ := r
  obtain rfl := hblocks
  obtain rfl := hskip
  rfl

omit [OutputSink κ] in
/-- restarted, with the cursor where it was opened, -/
theorem restartBlock_push {frame : Nat} (hblocks : r.blocks = blocks.push frame)
    (hskip : r.skip = .notSkipping) :
    r.restartBlock = (.ok (), { r with blocks, cursor := frame }) := by
  rw [Render.restartBlock, closeBlock_push hblocks hskip]

omit [OutputSink κ] in
/-- or closed by the body of a directive. -/
theorem closeCurrent_push {frame : Nat} (hblocks : r.blocks = blocks.push frame)
    (hskip : r.skip = .notSkipping) : r.closeCurrent = (.ok (), { r with blocks }) := by
  rw [Render.closeCurrent, closeBlock_push hblocks hskip]

variable (l) in
/-- Within some turns, a run comes to a place, with a sink and a value of the counter. The variables
and the waits stay as they are. -/
def Comes (turns : Nat) (p : Place) (sink : κ) (count : Nat)
    (r : Render TextFilter κ ScriptMemories) : Prop :=
  ∀ fuel, ∃ left r', fuel ≤ left ∧ l.At p sink count r' ∧ r'.store = r.store ∧
    Render.run setup (fuel + turns) .instruction r = Render.run setup left .instruction r'

/-- From place to place to place: the turns add up. -/
theorem Comes.trans {turns turns' count' : Nat} {p p' : Place} {sink' : κ}
    (h : l.Comes turns p sink count r)
    (h' : ∀ r', l.At p sink count r' → r'.store = r.store → l.Comes turns' p' sink' count' r') :
    l.Comes (turns + turns') p' sink' count' r := by
  intro fuel
  obtain ⟨left, r₁, hleft, hat, hstore, hrun⟩ := h (fuel + turns')
  obtain ⟨left, rfl⟩ := Nat.exists_eq_add_of_le' (Nat.le_of_add_left_le hleft)
  obtain ⟨left', r₂, hleft', hat', hstore', hrun'⟩ := h' r₁ hat hstore left
  refine ⟨left', r₂, by omega, hat', hstore'.trans hstore, ?_⟩
  rw [← hrun', ← hrun, Nat.add_right_comm, Nat.add_assoc]

/-- The first directive opens the block, at its beginning and after a restart. -/
theorem comes_inside (h : l.At (l.entry blocks) sink count r) :
    l.Comes 2 (l.inside blocks) sink count r := by
  intro fuel
  have hcursor : r.cursor = l.start := congrArg Place.cursor h.place
  have hskip : r.skip = .notSkipping := congrArg Place.skip h.place
  have hget : setup.template.get? r.cursor = some (.directive "repeat" l.startArgs) := by
    rw [hcursor]
    exact (getElem?_of_drop l.drop_start).1
  obtain ⟨memory, hcount, hperform⟩ := l.perform_repeat r.opened l.startArgs
  have hshown : r.skip.isSkipping = false := by
    rw [hskip]
    rfl
  have hcalled := Render.run_called hget l.opens rfl hshown (hperform (fuel + 1))
  refine ⟨fuel, { r.opened with memory }, Nat.le_refl _,
    ⟨⟨h.status, h.pipe, hcount.trans h.count, h.unparked⟩, ?_, h.sink⟩, rfl,
    hcalled.trans (Render.run_next rfl)⟩
  exact congrArg Place.opened h.place

/-- The directive at the end leads back to the first one or out of the loop. -/
theorem run_bottom (h : l.At (l.bottom blocks) sink count r) : ∃ memory,
    l.counter memory = count - 1 ∧ ∀ fuel, Render.run setup (fuel + 2) .instruction r =
      Render.run setup fuel .instruction
        (if 0 < count then { r with cursor := l.start, blocks, memory }
          else { r with cursor := r.cursor + 1, blocks, memory }) := by
  have hcursor : r.cursor = l.start + 1 + l.body.size := congrArg Place.cursor h.place
  have hblocks : r.blocks = blocks.push l.start := congrArg Place.blocks h.place
  have hskip : r.skip = .notSkipping := congrArg Place.skip h.place
  have hget : setup.template.get? r.cursor = some (.directive l.again l.againArgs) := by
    rw [hcursor]
    exact (getElem?_of_drop l.drop_bottom).1
  obtain ⟨memory, hcount, hperform⟩ := l.perform_again r.passed l.againArgs
  refine ⟨memory, hcount.trans (by rw [← h.count]; rfl), fun fuel => ?_⟩
  have hbody : Render.perform setup (fuel + 1)
      ((DirectiveScript.directive l.again { call := [.again], times := l.times }).call l.againArgs)
      r.passed = some (.ok .advance,
        if 0 < count then { r with cursor := l.start, blocks, memory }
          else { r with cursor := r.cursor + 1, blocks, memory }) := by
    rw [hperform, show l.counter r.passed.memory = count from h.count]
    split
    · rw [Render.perform, restartBlock_push (by exact hblocks) (by exact hskip)]
      rfl
    · rw [Render.perform, closeCurrent_push (by exact hblocks) (by exact hskip)]
      rfl
  have hshown : r.skip.isSkipping = false := by
    rw [hskip]
    rfl
  exact (Render.run_called hget l.counts rfl hshown hbody).trans (Render.run_next rfl)

/-- While the counter is positive, the end of the body leads back to the beginning, one lower. -/
theorem comes_entry (h : l.At (l.bottom blocks) sink (count + 1) r) :
    l.Comes 2 (l.entry blocks) sink count r := by
  intro fuel
  obtain ⟨memory, hcount, hrun⟩ := run_bottom h
  have hskip : r.skip = .notSkipping := congrArg Place.skip h.place
  refine ⟨fuel, { r with cursor := l.start, blocks, memory }, Nat.le_refl _,
    ⟨⟨h.status, h.pipe, hcount, h.unparked⟩, ?_, h.sink⟩, rfl, ?_⟩
  · rw [Render.place, entry, hskip]
  · rw [hrun, if_pos (Nat.succ_pos _)]

/-- With the counter at zero it leads out of the loop. -/
theorem comes_exit (h : l.At (l.bottom blocks) sink 0 r) : l.Comes 2 (l.exit blocks) sink 0 r := by
  intro fuel
  obtain ⟨memory, hcount, hrun⟩ := run_bottom h
  have hcursor : r.cursor = l.start + 1 + l.body.size := congrArg Place.cursor h.place
  have hskip : r.skip = .notSkipping := congrArg Place.skip h.place
  refine ⟨fuel, { r with cursor := r.cursor + 1, blocks, memory }, Nat.le_refl _,
    ⟨⟨h.status, h.pipe, hcount, h.unparked⟩, ?_, h.sink⟩, rfl, ?_⟩
  · have hexit : l.start + 1 + l.body.size + 1 = l.start + (l.body.size + 2) := by omega
    rw [Render.place, exit, entry, Place.further, hskip, hcursor, hexit]
  · rw [hrun, if_neg (Nat.lt_irrefl 0)]

/-! ### The body

In the body only built-in directives stand, so a run through it follows the walk (`Follows`), and
the walk is what the rendering of the tree says (`describes`). Either it comes to the end of the
body, or it waits for a variable; resumed with the value, it follows the walk that knows it
(`follows_resume`). -/

variable (l) in
/-- The walk through the body. -/
def bodyWalk (blocks : BlockStack) (look : Path → Option Value) : Walk :=
  walk look (l.inside blocks) l.body.flatten

/-- The walk through the body is what the rendering says, and comes to the end of the loop. -/
theorem describes (blocks : BlockStack) {look : Path → Option Value} (hvalues : l.Streamless look) :
    (l.rendering look).Describes (l.bodyWalk blocks look) ⟨[], l.bottom blocks, .done⟩ := by
  have hshown : ∀ value ∈ (l.rendering look).shown, ∀ id, value ≠ .stream id := by
    intro value hvalue
    obtain ⟨path, hmem, hlook⟩ := (l.body.among_render look (l.start + 1)).shown value hvalue
    exact hvalues path hmem value hlook
  have hwalk := walk_flatten l.body (p := l.inside blocks) rfl hshown []
  rwa [List.append_nil] at hwalk

variable (l) in
/-- In the body there are built-in directives only. -/
theorem builtinOn {part : List Instruction} (hpart : part ⊆ l.body.flatten) :
    setup.BuiltinOn part where
  filters := l.filters
  directives name _ hmem := l.builtins name (Tree.directive_mem_flatten (hpart hmem)).1

/-- A walk through the body waits on behalf of a directive of the body. -/
theorem asked_in_body {look : Path → Option Value} {path : Path} {index : Nat} {question : Question}
    (hhalt : (l.bodyWalk blocks look).halt = .waits path index question)
    (hindex : l.start + 1 ≤ index) : ∃ j name args, index = l.start + 1 + j ∧
      l.body.flatten[j]? = some (.directive name args) ∧ question.AskedBy name args path := by
  obtain ⟨-, name, args, hget, hask⟩ := walk_waits (p := l.inside blocks) l.drop_front hhalt
  obtain ⟨j, rfl⟩ := Nat.exists_eq_add_of_le hindex
  refine ⟨j, name, args, rfl, ?_, hask⟩
  rw [← l.drop_front, List.getElem?_drop]
  exact hget

/-- A run that comes to a walk through the whole body comes to the end of it. -/
theorem comes_of_follows {fuel : Nat}
    {o : Option (Render.Outcome TextFilter κ ScriptMemories Unit)}
    (h : Render.Follows setup fuel l.ending (l.bodyWalk blocks r.store.resolve) sink r o)
    (hr : l.Counting count r) (hvalues : l.Streamless r.store.resolve)
    (hshown : (l.rendering r.store.resolve).blocked = none) :
    ∃ left r', fuel ≤ left ∧
      l.At (l.bottom blocks) (OutputSink.deliver sink (l.rendering r.store.resolve).chunks) count
        r' ∧
      r'.store = r.store ∧ o = Render.run setup left .instruction r' := by
  have hwalk := describes blocks hvalues
  rw [Rendering.Describes, hshown] at hwalk
  rw [hwalk] at h
  obtain ⟨-, lines, left, hleft, ho⟩ := h
  rw [Walk.chunks_after, List.append_nil] at ho
  exact ⟨left, r.walked (l.bottom blocks) _ lines, hleft,
    ⟨⟨hr.status, hr.pipe, hr.count, hr.unparked⟩, rfl, rfl⟩, rfl, ho⟩

/-- A run that comes to a walk which lacks a variable is parked on it. -/
theorem parked_of_follows {fuel : Nat} {path : Path} {index : Nat}
    {o : Option (Render.Outcome TextFilter κ ScriptMemories Unit)}
    (h : Render.Follows setup fuel l.ending (l.bodyWalk blocks r.store.resolve) sink r o)
    (hr : l.Counting count r) (hvalues : l.Streamless r.store.resolve)
    (hblocked : (l.rendering r.store.resolve).blocked = some (path, index)) :
    ∃ question r', o = some (.ok (), r') ∧
      l.bodyWalk blocks r.store.resolve =
        ⟨(l.rendering r.store.resolve).chunks, r'.place, .waits path index question⟩ ∧
      r'.cursor = index + 1 ∧ r'.status = .suspended (.variable path index r.clock) ∧
      r'.store = r.store.subscribe path .engine ∧
      r'.sink = some (OutputSink.deliver sink (l.rendering r.store.resolve).chunks) ∧
      ∀ store answers, .engine ∉ store.parked.map (·.2) →
        l.Counting count { r' with store, answers, status := .running } := by
  have hwalk := describes blocks hvalues
  rw [Rendering.Describes, hblocked] at hwalk
  obtain ⟨place, question, hwalk, hcursor⟩ := hwalk
  rw [hwalk] at h
  obtain ⟨lines, ho⟩ := h
  exact ⟨question, _, ho, hwalk, hcursor, rfl, rfl, rfl, fun store answers hunparked =>
    ⟨rfl, hr.pipe, hr.count, hunparked⟩⟩

variable [SteadySink κ]

/-- A run from the beginning of the body comes to the walk through it. -/
theorem follows_body {fuel fuel' : Nat} (h : l.At (l.inside blocks) sink count r)
    (hfuel : fuel + 4 * l.body.size ≤ fuel') :
    Render.Follows setup fuel l.ending (l.bodyWalk blocks r.store.resolve) sink r
      (Render.run setup fuel' .instruction r) := by
  have hcursor : r.cursor = l.start + 1 := congrArg Place.cursor h.place
  rw [← l.body.length_flatten] at hfuel
  rw [bodyWalk, ← h.place]
  refine Render.run_along (l.builtinOn (List.Subset.refl _)) ?_ h.sink h.pipe hfuel
  rw [hcursor, l.drop_inside]

/-- A run that is resumed in the body comes to the walk that knows the new variable. -/
theorem follows_resume {look : Path → Option Value} {chunks : List String} {place : Place}
    {path : Path} {index fuel fuel' : Nat} {question : Question} {value : Value}
    (hwalk : l.bodyWalk blocks look = ⟨chunks, place, .waits path index question⟩)
    (hindex : l.start + 1 ≤ index) (hcursor : place.cursor = index + 1) (hplace : r.place = place)
    (hpipe : r.pipe = none) (hsink : r.sink = some (OutputSink.deliver sink chunks))
    (hkept : ∀ other ∈ l.body.paths, ∀ v, look other = some v → r.store.resolve other = some v)
    (hfound : r.store.resolve path = some value) (hfuel : fuel + 4 * l.body.size + 2 ≤ fuel') :
    Render.Follows setup fuel l.ending (l.bodyWalk blocks r.store.resolve) sink r
      (Render.run setup fuel' (.resume index value) r) := by
  have hextend : l.bodyWalk blocks r.store.resolve = (l.bodyWalk blocks look).resume
      r.store.resolve (l.front.drop (l.bodyWalk blocks look).place.cursor) :=
    l.body.walk_flatten_extend hkept l.drop_front
  obtain ⟨j, name, args, rfl, hasker, hask⟩ := asked_in_body (congrArg Walk.halt hwalk) hindex
  obtain ⟨hget, hcode⟩ := l.get_body hasker
  rw [← show r.cursor = l.start + 1 + (j + 1) from (congrArg Place.cursor hplace).trans hcursor]
    at hcode
  have hrest : l.front.drop place.cursor = l.body.flatten.drop (j + 1) := by
    rw [hcursor, ← l.drop_front, List.drop_drop]
    rfl
  have hpart : .directive name args :: l.body.flatten.drop (j + 1) ⊆ l.body.flatten :=
    List.cons_subset.mpr ⟨List.mem_of_getElem? hasker, (List.drop_sublist _ _).subset⟩
  rw [hextend, hwalk, Walk.resume]
  dsimp only
  rw [hfound, hrest, ← hplace]
  refine (Render.resume_along (l.builtinOn hpart) hget hask hsink hpipe hcode ?_).after
  rw [List.length_drop, l.body.length_flatten]
  omega

/-! ### One pass after the other

Once all variables of the body are there no pass waits any more, and every pass emits the same
chunks. The induction is on the counter: restart, body, and the end again with one less. -/

/-- A pass through the body in which all variables are there comes to the end of the body. -/
theorem comes_bottom {store : Store Waiter} (h : l.At (l.inside blocks) sink count r)
    (hstore : r.store = store) (hvalues : l.Streamless store.resolve)
    (hshown : (l.rendering store.resolve).blocked = none) :
    l.Comes (4 * l.body.size) (l.bottom blocks)
      (OutputSink.deliver sink (l.rendering store.resolve).chunks) count r := by
  subst hstore
  exact fun fuel =>
    comes_of_follows (follows_body h (Nat.le_refl _)) h.toCounting hvalues hshown

variable (l) in
/-- The turns that are enough behind the first pass. -/
def turnsAfter (count : Nat) : Nat := 2 + count * (4 * l.body.size + 4)

/-- **Restarting.** From the end of the body, the loop is run as often as the counter says. -/
theorem comes_around {store : Store Waiter} (h : l.At (l.bottom blocks) sink count r)
    (hstore : r.store = store) (hvalues : l.Streamless store.resolve)
    (hshown : (l.rendering store.resolve).blocked = none) :
    l.Comes (l.turnsAfter count) (l.exit blocks)
      (OutputSink.deliver sink (List.replicate count (l.rendering store.resolve).chunks).flatten)
      0 r := by
  induction count generalizing sink r with
  | zero =>
    rw [turnsAfter, Nat.zero_mul]
    exact comes_exit h
  | succ count ih =>
    have hturns : l.turnsAfter (count + 1) = 2 + (2 + (4 * l.body.size + l.turnsAfter count)) := by
      rw [turnsAfter, turnsAfter, Nat.succ_mul]
      omega
    rw [hturns, List.replicate_succ, List.flatten_cons, OutputSink.deliver_append]
    refine (comes_entry h).trans fun r₁ h₁ hstore₁ => ?_
    refine (comes_inside h₁).trans fun r₂ h₂ hstore₂ => ?_
    have hstore := hstore₂.trans (hstore₁.trans hstore)
    refine (comes_bottom h₂ hstore hvalues hshown).trans fun r₃ h₃ hstore₃ => ?_
    exact ih h₃ (hstore₃.trans hstore)

/-! ### Loops from beginning to end

The first pass may wait, several times. `Repeats` is the tree of what can happen: each write that
fills the gap leads to another such tree, until the run is behind the loop. -/

variable (l) in
/-- The turns that are enough for the loop. -/
def turns (count : Nat) : Nat := 4 * l.body.size + 2 + l.turnsAfter count

variable (l) in
/-- What the run of a loop comes to, if variables are set only while it waits for them. It waits for
those that are not there, one after the other; the sink has what the body has emitted up to there.
After finitely many waits, the run goes on behind the loop with at least so much fuel. Then the
blocks and the skip state are what they were before the loop, and the sink has the rendering of the
body once more than the counter said. -/
inductive Repeats (blocks : BlockStack) (sink : κ) (count fuel : Nat) :
    Option (Render.Outcome TextFilter κ ScriptMemories Unit) → Prop
  | behind {left : Nat} {r : Render TextFilter κ ScriptMemories} (hleft : fuel ≤ left)
      (hshown : (l.rendering r.store.resolve).blocked = none)
      (hat : l.At (l.exit blocks) (OutputSink.deliver sink
        (List.replicate (count + 1) (l.rendering r.store.resolve).chunks).flatten) 0 r) :
      Repeats blocks sink count fuel (Render.run setup left .instruction r)
  | parked {r : Render TextFilter κ ScriptMemories} {path : Path} {index : Nat} {since : Instant}
      (hstatus : r.status = .suspended (.variable path index since))
      (hblocked : (l.rendering r.store.resolve).blocked = some (path, index))
      (hsink : r.sink = some (OutputSink.deliver sink (l.rendering r.store.resolve).chunks))
      (hnext : ∀ p value store woken, l.Fills path r.store p value store woken →
        Repeats blocks sink count fuel (Render.set setup (fuel + l.turns count) p value r)) :
      Repeats blocks sink count fuel (some (.ok (), r))

/-- A run that comes to the walk through the body comes to the rest of the loop. -/
theorem repeats_of_follows {fuel : Nat}
    {o : Option (Render.Outcome TextFilter κ ScriptMemories Unit)}
    (hr : l.Counting count r) (hvalues : l.Streamless r.store.resolve)
    (h : Render.Follows setup (fuel + l.turnsAfter count) l.ending
      (l.bodyWalk blocks r.store.resolve) sink r o) :
    l.Repeats blocks sink count fuel o := by
  -- each wait is for a variable that is not set, and what is set stays so
  induction hn : l.unset r.store.resolve using Nat.strongRecOn generalizing r o with
  | ind n ih =>
    rcases hblocked : (l.rendering r.store.resolve).blocked with _ | ⟨path, index⟩
    · obtain ⟨left, r₁, hleft, hat, hstore, rfl⟩ := comes_of_follows h hr hvalues hblocked
      obtain ⟨left, rfl⟩ := Nat.exists_eq_add_of_le' (Nat.le_of_add_left_le hleft)
      obtain ⟨left', r₂, hleft', hat', hstore', hrun⟩ :=
        comes_around hat hstore hvalues hblocked left
      rw [hrun]
      refine .behind (by omega) (by rwa [hstore', hstore]) ?_
      rw [hstore', hstore, List.replicate_succ, List.flatten_cons, OutputSink.deliver_append]
      exact hat'
    · obtain ⟨question, r₁, rfl, hwalk, hcursor, hstatus, hstore, hsink, hcounting⟩ :=
        parked_of_follows h hr hvalues hblocked
      obtain ⟨hmem, hunset, hindex⟩ :=
        (l.body.among_render r.store.resolve _).blocked path index hblocked
      have hsame : r₁.store.resolve = r.store.resolve := by
        rw [hstore]
        rfl
      rw [← hsame] at hblocked hsink hunset hwalk hn
      refine .parked hstatus hblocked hsink fun p value store woken hfills => ?_
      obtain ⟨found, hfound⟩ := Option.ne_none_iff_exists'.mp hfills.found
      obtain ⟨store', answers, hvars, hunparked, hset⟩ :=
        Render.set_resumes setup hstatus (congrArg Store.parked hstore) hr.unparked hunset
          hfills.written hfound
      have hresolve : store'.resolve = store.resolve := Store.resolve_congr hvars
      rw [← hresolve] at hfound
      rw [hset]
      refine ih (l.unset store'.resolve) ?_ (hcounting store' answers hunparked) ?_ ?_ rfl
      · rw [← hn, hresolve]
        exact l.unset_lt hmem hunset hfills.found hfills.kept
      · exact hresolve ▸ hfills.streamless
      · refine follows_resume hwalk hindex hcursor rfl (hcounting store' answers hunparked).pipe
          hsink ?_ hfound ?_
        · exact hresolve ▸ hfills.kept
        · rw [turns]
          omega

/-- **A counted loop.** A render that comes to a loop while output is not suppressed emits the
rendering of the body once more than the counter says, and goes on behind the loop. -/
theorem restart_repeats (h : l.At (l.entry blocks) sink count r)
    (hvalues : l.Streamless r.store.resolve) (fuel : Nat) :
    l.Repeats blocks sink count fuel
      (Render.run setup (fuel + l.turns count) .instruction r) := by
  obtain ⟨left, r₁, hleft, hat, hstore, hrun⟩ :=
    comes_inside h (fuel + l.turnsAfter count + 4 * l.body.size)
  have hturns : fuel + l.turns count = fuel + l.turnsAfter count + 4 * l.body.size + 2 := by
    rw [turns]
    omega
  rw [← hstore] at hvalues
  rw [hturns, hrun]
  exact repeats_of_follows hat.toCounting hvalues (follows_body hat hleft)

end CountedLoop

/-- A loop with a condition in its body, and something behind it. -/
def Setup.counted : Setup TextFilter ScriptMemories :=
  Setup.looping 2 [.directive "repeat" [], .literal "x", .directive "if" [.path ⟨["n"]⟩],
    .literal "hidden", .directive "endif" [], .directive "var" [.path ⟨["m"]⟩],
    .directive "again" [], .literal "after"]

namespace CountedLoop

/-- The loop of the template. -/
def counted : CountedLoop Setup.counted where
  before := []
  startArgs := []
  body := .literal "x" (.cond ⟨⟨["n"]⟩, rfl⟩ (.literal "hidden" .nil) (.var ⟨⟨["m"]⟩, rfl⟩ [] .nil))
  again := "again"
  againArgs := []
  more := [.literal "after"]
  times := 2
  code := rfl
  opens := rfl
  counts := rfl
  builtins name hname := by
    simp only [List.mem_cons, List.not_mem_nil, or_false] at hname
    rcases hname with rfl | rfl | rfl <;> rfl
  filters := rfl

/-- A loop that is begun while one of its variables is not there. -/
theorem restart_repeats_counted :
    counted.At (counted.entry {}) ({} : Collector) 2 (Render.knowing "n") ∧
    counted.Streamless (Render.knowing "n").store.resolve ∧
    counted.Repeats {} ({} : Collector) 2 1
      (Render.run Setup.counted (1 + counted.turns 2) .instruction (Render.knowing "n")) := by
  have hat : counted.At (counted.entry {}) ({} : Collector) 2 (Render.knowing "n") :=
    ⟨⟨rfl, rfl, rfl, List.not_mem_nil⟩, rfl, rfl⟩
  have hvalues : counted.Streamless (Render.knowing "n").store.resolve := by
    intro path hpath value hvalue
    change path ∈ [(⟨["n"]⟩ : Path), ⟨["m"]⟩] at hpath
    obtain rfl | rfl : path = ⟨["n"]⟩ ∨ path = ⟨["m"]⟩ := by simpa using hpath
    · obtain rfl := Option.some.inj hvalue
      exact nofun
    · cases hvalue
  exact ⟨hat, hvalues, restart_repeats hat hvalues 1⟩

example : ∃ r : Render TextFilter Collector ScriptMemories,
    HostCall.runAll Setup.counted 80
        [.set ⟨["n"]⟩ .null, .attach {}, .set ⟨["m"]⟩ (.str "a")] (Render.fresh []) =
      some ([.ok (), .ok (), .ok ()], r) ∧
    r.sink = some ⟨["x", "a", "x", "a", "x", "a", "after"], true⟩ ∧ r.blocks = {} :=
  ⟨_, rfl, rfl, rfl⟩

end CountedLoop

end StreamingTemplate

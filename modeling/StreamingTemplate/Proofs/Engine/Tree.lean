import StreamingTemplate.Proofs.Engine.Builtin
import StreamingTemplate.Proofs.Engine.History

/-!
# Templates as trees

A template in which every `if` has its `endif` is a tree. `Tree.render` is its meaning, by recursion
on the tree: a condition shows its body or not, and a variable that is not there blocks everything
behind it. A render of the flat template comes to the same (`walk_flatten`).

The flat template finds the end of a hidden block by the depth of blocks alone. That this is the
right end is `walk_flatten_skipping`; it is carried by the depth at which the skipping started,
which no block inside goes below.
-/

namespace StreamingTemplate

/-! ## Filters that can be constructed

A tree is to hold only what a render can do, so the filters in it are data of their own:
`TreeFilter` has one constructor for each filter of the registry, with the arguments that this
filter takes. Nothing is lost by that, since every specification the registry accepts comes from
one of them (`TreeFilter.exists_spec_eq`). -/

/-- A literal that can surround a text. -/
inductive Surround where
  | num (x : Binary64)
  | str (s : String)

namespace Surround

def literal : Surround → Literal
  | .num x => .num x
  | .str s => .str s

def text (s : Surround) : String := s.literal.text

/-- A literal that can surround a text is accepted as an argument of the filter that wraps, and no
other is (`exists_literal_eq`): a truth value is refused. -/
theorem wrapText_literal (s : Surround) : TextFilter.wrapText s.literal = .ok s.text := by
  cases s <;> rfl

theorem exists_literal_eq {arg : Literal} {text : String} (h : TextFilter.wrapText arg = .ok text) :
    ∃ s : Surround, s.literal = arg := by
  cases arg with
  | bool b => cases h
  | num x => exact ⟨.num x, rfl⟩
  | str s => exact ⟨.str s, rfl⟩

end Surround

/-- A filter that the built-in registry accepts. -/
inductive TreeFilter where
  | uppercase (args : List Literal)
  | wrap (before after : Surround)

namespace TreeFilter

def spec : TreeFilter → FilterSpec
  | .uppercase args => ⟨"uppercase", args⟩
  | .wrap before after => ⟨"wrap", [before.literal, after.literal]⟩

/-- What a filter makes of chunks. -/
def apply (chunks : List String) : TreeFilter → List String
  | .uppercase _ => chunks.map Text.uppercase
  | .wrap before after => [before.text] ++ chunks ++ [after.text]

/-- What filters make of chunks, from left to right. -/
def applyAll (filters : List TreeFilter) (chunks : List String) : List String :=
  filters.foldl apply chunks

/-- The stage that is constructed. -/
def stage : TreeFilter → TextFilter
  | .uppercase _ => .uppercase
  | .wrap before after => .wrap before.text after.text false

/-- A filter of a tree is constructed as the stage that does what the filter says. -/
theorem stage_spec (f : TreeFilter) :
    (TextFilter.registry id).stage f.spec = .ok f.stage := by
  cases f with
  | uppercase args => rfl
  | wrap before after =>
    have hargs : TextFilter.ofWrapArgs [before.literal, after.literal] =
        .ok (.wrap before.text after.text false) := by
      rw [TextFilter.ofWrapArgs, before.wrapText_literal, after.wrapText_literal]
    exact congrArg (Except.map id) hargs

/-- Arguments that the wrapping filter accepts are two, and both can surround a text. -/
theorem exists_wrap_eq {args : List Literal} {stage : TextFilter}
    (h : TextFilter.ofWrapArgs args = .ok stage) :
    ∃ before after : Surround, [before.literal, after.literal] = args := by
  unfold TextFilter.ofWrapArgs at h
  split at h
  · rename_i before after
    split at h
    · rename_i hbefore hafter
      obtain ⟨s, rfl⟩ := Surround.exists_literal_eq hbefore
      obtain ⟨t, rfl⟩ := Surround.exists_literal_eq hafter
      exact ⟨s, t, rfl⟩
    · cases h
    · cases h
  · cases h

/-- **Every filter that can be constructed** is one of these. -/
theorem exists_spec_eq {spec : FilterSpec} {stage : TextFilter}
    (h : (TextFilter.registry id).stage spec = .ok stage) : ∃ f : TreeFilter, f.spec = spec := by
  obtain ⟨name, args⟩ := spec
  rw [FilterRegistry.stage] at h
  simp only [TextFilter.registry, FilterRegistry.register, FilterRegistry.empty] at h
  by_cases hwrap : name = "wrap"
  · rw [if_pos hwrap] at h
    rcases hargs : TextFilter.ofWrapArgs args with err | stage' <;> simp only [hargs] at h
    · cases h
    · obtain ⟨before, after, rfl⟩ := exists_wrap_eq hargs
      exact ⟨.wrap before after, hwrap ▸ rfl⟩
  · rw [if_neg hwrap] at h
    by_cases hupper : name = "uppercase"
    · exact ⟨.uppercase args, hupper ▸ rfl⟩
    · rw [if_neg hupper] at h
      cases h

/-- All filters of a variable are constructed, in order. -/
theorem stages_spec (filters : List TreeFilter) :
    (TextFilter.registry id).stages (filters.map spec) = .ok (filters.map stage) := by
  induction filters with
  | nil => rfl
  | cons f rest ih =>
    rw [List.map_cons, FilterRegistry.stages, stage_spec, ih]
    rfl

/-- What the stages of a variable do to chunks that are fed to them with the end behind, as a
function of the filters. The stage that wraps has put its first text out with the first chunk, or
with the end. -/
theorem transformAll_stage (filters : List TreeFilter) (chunks : List String) :
    TextFilter.transformAll (filters.map stage) chunks = applyAll filters chunks := by
  induction filters generalizing chunks with
  | nil => rfl
  | cons f rest ih =>
    cases f with
    | uppercase args => exact ih _
    | wrap before after => exact ih _

end TreeFilter

/-! ## Trees

Every node holds the template behind it, so that recursion on a tree reads the template from
front to back, as the engine does. `Tree.flatten` forgets the nesting and `Tree.render` gives the
meaning; the rest of the module shows that the flat template has that meaning. -/

/-- A path with a first segment. -/
abbrev VarPath := { path : Path // path.isEmpty = false }

/-- A template in which blocks are nested: each node is followed by the rest of the template. -/
inductive Tree where
  | nil
  | literal (text : String) (rest : Tree)
  | var (path : VarPath) (filters : List TreeFilter) (rest : Tree)
  | cond (path : VarPath) (body rest : Tree)

/-- What a template comes to. -/
structure Rendering where
  chunks : List String := []
  /-- the values that were emitted -/
  shown : List Value := []
  /-- the variable that is not there, and the index of the directive that wants it -/
  blocked : Option (Path × Nat) := none

namespace Rendering

/-- What comes to nothing is not rendered behind a missing variable. -/
def andThen (first second : Rendering) : Rendering :=
  match first.blocked with
  | some _ => first
  | none => ⟨first.chunks ++ second.chunks, first.shown ++ second.shown, second.blocked⟩

end Rendering

namespace Tree

/-- The instructions of a tree. -/
def flatten : Tree → List Instruction
  | nil => []
  | literal text rest => .literal text :: rest.flatten
  | var path filters rest =>
    .directive "var" (.path path.1 :: filters.map (.filter ·.spec)) :: rest.flatten
  | cond path body rest =>
    .directive "if" [.path path.1] :: body.flatten ++ .directive "endif" [] :: rest.flatten

/-- The number of instructions. -/
def size : Tree → Nat
  | nil => 0
  | literal _ rest => rest.size + 1
  | var _ _ rest => rest.size + 1
  | cond _ body rest => body.size + rest.size + 2

/-- The rendering of a tree whose first instruction has an index. -/
def render (look : Path → Option Value) (index : Nat) : Tree → Rendering
  | nil => {}
  | literal text rest => Rendering.andThen { chunks := [text] } (rest.render look (index + 1))
  | var path filters rest =>
    match look path.1 with
    | none => { blocked := some (path.1, index) }
    | some value =>
      Rendering.andThen { chunks := TreeFilter.applyAll filters [value.text], shown := [value] }
        (rest.render look (index + 1))
  | cond path body rest =>
    match look path.1 with
    | none => { blocked := some (path.1, index) }
    | some value =>
      (if value.isTruthy then body.render look (index + 1) else {}).andThen
        (rest.render look (index + body.size + 2))

/-- The size of a tree counts its instructions, both ends of a block among them. -/
theorem length_flatten (tree : Tree) : tree.flatten.length = tree.size := by
  induction tree with
  | nil => rfl
  | literal text rest ih | var path filters rest ih => simp [flatten, size, ih]
  | cond path body rest ihbody ih =>
    simp [flatten, size, ihbody, ih]
    omega

end Tree

/-! ## The walk through a flat template

`walk` is what a render with the built-in directives does while nothing interrupts it, as a
function of the instructions that are left. A tree in front of more instructions takes it
`tree.size` instructions further, at the same depth of blocks and with the same skip state as
before; this is what the induction over trees carries, for hidden trees (`walk_flatten_skipping`)
and for those that show (`walk_flatten`). -/

namespace Place

/-- The place some instructions further on, with the same blocks. -/
def further (count : Nat) (p : Place) : Place := { p with cursor := p.cursor + count }

theorem further_next (count : Nat) (p : Place) : p.next.further count = p.further (count + 1) :=
  congrArg (Place.mk · p.blocks p.skip) (Nat.add_right_comm p.cursor 1 count)

theorem further_further (first second : Nat) (p : Place) :
    (p.further first).further second = p.further (first + second) :=
  congrArg (Place.mk · p.blocks p.skip) (Nat.add_assoc p.cursor first second)

theorem pathArg_varPath (name : String) (path : VarPath) (args : List Argument) :
    pathArg name (.path path.1 :: args) 0 = .ok path.1 := by
  simp [pathArg, path.2]

theorem filterSpecs_path (path : Path) (filters : List TreeFilter) :
    filterSpecs (.path path :: filters.map (.filter ·.spec)) = filters.map TreeFilter.spec := by
  rw [filterSpecs, List.filterMap_cons, List.filterMap_map]
  exact congrFun List.filterMap_eq_map filters

/-- A variable asks for its path unless output is suppressed, -/
theorem directive_var (p : Place) (path : VarPath) (filters : List TreeFilter) :
    p.directive "var" (.path path.1 :: filters.map (.filter ·.spec)) =
      if p.skip.isSkipping then .passed p.next
      else .asks p.next path.1 (.shown (filters.map TreeFilter.stage)) := by
  rw [directive, if_pos rfl, pathArg_varPath, filterSpecs_path, TreeFilter.stages_spec]

/-- and so does a condition, which opens its block in either case. -/
theorem directive_if (p : Place) (path : VarPath) :
    p.directive "if" [.path path.1] =
      if p.skip.isSkipping then .passed p.opened else .asks p.opened path.1 .condition := by
  rw [directive, if_neg (by decide), if_neg (by decide), if_pos rfl, pathArg_varPath]

/-- The `endif` of a block leads out of it. -/
theorem directive_endif (p : Place) (count : Nat) (skip : SkipState) :
    directive { p.opened.further count with skip } "endif" [] =
      .passed { p.further (count + 2) with skip := skip.afterClose p.blocks.depth } := by
  rw [directive, if_neg (by decide), if_pos rfl]
  have hcursor : p.cursor + 1 + count + 1 = p.cursor + (count + 2) := by omega
  simp [opened, further, next, hcursor]

end Place

open StreamingTemplate.Tree

variable {look : Path → Option Value}

/-- The walk behind the `endif` of a block, seen from the place in front of its `if`. -/
theorem walk_endif (look : Path → Option Value) (p : Place) (count : Nat) (skip : SkipState)
    (more : List Instruction) :
    walk look { p.opened.further count with skip } (.directive "endif" [] :: more) =
      walk look { p.further (count + 2) with skip := skip.afterClose p.blocks.depth } more := by
  rw [walk, Place.directive_endif]

/-- **Hidden blocks.** While output is suppressed, the walk passes a tree by, if the skipping
started no deeper than the blocks around it. Blocks inside of the tree are deeper than that, so
none of their ends is taken for the end of the skipping. -/
theorem walk_flatten_skipping (tree : Tree) {p : Place} {depth : Nat}
    (hskip : p.skip = .since depth)
    (hdepth : depth ≤ p.blocks.depth) (more : List Instruction) :
    walk look p (tree.flatten ++ more) = walk look (p.further tree.size) more := by
  induction tree generalizing p more with
  | nil => rfl
  | literal text rest ih =>
    rw [flatten, List.cons_append, walk, hskip, size, ← Place.further_next]
    exact ih (p := p.next) hskip hdepth more
  | var path filters rest ih =>
    rw [flatten, List.cons_append, walk, Place.directive_var, hskip, size, ← Place.further_next]
    exact ih (p := p.next) hskip hdepth more
  | cond path body rest ihbody ih =>
    have hend := walk_endif look p body.size p.skip (rest.flatten ++ more)
    rw [hskip, SkipState.afterClose, if_neg (Nat.not_lt.mpr hdepth), ← hskip] at hend
    rw [flatten, List.append_assoc, List.cons_append, walk, Place.directive_if, hskip]
    -- the `endif` inside does not end the skipping, which has started further out
    refine (ihbody (p := p.opened) hskip (Nat.le_succ_of_le hdepth) _).trans (hend.trans ?_)
    refine (ih (p := p.further (body.size + 2)) hskip hdepth more).trans ?_
    rw [Place.further_further, size, Nat.add_right_comm]

namespace Rendering

/-- Whether a walk is what a rendering says, and goes on behind it if nothing blocks it. -/
def Describes (R : Rendering) (w : Walk) (onward : Walk) : Prop :=
  match R.blocked with
  | none => w = onward.after R.chunks
  | some (path, index) => ∃ place question,
      w = ⟨R.chunks, place, .waits path index question⟩ ∧ place.cursor = index + 1

/-- Descriptions are put together as renderings are. If the first one blocks, the walk never
reaches the second, and nothing has to be known of it. -/
theorem Describes.andThen {first second : Rendering} {w middle onward : Walk}
    (hfirst : first.Describes w middle)
    (hsecond : first.blocked = none → second.Describes middle onward) :
    (first.andThen second).Describes w onward := by
  unfold Describes Rendering.andThen at *
  rcases hblocked : first.blocked with _ | ⟨path, index⟩ <;> rw [hblocked] at hfirst
  · dsimp only at hfirst ⊢
    specialize hsecond hblocked
    rcases hblocked' : second.blocked with _ | ⟨path, index⟩ <;> rw [hblocked'] at hsecond
    · dsimp only at hsecond ⊢
      rw [hfirst, hsecond, Walk.after_after]
    · obtain ⟨place, question, rfl, hcursor⟩ := hsecond
      exact ⟨place, question, hfirst, hcursor⟩
  · dsimp only
    rwa [hblocked]

/-- What the first part has shown is among what both have shown, -/
theorem shown_andThen_left {first second : Rendering} {value : Value} (h : value ∈ first.shown) :
    value ∈ (first.andThen second).shown := by
  rw [andThen]
  split
  · exact h
  · exact List.mem_append_left _ h

/-- and so is what the second has, if it is reached. -/
theorem shown_andThen_right {first second : Rendering} {value : Value}
    (hblocked : first.blocked = none) (h : value ∈ second.shown) :
    value ∈ (first.andThen second).shown := by
  rw [andThen, hblocked]
  exact List.mem_append_right _ h

end Rendering

/-- **The flat template.** From a place where nothing is suppressed, the walk through the
instructions of a tree is what the rendering of the tree says. By induction on the tree: a
literal and a variable are one step of the walk, a condition is two trees with an `endif` between
them. -/
theorem walk_flatten (tree : Tree) {p : Place} (hskip : p.skip = .notSkipping)
    (hshown : ∀ value ∈ (tree.render look p.cursor).shown, ∀ id, value ≠ .stream id)
    (more : List Instruction) :
    (tree.render look p.cursor).Describes (walk look p (tree.flatten ++ more))
      (walk look (p.further tree.size) more) := by
  induction tree generalizing p more with
  | nil => exact rfl
  | literal text rest ih =>
    rw [flatten, List.cons_append, walk, hskip, size, ← Place.further_next]
    exact Rendering.Describes.andThen rfl fun _ => ih (p := p.next) hskip
      (fun value hvalue => hshown value (Rendering.shown_andThen_right rfl hvalue)) more
  | var path filters rest ih =>
    have hasks := p.directive_var path filters
    rw [hskip, if_neg (by decide)] at hasks
    rw [flatten, List.cons_append, size, ← Place.further_next]
    rw [render] at hshown ⊢
    rcases hvalue : look path.1 with _ | value <;> rw [hvalue] at hshown
    · rw [walk_asks_none hasks hvalue]
      exact ⟨p.next, _, rfl, rfl⟩
    · have hstream := hshown value (Rendering.shown_andThen_left (List.mem_singleton_self value))
      rw [walk_asks_some hasks hvalue, Question.onward_shown hstream, TreeFilter.transformAll_stage]
      exact Rendering.Describes.andThen rfl fun _ => ih (p := p.next) hskip
        (fun value hvalue => hshown value (Rendering.shown_andThen_right rfl hvalue)) more
  | cond path body rest ihbody ih =>
    have hasks := p.directive_if path
    rw [hskip, if_neg (by decide)] at hasks
    rw [flatten, List.append_assoc, List.cons_append]
    rw [render] at hshown ⊢
    rcases hvalue : look path.1 with _ | value <;> rw [hvalue] at hshown
    · rw [List.cons_append, walk_asks_none hasks hvalue]
      exact ⟨p.opened, _, rfl, rfl⟩
    -- hidden or not, the body ends at its own `endif`, where the skip state is what it was before
    · have hbody : (if value.isTruthy then body.render look (p.cursor + 1) else {}).Describes
          (walk look (if value.isTruthy then p.opened else p.opened.skipped)
            (body.flatten ++ .directive "endif" [] :: (rest.flatten ++ more)))
          (walk look (p.further (body.size + 2)) (rest.flatten ++ more)) := by
        cases htruthy : value.isTruthy
        · have hend := walk_endif look p body.size (.since (p.blocks.depth + 1))
            (rest.flatten ++ more)
          rw [SkipState.afterClose, if_pos (Nat.lt_succ_self _), ← hskip] at hend
          exact (walk_flatten_skipping body (p := p.opened.skipped) rfl (Nat.le_refl _) _).trans
            hend
        · have hend := walk_endif look p body.size p.skip (rest.flatten ++ more)
          rw [hskip, SkipState.afterClose, ← hskip] at hend
          simp only [htruthy, if_true] at hshown
          have hinner := ihbody (p := p.opened) hskip
            (fun value hvalue => hshown value (Rendering.shown_andThen_left hvalue))
            (.directive "endif" [] :: (rest.flatten ++ more))
          rw [show walk look (p.opened.further body.size) _ = _ from hend] at hinner
          exact hinner
      have hplace : (p.further (body.size + 2)).further rest.size =
          p.further (cond path body rest).size := by
        rw [Place.further_further, size, Nat.add_right_comm]
      rw [List.cons_append, walk_asks_some hasks hvalue, Question.onward_condition, ← hplace]
      exact hbody.andThen fun hblocked => ih (p := p.further (body.size + 2)) hskip
        (fun value hvalue => hshown value (Rendering.shown_andThen_right hblocked hvalue)) more

/-! ## Rendering a tree

The walk is what a run of the engine does with the built-in directives, so the statement about
walks becomes one about renders. A walk that reaches the end of the template completes the render
and closes the sink; one that waits leaves the render suspended. -/

variable {κ μ : Type} [OutputSink κ] [SteadySink κ]

/-- **A render is the rendering of its tree.** The sink is attached to a render that has been given
variables, none of which is shown while it is a stream. If nothing blocks the rendering, the render
is done behind the last instruction, with no open block, and the sink is closed. Otherwise it waits
for the first variable that is not there, on behalf of the directive that wants it. In both cases
the sink has taken the chunks of the rendering, one by one. -/
theorem attach_tree (tree : Tree) (settings : RenderSettings) (sink : κ) (memory : μ)
    (store : Store Waiter) (answers : List (String × Value)) (lines : Lines) (clock : Instant)
    {fuel : Nat} (hfuel : 4 * tree.size + 1 ≤ fuel)
    (hshown : ∀ value ∈ (tree.render store.resolve 0).shown, ∀ id, value ≠ .stream id) :
    ∃ r : Render TextFilter κ μ,
      Render.attach (Setup.builtin ⟨tree.flatten⟩ settings) fuel sink
          { Render.fresh memory lines clock with store, answers } = some (.ok (), r) ∧
        match (tree.render store.resolve 0).blocked with
        | none =>
          r.status = .done ∧ r.cursor = tree.flatten.length ∧ r.blocks.depth = 0 ∧
            r.skip = .notSkipping ∧ r.store = store ∧
            r.sink = some (OutputSink.close
              (OutputSink.deliver sink (tree.render store.resolve 0).chunks)).1
        | some (path, index) =>
          r.status = .suspended (.variable path index clock) ∧ r.cursor = index + 1 ∧
            r.store = store.subscribe path .engine ∧
            r.sink = some (OutputSink.deliver sink (tree.render store.resolve 0).chunks) := by
  have hdescribes : (tree.render store.resolve 0).Describes
      (walk store.resolve {} tree.flatten) ⟨[], Place.further tree.size {}, .done⟩ := by
    have := walk_flatten tree (p := {}) rfl hshown []
    rwa [List.append_nil] at this
  have hfuel : 4 * tree.flatten.length + 1 ≤ fuel := by rwa [length_flatten]
  rw [Rendering.Describes] at hdescribes
  rcases hblocked : (tree.render store.resolve 0).blocked with _ | ⟨path, index⟩ <;>
    rw [hblocked] at hdescribes <;> dsimp only at hdescribes ⊢
  · obtain ⟨lines', hattach⟩ := Render.attach_walk ⟨tree.flatten⟩ settings sink
      (r := { (Render.fresh memory lines clock : Render TextFilter κ μ) with store, answers })
      rfl List.drop_zero rfl hfuel hdescribes nofun
    refine ⟨_, hattach, rfl, ?_, rfl, rfl, rfl, ?_⟩
    · rw [length_flatten]
      exact Nat.zero_add _
    · rw [Walk.chunks_after, List.append_nil]
      rfl
  · obtain ⟨place, question, hwalk, hcursor⟩ := hdescribes
    obtain ⟨lines', hattach⟩ := Render.attach_walk ⟨tree.flatten⟩ settings sink
      (r := { (Render.fresh memory lines clock : Render TextFilter κ μ) with store, answers })
      rfl List.drop_zero rfl hfuel hwalk nofun
    exact ⟨_, hattach, rfl, hcursor, rfl, rfl⟩

/-- A variable that is not there is not missed in a hidden block, and another one is missed behind
it. -/
theorem attach_tree_hidden : ∃ r : Render TextFilter Collector Unit,
    Render.attach (Setup.builtin
        ⟨[.directive "if" [.path ⟨["off"]⟩],
          .directive "var" [.path ⟨["x"]⟩],
          .directive "endif" [],
          .directive "var" [.path ⟨["name"]⟩, .filter ⟨"wrap", [.str "<", .str ">"]⟩],
          .directive "var" [.path ⟨["y"]⟩]]⟩ {}) 40 {}
        { Render.fresh () with store := { vars := [("off", .null), ("name", .str "a")] } } =
      some (.ok (), r) ∧
    r.status = .suspended (.variable ⟨["y"]⟩ 4 0) ∧
    r.sink = some { chunks := ["<", "a", ">"], closed := false } := by
  obtain ⟨r, hattach, hstatus, -, -, hsink⟩ := attach_tree
    (.cond ⟨⟨["off"]⟩, rfl⟩ (.var ⟨⟨["x"]⟩, rfl⟩ [] .nil)
      (.var ⟨⟨["name"]⟩, rfl⟩ [.wrap (.str "<") (.str ">")] (.var ⟨⟨["y"]⟩, rfl⟩ [] .nil)))
    {} ({} : Collector) () { vars := [("off", .null), ("name", .str "a")] } [] {} 0
    (show 4 * _ + 1 ≤ 40 by decide)
    (by
      intro value hvalue
      obtain rfl := List.mem_singleton.mp hvalue
      exact nofun)
  exact ⟨r, hattach, hstatus, hsink⟩

end StreamingTemplate

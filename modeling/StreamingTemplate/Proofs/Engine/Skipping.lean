import StreamingTemplate.Engine.Scripted
import StreamingTemplate.Proofs.Engine.Tree

/-!
# Hidden loops

A loop has two directives: `repeat` opens its block, and `again` closes or restarts the block when
its body runs, as its counter tells. While output is suppressed a block is still opened on reaching
the directive that opens it, but no body runs. So a loop in a hidden block opens a block that
nothing closes, and the end of the hidden block closes the loop instead.

`LoopTree` is a template of conditions and loops as a tree. `run_skipping` is the way through a tree
that is hidden, `run_falsy` the way from an `if` whose value is false to what is behind its `endif`:
the depth of blocks grows by the number of loops between them, and output stays suppressed behind
the block unless there is none.
-/

namespace StreamingTemplate

/-! ## Templates with loops

In a tree all conditions and loops are closed properly, so that whatever goes wrong in a hidden
one does not come from the template. Each loop in it, at any depth, leaves one block open when
the tree is hidden, and `leaves` says which. -/

/-- A template of conditions and loops; the counters say which directives end loops, and where they
start to count. -/
inductive LoopTree (counters : String → Option Nat) where
  | nil
  | literal (text : String) (rest : LoopTree counters)
  | cond (path : VarPath) (body rest : LoopTree counters)
  | loop (again : { name // (counters name).isSome }) (body rest : LoopTree counters)

namespace LoopTree

variable {counters : String → Option Nat}

/-- The instructions of a tree. -/
def flatten : LoopTree counters → List Instruction
  | nil => []
  | literal text rest => .literal text :: rest.flatten
  | cond path body rest =>
    .directive "if" [.path path.1] :: body.flatten ++ .directive "endif" [] :: rest.flatten
  | loop again body rest =>
    .directive "repeat" [] :: body.flatten ++ .directive again.1 [] :: rest.flatten

/-- The number of instructions. -/
def size : LoopTree counters → Nat
  | nil => 0
  | literal _ rest => rest.size + 1
  | cond _ body rest | loop _ body rest => body.size + rest.size + 2

/-- The number of loops, at any depth. -/
def loops : LoopTree counters → Nat
  | nil => 0
  | literal _ rest => rest.loops
  | cond _ body rest => body.loops + rest.loops
  | loop _ body rest => body.loops + rest.loops + 1

/-- The blocks that are open behind a hidden tree, if its first instruction has an index. -/
def leaves (index : Nat) (blocks : BlockStack) : LoopTree counters → BlockStack
  | nil => blocks
  | literal _ rest => rest.leaves (index + 1) blocks
  | cond _ body rest =>
    rest.leaves (index + body.size + 2) ⟨(body.leaves (index + 1) (blocks.push index)).frames.tail⟩
  | loop _ body rest =>
    rest.leaves (index + body.size + 2) (body.leaves (index + 1) (blocks.push index))

end LoopTree

/-- The directives of a template with loops are known. -/
structure LoopDirectives {σ : Type} (counters : String → Option Nat)
    (directives : DirectiveRegistry σ ScriptMemories) : Prop where
  ifBlock : directives.directive? "if" = some Directive.ifBlock
  endIf : directives.directive? "endif" = some Directive.endIf
  start : directives.directive? "repeat" =
    some (DirectiveScript.directive "repeat" { opensBlock := true })
  again : ∀ name times, counters name = some times →
    directives.directive? name = some (DirectiveScript.directive name { call := [.again], times })

namespace LoopTree

variable {counters : String → Option Nat}

/-- A hidden tree leaves as many more blocks open as it has loops. -/
theorem depth_leaves (tree : LoopTree counters) (index : Nat) (blocks : BlockStack) :
    (tree.leaves index blocks).depth = blocks.depth + tree.loops := by
  induction tree generalizing index blocks with
  | nil => rfl
  | literal text rest ih => exact ih _ _
  | cond path body rest ihbody ih =>
    have hbody := ihbody (index + 1) (blocks.push index)
    rw [BlockStack.depth_push] at hbody
    rw [leaves, loops, ih, BlockStack.depth, List.length_tail, ← BlockStack.depth, hbody]
    omega
  | loop again body rest ihbody ih =>
    rw [leaves, loops, ih, ihbody, BlockStack.depth_push]
    omega

/-- A hidden tree without loops leaves the blocks as they were. -/
theorem leaves_of_loops (tree : LoopTree counters) (index : Nat) (blocks : BlockStack)
    (h : tree.loops = 0) : tree.leaves index blocks = blocks := by
  induction tree generalizing index blocks with
  | nil => rfl
  | literal text rest ih => exact ih _ _ h
  | cond path body rest ihbody ih =>
    obtain ⟨hbody, hrest⟩ := Nat.add_eq_zero_iff.mp h
    rw [leaves, ihbody _ _ hbody, ih _ _ hrest]
    rfl
  | loop again body rest => exact absurd h (Nat.succ_ne_zero _)

end LoopTree

namespace Render

open LoopTree

variable {σ κ : Type} [FilterStage σ] [OutputSink κ] {counters : String → Option Nat}
  {setup : Setup σ ScriptMemories} {r : Render σ κ ScriptMemories}

/-! ## The way through a hidden tree

`behind` is the render behind a hidden tree, as a function of the render in front of it; the
equations with `behind_` take it through one constructor each. The induction is on the tree. Its
invariant is that the depth of the blocks does not fall below the one at which the skipping has
started: an `endif` in the tree finds a block of the tree, if not its own. -/

/-- The render behind a hidden tree. -/
def behind (tree : LoopTree counters) (r : Render σ κ ScriptMemories) :
    Render σ κ ScriptMemories :=
  { r with cursor := r.cursor + tree.size, blocks := tree.leaves r.cursor r.blocks }

/-- The render behind a directive that opens a block. -/
def opened (r : Render σ κ ScriptMemories) : Render σ κ ScriptMemories :=
  { r with cursor := r.cursor + 1, blocks := r.blocks.push r.cursor }

/-- The render behind the end of a hidden block. -/
def left (r : Render σ κ ScriptMemories) : Render σ κ ScriptMemories :=
  { r with cursor := r.cursor + 1, blocks := ⟨r.blocks.frames.tail⟩ }

/-- The render behind a directive that changes nothing. -/
def passed (r : Render σ κ ScriptMemories) : Render σ κ ScriptMemories :=
  { r with cursor := r.cursor + 1 }

omit [FilterStage σ] [OutputSink κ] in
/-- An `endif` leaves a block where one is open. -/
theorem reach_endIf {depth : Nat} (h : r.blocks.depth = depth + 1) :
    ∃ frame, reach Directive.endIf r.cursor r.passed =
      (.ok frame, { r.left with skip := r.skip.afterClose depth }) := by
  change ∃ frame, closeBlock r.cursor r.passed = _
  rw [closeBlock, BlockStack.pop?]
  rw [BlockStack.depth] at h
  rcases hframes : r.blocks.frames with _ | ⟨frame, rest⟩ <;> rw [hframes] at h
  · cases h
  · obtain rfl : rest.length = depth := Nat.succ.inj h
    refine ⟨frame, ?_⟩
    rw [show r.passed.blocks.frames = frame :: rest from hframes, left, hframes]
    rfl

/-- A hidden literal takes one turn. -/
theorem run_literal_hidden {text : String}
    (hget : setup.template.get? r.cursor = some (.literal text)) (hskip : r.skip.isSkipping = true)
    (fuel : Nat) :
    run setup (fuel + 1) .instruction r = run setup fuel .instruction r.passed :=
  run_next (by
    rw [turn, instructionTurn, hget]
    exact if_pos hskip)

omit [FilterStage σ] [OutputSink κ] in
/-- Behind a literal and the rest. -/
theorem behind_literal (text : String) (rest : LoopTree counters)
    (r : Render σ κ ScriptMemories) :
    r.passed.behind rest = r.behind (.literal text rest) := by
  simp only [behind, passed, size, leaves, Nat.add_right_comm _ 1, Nat.add_assoc]

omit [FilterStage σ] [OutputSink κ] in
/-- Behind a condition: in its block, behind its body, out of a block again. -/
theorem behind_cond (path : VarPath) (body rest : LoopTree counters)
    (r : Render σ κ ScriptMemories) :
    (r.opened.behind body).left.behind rest = r.behind (.cond path body rest) := by
  have hcursor : r.cursor + 1 + body.size + 1 = r.cursor + body.size + 2 := by omega
  have hsize : r.cursor + body.size + 2 + rest.size = r.cursor + (body.size + rest.size + 2) := by
    omega
  simp only [behind, opened, left, size, leaves, hcursor, hsize]

omit [FilterStage σ] [OutputSink κ] in
/-- Behind a loop: in its block, behind its body, and past the directive that should have closed
it. -/
theorem behind_loop (again : { name // (counters name).isSome }) (body rest : LoopTree counters)
    (r : Render σ κ ScriptMemories) :
    (r.opened.behind body).passed.behind rest = r.behind (.loop again body rest) := by
  have hcursor : r.cursor + 1 + body.size + 1 = r.cursor + body.size + 2 := by omega
  have hsize : r.cursor + body.size + 2 + rest.size = r.cursor + (body.size + rest.size + 2) := by
    omega
  simp only [behind, opened, passed, size, leaves, hcursor, hsize]

omit [FilterStage σ] [OutputSink κ] in
/-- In the block of a hidden condition or loop, behind its body. -/
theorem depth_behind_opened (body : LoopTree counters) (r : Render σ κ ScriptMemories) :
    (r.opened.behind body).blocks.depth = r.blocks.depth + body.loops + 1 := by
  have := body.depth_leaves (r.cursor + 1) (r.blocks.push r.cursor)
  rw [BlockStack.depth_push] at this
  exact this.trans (Nat.add_right_comm _ 1 _)

omit [FilterStage σ] [OutputSink κ] in
/-- Behind a hidden condition, one block is left for each loop in it. -/
theorem depth_left_behind (body : LoopTree counters) (r : Render σ κ ScriptMemories) :
    (r.opened.behind body).left.blocks.depth = r.blocks.depth + body.loops := by
  have := r.depth_behind_opened body
  rw [BlockStack.depth] at this
  rw [left, BlockStack.depth, List.length_tail, this, Nat.add_sub_cancel]

/-- **A hidden tree.** Each instruction is passed by in one turn, if the skipping started no deeper
than the blocks around the tree. -/
theorem run_skipping (hloops : LoopDirectives counters setup.directives)
    (tree : LoopTree counters) {depth : Nat} {more : List Instruction}
    (hcode : setup.template.instructions.drop r.cursor = tree.flatten ++ more)
    (hskip : r.skip = .since depth) (hdepth : depth ≤ r.blocks.depth) (fuel : Nat) :
    run setup (fuel + tree.size) .instruction r = run setup fuel .instruction (r.behind tree) ∧
      setup.template.instructions.drop (r.behind tree).cursor = more := by
  -- the depth never falls below that of the blocks around, so the skipping goes on throughout
  have hskipping : ∀ {r : Render σ κ ScriptMemories}, r.skip = .since depth →
      r.skip.isSkipping = true := fun hskip => by rw [hskip]; rfl
  induction tree generalizing r more fuel with
  | nil => exact ⟨rfl, hcode⟩
  | literal text rest ih =>
    obtain ⟨hget, hrest⟩ := getElem?_of_drop hcode
    rw [← behind_literal]
    obtain ⟨hrun, hmore⟩ := ih (r := r.passed) hrest hskip hdepth fuel
    exact ⟨(run_literal_hidden hget (hskipping hskip) _).trans hrun, hmore⟩
  | cond path body rest ihbody ih =>
    rw [flatten, List.append_assoc, List.cons_append] at hcode
    obtain ⟨hget, hbody⟩ := getElem?_of_drop hcode
    obtain ⟨hrunbody, hend⟩ := ihbody (r := r.opened) hbody hskip (Nat.le_succ_of_le hdepth)
      (fuel + rest.size + 1)
    obtain ⟨hgetend, hrest⟩ := getElem?_of_drop hend
    have hopen := run_passedBy r.opened hget hloops.ifBlock rfl (hskipping hskip)
      (fuel + rest.size + 1 + body.size)
    obtain ⟨frame, hreach⟩ := reach_endIf (r.depth_behind_opened body)
    have hafter :
        (r.opened.behind body).skip.afterClose (r.blocks.depth + body.loops) = r.skip := by
      change r.skip.afterClose _ = _
      rw [hskip]
      exact if_neg (by omega)
    rw [hafter] at hreach
    have hclose := run_passedBy _ hgetend hloops.endIf hreach (hskipping hskip)
      (fuel + rest.size)
    have hleft := r.depth_left_behind body
    obtain ⟨hrun, hmore⟩ := ih (r := (r.opened.behind body).left) hrest hskip (by omega) fuel
    have hfuel : fuel + (cond path body rest).size = fuel + rest.size + 1 + body.size + 1 := by
      rw [size]
      omega
    rw [← behind_cond, hfuel]
    exact ⟨hopen.trans (hrunbody.trans (hclose.trans hrun)), hmore⟩
  | loop again body rest ihbody ih =>
    rw [flatten, List.append_assoc, List.cons_append] at hcode
    obtain ⟨hget, hbody⟩ := getElem?_of_drop hcode
    obtain ⟨hrunbody, hend⟩ := ihbody (r := r.opened) hbody hskip (Nat.le_succ_of_le hdepth)
      (fuel + rest.size + 1)
    obtain ⟨hgetend, hrest⟩ := getElem?_of_drop hend
    obtain ⟨times, htimes⟩ := Option.isSome_iff_exists.mp again.2
    have hopen := run_passedBy r.opened hget hloops.start rfl (hskipping hskip)
      (fuel + rest.size + 1 + body.size)
    have hpass := run_passedBy (r.opened.behind body).passed hgetend
      (hloops.again _ _ htimes) rfl (hskipping hskip) (fuel + rest.size)
    have hpassed : (r.opened.behind body).passed.blocks.depth = r.blocks.depth + body.loops + 1 :=
      r.depth_behind_opened body
    obtain ⟨hrun, hmore⟩ := ih (r := (r.opened.behind body).passed) hrest hskip (by omega) fuel
    have hfuel : fuel + (loop again body rest).size = fuel + rest.size + 1 + body.size + 1 := by
      rw [size]
      omega
    rw [← behind_loop, hfuel]
    exact ⟨hopen.trans (hrunbody.trans (hpass.trans hrun)), hmore⟩

/-! ## The way past a false condition

With its value at hand, an `if` hides its block in four turns, the tree in it is passed by, and
the `endif` closes the innermost open block. That one is the condition's own only if there is no
loop in the tree. -/

/-- An `if` whose value is there and is false hides what is behind it, in four turns. -/
theorem run_if_falsy (hloops : LoopDirectives counters setup.directives) {path : VarPath}
    {value : Value} (hget : setup.template.get? r.cursor = some (.directive "if" [.path path.1]))
    (hskip : r.skip = .notSkipping) (hvalue : r.store.resolve path.1 = some value)
    (hfalsy : value.isTruthy = false) (fuel : Nat) :
    run setup (fuel + 4) .instruction r = run setup fuel .instruction r.opened.skipBlock := by
  have hshown : r.opened.skip.isSkipping = false := by
    rw [show r.opened.skip = _ from hskip]
    rfl
  have hcall : perform setup (fuel + 3) (Directive.ifBlock.call [.path path.1]) r.opened =
      some (.ok (.await path.1), r.opened) := by
    dsimp only [Directive.ifBlock]
    rw [Place.pathArg_varPath]
    rfl
  have hresume : perform setup (fuel + 1) (Directive.ifBlock.resume [.path path.1] value) r.opened =
      some (.ok .advance, r.opened.skipBlock) := by
    simp only [Directive.ifBlock, hfalsy]
    rfl
  have hcalled := run_called hget hloops.ifBlock rfl hshown hcall
  have hresolved : run setup (fuel + 3) (.flow r.cursor (.await path.1)) r.opened =
      run setup (fuel + 2) (.resume r.cursor value) r.opened := run_await_some hvalue
  have hresumed := run_resumed hget hloops.ifBlock hresume
  exact hcalled.trans (hresolved.trans (hresumed.trans (run_next rfl)))

/-- An `endif` that ends the skipping takes two turns, and one that does not takes one. -/
theorem run_endIf (hloops : LoopDirectives counters setup.directives) {depth : Nat}
    (hget : setup.template.get? r.cursor = some (.directive "endif" []))
    (hblocks : r.blocks.depth = depth + 1) :
    ∃ turns, ∀ fuel, run setup (fuel + turns) .instruction r =
      run setup fuel .instruction { r.left with skip := r.skip.afterClose depth } := by
  obtain ⟨frame, hreach⟩ := reach_endIf hblocks
  cases hskip : (r.skip.afterClose depth).isSkipping with
  | true => exact ⟨1, run_passedBy _ hget hloops.endIf hreach hskip⟩
  | false =>
    exact ⟨2, fun fuel => (run_called hget hloops.endIf hreach hskip rfl).trans (run_next rfl)⟩

/-- **Past a false condition.** A render that reaches an `if` whose value is false comes to what is
behind its `endif`, with all it had emitted and remembered. It has more open blocks than before, one
for each loop in between, and goes on skipping, unless there is no loop in between. -/
theorem run_falsy (hloops : LoopDirectives counters setup.directives) {path : VarPath}
    {body : LoopTree counters} {more : List Instruction} {value : Value}
    (hcode : setup.template.instructions.drop r.cursor =
      .directive "if" [.path path.1] :: (body.flatten ++ .directive "endif" [] :: more))
    (hskip : r.skip = .notSkipping) (hvalue : r.store.resolve path.1 = some value)
    (hfalsy : value.isTruthy = false) :
    ∃ turns blocks skip,
      (∀ fuel, run setup (fuel + turns) .instruction r =
        run setup fuel .instruction { r with cursor := r.cursor + body.size + 2, blocks, skip }) ∧
      blocks.depth = r.blocks.depth + body.loops ∧
      skip = (if body.loops = 0 then .notSkipping else .since (r.blocks.depth + 1)) ∧
      (blocks = r.blocks ∧ skip = r.skip ↔ body.loops = 0) := by
  obtain ⟨hget, hbody⟩ := getElem?_of_drop hcode
  have hhidden := fun fuel => run_skipping (r := r.opened.skipBlock) hloops body hbody rfl
    (Nat.le_refl _) fuel
  obtain ⟨hgetend, hmore⟩ := getElem?_of_drop (hhidden 0).2
  obtain ⟨turns, hend⟩ := run_endIf (r := r.opened.skipBlock.behind body) hloops hgetend
    (r.depth_behind_opened body)
  -- the skipping ends with the block at which it has started, and with no deeper one
  have hafter : SkipState.afterClose (r.blocks.depth + body.loops) (.since (r.blocks.depth + 1)) =
      if body.loops = 0 then .notSkipping else .since (r.blocks.depth + 1) := by
    rw [SkipState.afterClose]
    split <;> split <;> first | rfl | omega
  have hcursor : r.cursor + 1 + body.size + 1 = r.cursor + body.size + 2 := by omega
  have hdepth := r.depth_left_behind body
  refine ⟨turns + body.size + 4, (r.opened.behind body).left.blocks, _, fun fuel => ?_, hdepth,
    rfl, ?_⟩
  · have hrun := (run_if_falsy hloops hget hskip hvalue hfalsy (fuel + turns + body.size)).trans
      ((hhidden (fuel + turns)).1.trans (hend fuel))
    have hfuel : fuel + (turns + body.size + 4) = fuel + turns + body.size + 4 := by omega
    rw [← hafter, ← hcursor, hfuel]
    exact hrun
  · constructor
    · rintro ⟨hblocks, -⟩
      rw [hblocks] at hdepth
      omega
    · intro hnone
      refine ⟨?_, (if_pos hnone).trans hskip.symm⟩
      rw [left, behind, leaves_of_loops _ _ _ hnone]
      rfl

end Render

/-! ## One pair of directives

The general result is about directives that behave like a pair for loops. Here is one such pair,
and a template with it on which the difference shows. -/

/-- The built-in directives and a pair for loops. -/
def Directive.loops {σ : Type} (times : Nat) : DirectiveRegistry σ ScriptMemories :=
  (Directive.builtins.register "repeat"
      (DirectiveScript.directive "repeat" { opensBlock := true })).register "again"
    (DirectiveScript.directive "again" { call := [.again], times })

/-- The pair is known under its names, with one counter for all loops. -/
theorem loopDirectives_loops {σ : Type} (times : Nat) :
    LoopDirectives (σ := σ) (fun name => if name = "again" then some times else none)
      (Directive.loops times) where
  ifBlock := rfl
  endIf := rfl
  start := rfl
  again name times' h := by
    split at h
    · subst name
      obtain rfl := Option.some.inj h
      rfl
    · cases h

/-- What a render of a template with loops is given. -/
def Setup.looping (times : Nat) (instructions : List Instruction) :
    Setup TextFilter ScriptMemories where
  template := ⟨instructions⟩
  directives := Directive.loops times
  filters := TextFilter.registry id

/-- Two conditions, one in the other. -/
def Setup.nested : Setup TextFilter ScriptMemories :=
  Setup.looping 2 [.directive "if" [.path ⟨["n"]⟩], .literal "x", .directive "if" [.path ⟨["m"]⟩],
    .directive "endif" [], .directive "endif" [], .literal "after"]

/-- A render that runs and knows one variable, which is false as a condition. -/
def Render.knowing (path : String) : Render TextFilter Collector ScriptMemories :=
  { (fresh [] : Render TextFilter Collector ScriptMemories) with
    store := { vars := [(path, .num (.zero false))] }, sink := some {}, status := .running }

/-- A false condition without a loop in it: the render goes on as if it had been behind it from the
start. -/
theorem Render.run_falsy_nested :
    ∃ turns, ∀ fuel, run Setup.nested (fuel + turns) .instruction (knowing "n") =
      run Setup.nested fuel .instruction { knowing "n" with cursor := 5 } := by
  let body : LoopTree fun name => if name = "again" then some 2 else none :=
    .literal "x" (.cond ⟨⟨["m"]⟩, rfl⟩ .nil .nil)
  have hcode : Setup.nested.template.instructions.drop (knowing "n").cursor =
      .directive "if" [.path (⟨⟨["n"]⟩, rfl⟩ : VarPath).1] ::
        (body.flatten ++ .directive "endif" [] :: [.literal "after"]) := rfl
  obtain ⟨turns, blocks, skip, hrun, -, -, hsame⟩ :=
    run_falsy (loopDirectives_loops 2) hcode rfl rfl rfl
  obtain ⟨rfl, rfl⟩ := hsame.mpr rfl
  exact ⟨turns, hrun⟩

/-- A loop in a false condition: nothing behind the `endif` comes out, where the template without
the condition emits all of it. A block stays open, and output stays suppressed. -/
theorem Render.falsy_loop_hides_rest :
    (∃ r : Render TextFilter Collector ScriptMemories,
      HostCall.runAll
          (Setup.looping 2 [.directive "if" [.path ⟨["n"]⟩], .directive "repeat" [], .literal "x",
            .directive "again" [], .directive "endif" [], .literal "after"])
          20 [.set ⟨["n"]⟩ (.num (.zero false)), .attach {}] (fresh []) =
        some ([.ok (), .ok ()], r) ∧
      r.status = .done ∧ r.sink = some ⟨[], true⟩ ∧ r.blocks.depth = 1 ∧ r.skip = .since 1) ∧
    ∃ r : Render TextFilter Collector ScriptMemories,
      HostCall.runAll (Setup.looping 2 [.literal "after"])
          20 [.set ⟨["n"]⟩ (.num (.zero false)), .attach {}] (fresh []) =
        some ([.ok (), .ok ()], r) ∧
      r.status = .done ∧ r.sink = some ⟨["after"], true⟩ ∧ r.blocks.depth = 0 ∧
        r.skip = .notSkipping :=
  ⟨⟨_, rfl, rfl, rfl, rfl, rfl⟩, _, rfl, rfl, rfl, rfl, rfl⟩

end StreamingTemplate

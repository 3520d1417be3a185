import Mathlib.Algebra.Ring.Int.Defs
import StreamingTemplate.Proofs.Engine.Builtin

/-!
# Where skipping ends

While output is suppressed, directives are passed by: their flags open and close blocks, and their
bodies do not run. The skipping that started in a block ends where that block is closed. Where that
is can be told from the flags alone: it is the first directive behind which there are fewer open
blocks than there were.

* `Setup.balance` — by how much a part of the template changes the number of open blocks;
* `Setup.Leaves` — the first index at which a part of the template has closed more than it opened;
* `PassesBy`, `PassedBy` — turns in which nothing is emitted and no body runs.

`passedBy_hidden` is the way through a hidden part of the template. It is carried by the frames of
the blocks around it, which stay at the bottom of the stack as long as no prefix of the part has a
negative balance. `skips_to_close` puts the three ends together that such a way can have.
-/

namespace StreamingTemplate

variable {σ κ μ : Type}

/-! ## What the flags alone tell

Literals leave the blocks alone, and a directive opens and closes one at most, so along a
template the number of open blocks falls by one at most with each instruction. So the first time
that it is lower than it was, it is lower by one (`sum_take_nonneg`). -/

/-- By how much reaching a directive changes the number of open blocks. -/
def Directive.shift (d : Directive σ μ) : Int :=
  (if d.opensBlock then 1 else 0) - (if d.closesBlock then 1 else 0)

namespace Setup

variable (setup : Setup σ μ)

/-- By how much an instruction changes the number of open blocks. A directive that is not known is
never behind a render. -/
def shift : Instruction → Int
  | .literal _ => 0
  | .directive name _ => ((setup.directives.directive? name).map Directive.shift).getD 0

/-- By how much the instructions from one index up to and with another change the number of open
blocks. -/
def balance (first last : Nat) : Int :=
  (((setup.template.instructions.drop first).take (last + 1 - first)).map setup.shift).sum

/-- The flags bring the number of open blocks at an index below what it was before another, for the
first time. -/
structure Leaves (first index : Nat) : Prop where
  behind : first ≤ index
  below : setup.balance first index = -1
  earliest : ∀ between < index, first ≤ between → setup.balance first between ≠ -1

/-- The directives from one index on and before another are known. -/
def Known (first last : Nat) : Prop :=
  ∀ index name args, first ≤ index → index < last →
    setup.template.get? index = some (.directive name args) →
    ∃ d, setup.directives.directive? name = some d

variable {setup}

theorem neg_one_le_shift (instruction : Instruction) : -1 ≤ setup.shift instruction := by
  cases instruction with
  | literal text => simp [shift]
  | directive name args =>
    rw [shift]
    cases setup.directives.directive? name with
    | none => simp
    | some d =>
      rw [Option.map_some, Option.getD_some, Directive.shift]
      split <;> split <;> decide

/-- Only a directive that closes a block and opens none brings the number of open blocks down. -/
theorem shift_eq_neg_one {instruction : Instruction} (h : setup.shift instruction = -1) :
    ∃ name args d, instruction = .directive name args ∧
      setup.directives.directive? name = some d ∧ d.opensBlock = false ∧ d.closesBlock = true := by
  cases instruction with
  | literal text => simp [shift] at h
  | directive name args =>
    rw [shift] at h
    cases hdir : setup.directives.directive? name with
    | none => simp [hdir] at h
    | some d =>
      refine ⟨name, args, d, rfl, hdir, ?_⟩
      cases hopens : d.opensBlock <;> cases hcloses : d.closesBlock <;>
        simp [hdir, Directive.shift, hopens, hcloses] at h ⊢

/-- The last instruction of a part counts on top of those before it. -/
theorem balance_last {first last : Nat} {instruction : Instruction} (hfirst : first ≤ last)
    (hget : setup.template.get? last = some instruction) :
    setup.balance first last =
      (((setup.template.instructions.drop first).take (last - first)).map setup.shift).sum +
        setup.shift instruction := by
  have hat : (setup.template.instructions.drop first)[last - first]? = some instruction := by
    rw [List.getElem?_drop, Nat.add_sub_cancel' hfirst]
    exact hget
  rw [balance, Nat.succ_sub hfirst, List.take_add_one, hat, List.map_append, List.sum_append]
  simp

/-- The block is left by an instruction of the template. -/
theorem Leaves.get {first index : Nat} (h : setup.Leaves first index) :
    ∃ instruction, setup.template.get? index = some instruction := by
  obtain ⟨hbehind, hbelow, hearliest⟩ := h
  rcases hget : setup.template.get? index with _ | instruction
  case some => exact ⟨instruction, rfl⟩
  have hlength : setup.template.instructions.length ≤ index := List.getElem?_eq_none_iff.mp hget
  -- behind the template nothing changes any more
  have hsame : ∀ count, index - first ≤ count →
      (setup.template.instructions.drop first).take count =
        setup.template.instructions.drop first := by
    intro count hcount
    refine List.take_of_length_le ?_
    rw [List.length_drop]
    omega
  rcases Nat.eq_or_lt_of_le hbehind with rfl | hlt
  · rw [balance, List.drop_eq_nil_of_le hlength] at hbelow
    simp at hbelow
  · refine absurd ?_ (hearliest (index - 1) (by omega) (by omega))
    rw [← hbelow, balance, balance, hsame _ (by omega), hsame _ (by omega)]

/-- Where no index is the first to leave the block, no index leaves it. -/
theorem balance_ne_of_not_leaves {first last : Nat}
    (h : ∀ index < last, ¬ setup.Leaves first index) {index : Nat} (hfirst : first ≤ index)
    (hlast : index < last) : setup.balance first index ≠ -1 := by
  induction index using Nat.strongRecOn with
  | ind index ih =>
    intro hbelow
    exact h index hlast ⟨hfirst, hbelow, fun between hbetween hfrom =>
      ih between hbetween hfrom (Nat.lt_trans hbetween hlast)⟩

end Setup

/-- Sums that start at zero and fall by one at most do not become negative without being `-1`. -/
theorem sum_take_nonneg {steps : List Int} (hsteps : ∀ step ∈ steps, -1 ≤ step) {count : Nat}
    (h : ∀ n, 0 < n → n ≤ count → (steps.take n).sum ≠ -1) {n : Nat} (hn : n ≤ count) :
    0 ≤ (steps.take n).sum := by
  induction n with
  | zero => simp
  | succ n ih =>
    have hbefore := ih (Nat.le_of_succ_le hn)
    have hne := h (n + 1) n.succ_pos hn
    rw [List.take_add_one, List.sum_append] at hne ⊢
    rcases hstep : steps[n]? with _ | step <;> rw [hstep] at hne
    · simpa using hbefore
    · have := hsteps step (List.mem_of_getElem? hstep)
      simp only [Option.toList_some, List.sum_singleton] at hne ⊢
      omega

namespace Render

/-! ## Passing by

`inner` are the blocks that were opened inside of the hidden part, and `outer` those around it.
Skipping goes on exactly while nothing of `outer` has been closed. -/

/-- A turn that passes the instruction at the cursor by, since output is suppressed: nothing is
emitted, and no body runs. -/
inductive PassesBy (setup : Setup σ μ) : Render σ κ μ → Render σ κ μ → Prop where
  | literal {r text} (hget : setup.template.get? r.cursor = some (.literal text))
      (hskip : r.skip.isSkipping = true) : PassesBy setup r { r with cursor := r.cursor + 1 }
  | directive {r name args d frame r'}
      (hget : setup.template.get? r.cursor = some (.directive name args))
      (hdir : setup.directives.directive? name = some d)
      (hreach : reach d r.cursor { r with cursor := r.cursor + 1 } = (.ok frame, r'))
      (hskip : r'.skip.isSkipping = true) : PassesBy setup r r'

/-- A number of instructions is passed by. -/
inductive PassedBy (setup : Setup σ μ) : Nat → Render σ κ μ → Render σ κ μ → Prop where
  | none {r} : PassedBy setup 0 r r
  | next {count r r' r''} (h : PassesBy setup r r') (hrest : PassedBy setup count r' r'') :
      PassedBy setup (count + 1) r r''

variable {setup : Setup σ μ} {r r' : Render σ κ μ} {count : Nat}

/-- Each instruction that is passed by takes one turn. -/
theorem PassedBy.run [FilterStage σ] [OutputSink κ] (h : PassedBy setup count r r') (fuel : Nat) :
    run setup (fuel + count) .instruction r = run setup fuel .instruction r' := by
  induction h with
  | none => rfl
  | next hstep hrest ih =>
    refine Eq.trans ?_ ih
    cases hstep with
    | literal hget hskip =>
      refine run_next ?_
      rw [turn, instructionTurn, hget]
      exact if_pos hskip
    | directive hget hdir hreach hskip => exact run_passedBy _ hget hdir hreach hskip _

/-- A directive that is reached in a hidden block keeps the blocks around, unless it closes more
than is open inside of them. -/
theorem reach_hidden (d : Directive σ μ) (index : Nat) {inner outer : List Nat}
    (hframes : r.blocks.frames = inner ++ outer) (hskip : r.skip = .since outer.length)
    (hstays : 0 ≤ (inner.length : Int) + d.shift) :
    ∃ frame inner', reach d index r = (.ok frame, { r with blocks := ⟨inner' ++ outer⟩ }) ∧
      (inner'.length : Int) = inner.length + d.shift := by
  obtain ⟨store, ⟨frames⟩, skip, cursor, sink, status, pipe, lines, memory, answers, clock⟩ := r
  obtain rfl : frames = inner ++ outer := hframes
  obtain rfl : skip = .since outer.length := hskip
  unfold reach
  cases hopens : d.opensBlock <;> cases hcloses : d.closesBlock <;>
    simp only [Directive.shift, hopens, hcloses] at hstays ⊢
  · exact ⟨0, inner, rfl, by simp⟩
  · cases inner with
    | nil => simp at hstays
    | cons frame inner =>
      refine ⟨frame, inner, ?_, ?_⟩
      · simp [closeBlock, BlockStack.pop?, BlockStack.depth, SkipState.afterClose]
      · rw [List.length_cons, if_neg Bool.false_ne_true, if_pos trivial]
        omega
  · exact ⟨0, index :: inner, rfl, by simp⟩
  · refine ⟨index, inner, ?_, by simp⟩
    simp [closeBlock, BlockStack.pop?, BlockStack.push, BlockStack.depth, SkipState.afterClose]

/-- **A hidden part of a template.** Instructions whose directives are known are passed by, as long
as no prefix of them closes more blocks than it opens. -/
theorem passedBy_hidden {part more : List Instruction} {inner outer : List Nat}
    (hcode : setup.template.instructions.drop r.cursor = part ++ more)
    (hknown : ∀ name args, .directive name args ∈ part →
      ∃ d, setup.directives.directive? name = some d)
    (hframes : r.blocks.frames = inner ++ outer) (hskip : r.skip = .since outer.length)
    (hstays : ∀ n ≤ part.length, 0 ≤ (inner.length : Int) + ((part.map setup.shift).take n).sum) :
    ∃ inner', PassedBy setup part.length r
        { r with cursor := r.cursor + part.length, blocks := ⟨inner' ++ outer⟩ } ∧
      (inner'.length : Int) = inner.length + (part.map setup.shift).sum := by
  induction part generalizing r inner with
  | nil =>
    obtain ⟨store, ⟨frames⟩, skip, cursor, sink, status, pipe, lines, memory, answers, clock⟩ := r
    obtain rfl : frames = inner ++ outer := hframes
    exact ⟨inner, .none, by simp⟩
  | cons instruction rest ih =>
    obtain ⟨hget, hrest⟩ := getElem?_of_drop hcode
    -- one instruction; the blocks inside change by what its flags say
    obtain ⟨inner₁, hstep, hlength⟩ : ∃ inner₁, PassesBy setup r
        { r with cursor := r.cursor + 1, blocks := ⟨inner₁ ++ outer⟩ } ∧
        (inner₁.length : Int) = inner.length + setup.shift instruction := by
      have hskipping : r.skip.isSkipping = true := by rw [hskip]; rfl
      cases instruction with
      | literal text =>
        refine ⟨inner, ?_, by simp [Setup.shift]⟩
        rw [← hframes]
        exact .literal hget hskipping
      | directive name args =>
        obtain ⟨d, hdir⟩ := hknown name args List.mem_cons_self
        have hshift : setup.shift (.directive name args) = d.shift := by
          rw [Setup.shift, hdir]
          rfl
        have hstays₁ := hstays 1 (by simp)
        rw [List.map_cons, List.take_succ_cons, List.take_zero, List.sum_singleton, hshift]
          at hstays₁
        obtain ⟨frame, inner₁, hreach, hlength⟩ := reach_hidden
          (r := { r with cursor := r.cursor + 1 }) d r.cursor hframes hskip hstays₁
        exact ⟨inner₁, .directive hget hdir hreach hskipping, by rw [hshift, hlength]⟩
    obtain ⟨inner₂, hpassed, hlength₂⟩ := ih
      (r := { r with cursor := r.cursor + 1, blocks := ⟨inner₁ ++ outer⟩ }) hrest
      (fun name args hmem => hknown name args (List.mem_cons_of_mem _ hmem)) rfl hskip
      (by
        intro n hn
        have := hstays (n + 1) (Nat.succ_le_succ hn)
        rw [List.map_cons, List.take_succ_cons, List.sum_cons] at this
        omega)
    refine ⟨inner₂, ?_, ?_⟩
    · rw [List.length_cons, ← Nat.add_assoc, Nat.add_right_comm]
      exact .next hstep hpassed
    · rw [hlength₂, hlength, List.map_cons, List.sum_cons]
      omega

/-- The sum of the changes over a part of a template, by the index it goes up to. -/
theorem sum_take_eq_balance (first : Nat) {count n : Nat} (hpos : 0 < n) (hn : n ≤ count) :
    ((((setup.template.instructions.drop first).take count).map setup.shift).take n).sum =
      setup.balance first (first + n - 1) := by
  rw [Setup.balance, ← List.map_take, List.take_take, Nat.min_eq_left hn,
    show first + n - 1 + 1 - first = n by omega]

/-- The way through a hidden part of a template that does not leave its block. -/
theorem passedBy_within {last : Nat} (hskip : r.skip = .since r.blocks.depth)
    (hfirst : r.cursor ≤ last) (hlast : last ≤ setup.template.instructions.length)
    (hknown : setup.Known r.cursor last) (hwithin : ∀ index < last, ¬ setup.Leaves r.cursor index) :
    ∃ inner : List Nat, PassedBy setup (last - r.cursor) r
        { r with cursor := last, blocks := ⟨inner ++ r.blocks.frames⟩ } ∧
      (inner.length : Int) =
        (((setup.template.instructions.drop r.cursor).take (last - r.cursor)).map
          setup.shift).sum := by
  let part := (setup.template.instructions.drop r.cursor).take (last - r.cursor)
  have hlength : part.length = last - r.cursor := by simp [part]; omega
  have hdirectives : ∀ name args, .directive name args ∈ part →
      ∃ d, setup.directives.directive? name = some d := by
    intro name args hmem
    obtain ⟨n, hn, hget⟩ := List.getElem_of_mem hmem
    rw [hlength] at hn
    refine hknown (r.cursor + n) name args (Nat.le_add_right _ _) (by omega) ?_
    rw [List.getElem_take, List.getElem_drop] at hget
    exact List.getElem?_eq_some_iff.mpr ⟨by omega, hget⟩
  have hstays : ∀ n ≤ part.length,
      0 ≤ (([] : List Nat).length : Int) + ((part.map setup.shift).take n).sum := by
    intro n hn
    rw [List.length_nil, Int.natCast_zero, Int.zero_add]
    refine sum_take_nonneg ?_ ?_ hn
    · intro step hstep
      obtain ⟨instruction, -, rfl⟩ := List.mem_map.mp hstep
      exact Setup.neg_one_le_shift instruction
    · intro n hpos hn
      rw [hlength] at hn
      rw [sum_take_eq_balance _ hpos hn]
      exact Setup.balance_ne_of_not_leaves hwithin (by omega) (by omega)
  obtain ⟨inner, hpassed, hinner⟩ := passedBy_hidden
    (List.take_append_drop (last - r.cursor) _).symm hdirectives rfl hskip hstays
  rw [hlength, Nat.add_sub_cancel' hfirst] at hpassed
  rw [List.length_nil, Int.natCast_zero, Int.zero_add] at hinner
  exact ⟨inner, hpassed, hinner⟩

/-- The directive that leaves the hidden block closes it, ends the skipping, and is called. -/
theorem turn_leaving [FilterStage σ] [OutputSink κ] {name : String} {args : List Argument}
    {d : Directive σ μ} (hskip : r.skip = .since r.blocks.depth) (hdepth : 0 < r.blocks.depth)
    (hget : setup.template.get? r.cursor = some (.directive name args))
    (hdir : setup.directives.directive? name = some d) (hopens : d.opensBlock = false)
    (hcloses : d.closesBlock = true) (fuel : Nat) :
    turn setup fuel .instruction r = bodyTurn setup fuel r.cursor (d.call args)
      { r with
        cursor := r.cursor + 1, blocks := ⟨r.blocks.frames.tail⟩, skip := .notSkipping } := by
  obtain ⟨store, ⟨frames⟩, skip, cursor, sink, status, pipe, lines, memory, answers, clock⟩ := r
  obtain rfl : skip = .since frames.length := hskip
  cases frames with
  | nil => exact absurd hdepth (Nat.lt_irrefl 0)
  | cons frame outer =>
    rw [turn, instructionTurn, hget]
    have hreach : reach d cursor (⟨store, ⟨frame :: outer⟩, .since (frame :: outer).length,
        cursor + 1, sink, status, pipe, lines, memory, answers, clock⟩ : Render σ κ μ) =
        (.ok frame, ⟨store, ⟨outer⟩, .notSkipping, cursor + 1, sink, status, pipe, lines, memory,
          answers, clock⟩) := by
      simp [reach, hopens, hcloses, closeBlock, BlockStack.pop?, BlockStack.depth,
        SkipState.afterClose]
    exact (directiveTurn_of_ok hdir hreach).trans (if_neg Bool.false_ne_true)

/-- Behind the last instruction a render completes. -/
theorem run_behind [FilterStage σ] [OutputSink κ]
    (hlast : setup.template.instructions.length ≤ r.cursor) (fuel : Nat) :
    run setup (fuel + 1) .instruction r = some (complete r) :=
  run_stop (show turn setup fuel .instruction r = some (.stop (complete r).1, (complete r).2) by
    rw [turn, instructionTurn, Template.get?, List.getElem?_eq_none hlast])

/-- **Skipping ends at the matching close.** Let output be suppressed since the current depth. If
the flags leave the block at an index, what comes before it is passed by, the directive there is
called, and at its call output is no longer suppressed and the blocks around are as they were. If
they never leave it, the render completes. If the name of a directive before that is not known, the
render fails at its index. Nothing that is passed by emits anything or has its body run. -/
theorem skips_to_close [FilterStage σ] [OutputSink κ] (hdepth : 0 < r.blocks.depth)
    (hskip : r.skip = .since r.blocks.depth) :
    (∀ close, setup.Leaves r.cursor close → setup.Known r.cursor close →
      PassedBy setup (close - r.cursor) r { r with cursor := close } ∧
      (∀ fuel, run setup (fuel + (close - r.cursor)) .instruction r =
        run setup fuel .instruction { r with cursor := close }) ∧
      ∃ name args d, setup.template.get? close = some (.directive name args) ∧
        setup.directives.directive? name = some d ∧
        ∀ fuel, turn setup fuel .instruction { r with cursor := close } =
          bodyTurn setup fuel close (d.call args)
            { r with
              cursor := close + 1, blocks := ⟨r.blocks.frames.tail⟩, skip := .notSkipping }) ∧
    ((∀ index, ¬ setup.Leaves r.cursor index) →
      setup.Known r.cursor setup.template.instructions.length →
      ∃ blocks, let r' := { r with
          cursor := max r.cursor setup.template.instructions.length, blocks }
        PassedBy setup (setup.template.instructions.length - r.cursor) r r' ∧
        ∀ fuel, run setup (fuel + 1 + (setup.template.instructions.length - r.cursor))
          .instruction r = some (complete r')) ∧
    (∀ index name args, r.cursor ≤ index → setup.Known r.cursor index →
      (∀ close < index, ¬ setup.Leaves r.cursor close) →
      setup.template.get? index = some (.directive name args) →
      setup.directives.directive? name = none →
      ∃ blocks, PassedBy setup (index - r.cursor) r { r with cursor := index, blocks } ∧
        ∀ fuel, run setup (fuel + 1 + (index - r.cursor)) .instruction r =
          some (fail (.unknownDirective name index) { r with cursor := index + 1, blocks })) := by
  refine ⟨?closes, ?completes, ?unknown⟩
  case closes =>
    intro close hleaves hknown
    obtain ⟨instruction, hget⟩ := hleaves.get
    have hlast : close < setup.template.instructions.length := (List.getElem?_eq_some_iff.mp hget).1
    obtain ⟨inner, hpassed, hinner⟩ := passedBy_within hskip hleaves.behind (Nat.le_of_lt hlast)
      hknown fun index hindex h => hleaves.earliest index hindex h.behind h.below
    -- nothing is left open inside of the block, and the instruction closes it
    have hbelow := hleaves.below
    rw [Setup.balance_last hleaves.behind hget, ← hinner] at hbelow
    have hshift := setup.neg_one_le_shift instruction
    obtain rfl : inner = [] := List.eq_nil_of_length_eq_zero (by omega)
    obtain ⟨name, args, d, rfl, hdir, hopens, hcloses⟩ :=
      Setup.shift_eq_neg_one (show setup.shift instruction = -1 by simpa using hbelow)
    exact ⟨hpassed, hpassed.run, name, args, d, hget, hdir,
      turn_leaving (r := { r with cursor := close }) hskip hdepth hget hdir hopens hcloses⟩
  case completes =>
    intro hwithin hknown
    rcases Nat.le_total r.cursor setup.template.instructions.length with hle | hle
    · obtain ⟨inner, hpassed, -⟩ := passedBy_within hskip hle (Nat.le_refl _) hknown
        fun index _ => hwithin index
      refine ⟨⟨inner ++ r.blocks.frames⟩, ?_⟩
      rw [Nat.max_eq_right hle]
      exact ⟨hpassed, fun fuel => (hpassed.run _).trans (run_behind (Nat.le_refl _) fuel)⟩
    · refine ⟨r.blocks, ?_⟩
      rw [Nat.max_eq_left hle, Nat.sub_eq_zero_of_le hle]
      exact ⟨.none, run_behind hle⟩
  case unknown =>
    intro index name args hfirst hknown hwithin hget hdir
    have hlast : index < setup.template.instructions.length := (List.getElem?_eq_some_iff.mp hget).1
    obtain ⟨inner, hpassed, -⟩ := passedBy_within hskip hfirst (Nat.le_of_lt hlast) hknown hwithin
    refine ⟨⟨inner ++ r.blocks.frames⟩, hpassed, fun fuel => (hpassed.run _).trans (run_stop ?_)⟩
    rw [turn, instructionTurn, hget]
    dsimp only
    rw [directiveTurn, hdir]
    rfl

/-- A hidden part with a directive that closes a block and opens another, and with a block of its
own: neither ends the skipping, and the directive that does is called. -/
theorem skips_to_close_else :
    let setup : Setup TextFilter Unit :=
      { template := ⟨[.directive "open" [], .literal "a", .directive "else" [],
          .directive "open" [], .directive "close" [], .directive "close" [], .literal "b"]⟩
        directives := ((DirectiveRegistry.empty.register "open"
            { opensBlock := true, call := fun _ => .skip (.done .advance) }).register "else"
            { opensBlock := true, closesBlock := true, call := fun _ => .done .advance }).register
          "close" { closesBlock := true, call := fun _ => .emit "." fun _ => .done .advance }
        filters := TextFilter.registry id }
    let r : Render TextFilter Collector Unit :=
      { memory := (), cursor := 1, blocks := ⟨[0, 7]⟩, skip := .since 2, sink := some {} }
    0 < r.blocks.depth ∧ r.skip = .since r.blocks.depth ∧ setup.Leaves r.cursor 5 ∧
      setup.Known r.cursor 5 ∧
      (∀ fuel, run setup (fuel + 4) .instruction r =
        run setup fuel .instruction { r with cursor := 5 }) ∧
      ∃ name args d, setup.template.get? 5 = some (.directive name args) ∧
        setup.directives.directive? name = some d ∧
        ∀ fuel, turn setup fuel .instruction { r with cursor := 5 } =
          bodyTurn setup fuel 5 (d.call args)
            { r with cursor := 6, blocks := ⟨[7]⟩, skip := .notSkipping } := by
  intro setup r
  have hleaves : setup.Leaves r.cursor 5 := ⟨by decide, by decide, by decide⟩
  have hknown : setup.Known r.cursor 5 := by
    intro index name args hfirst hlast hget
    have hfirst : 1 ≤ index := hfirst
    obtain rfl | rfl | rfl | rfl : index = 1 ∨ index = 2 ∨ index = 3 ∨ index = 4 := by omega
    all_goals cases hget
    all_goals exact ⟨_, rfl⟩
  obtain ⟨-, hrun, hcall⟩ := (skips_to_close (by decide) rfl).1 5 hleaves hknown
  exact ⟨by decide, rfl, hleaves, hknown, hrun, hcall⟩

end Render

end StreamingTemplate

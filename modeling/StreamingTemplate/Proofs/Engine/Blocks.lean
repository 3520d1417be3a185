import StreamingTemplate.Proofs.Engine.Builtin
import StreamingTemplate.Proofs.Engine.Moment

/-!
# Open blocks and the cursor

A block is opened at the cursor, on the way forward, and the only way back is a restart, which
leaves the innermost block and goes to where that block was opened. So the open blocks are always
nested in the order of their indices and lie behind the cursor. `Place.Sound` says this, for any
directives and whatever the host does; each operation on blocks keeps it, whether a flag of a
directive, a body or the host asks for it.

Skipping starts at the depth of the open blocks and ends when a close leaves fewer, hence it never
starts deeper than the blocks that are open.
-/

namespace StreamingTemplate

variable {σ κ μ : Type}

/-! ## Places

The place of a render is its cursor, the open blocks and the skip state. `Place.Sound` is the
invariant that ties them; for each operation on a place there is a lemma that keeps it. -/

/-- The open blocks fit the cursor, the template and the skipping. -/
structure Place.Sound (setup : Setup σ μ) (p : Place) : Prop where
  cursor_le : p.cursor ≤ setup.template.size
  /-- innermost first: a block was opened behind those around it -/
  nested : p.blocks.frames.Pairwise (· > ·)
  passed : ∀ frame ∈ p.blocks.frames, frame < p.cursor
  opens : ∀ frame ∈ p.blocks.frames, ∃ d, setup.DirectiveAt frame d ∧ d.opensBlock = true
  skip_le : ∀ depth, p.skip = .since depth → depth ≤ p.blocks.depth

namespace Place.Sound

variable {setup : Setup σ μ} {p : Place}

/-- The cursor passes an instruction. -/
theorem next (h : p.Sound setup) {instruction : Instruction}
    (hget : setup.template.get? p.cursor = some instruction) : p.next.Sound setup where
  cursor_le := (List.getElem?_eq_some_iff.mp hget).1
  nested := h.nested
  passed frame hframe := Nat.lt_succ_of_lt (h.passed frame hframe)
  opens := h.opens
  skip_le := h.skip_le

/-- The cursor passes a directive that opens a block. -/
theorem opened (h : p.Sound setup) {d : Directive σ μ} (hat : setup.DirectiveAt p.cursor d)
    (hopens : d.opensBlock = true) : p.opened.Sound setup where
  cursor_le := by
    obtain ⟨name, args, hget, -⟩ := hat
    exact (h.next hget).cursor_le
  nested := List.pairwise_cons.mpr ⟨h.passed, h.nested⟩
  passed := List.forall_mem_cons.mpr
    ⟨Nat.lt_succ_self _, fun frame hframe => Nat.lt_succ_of_lt (h.passed frame hframe)⟩
  opens := List.forall_mem_cons.mpr ⟨⟨d, hat, hopens⟩, h.opens⟩
  skip_le depth hskip := Nat.le_succ_of_le (h.skip_le depth hskip)

/-- Suppressing output starts at the present depth. -/
theorem skipped (h : p.Sound setup) : p.skipped.Sound setup where
  cursor_le := h.cursor_le
  nested := h.nested
  passed := h.passed
  opens := h.opens
  skip_le _ hskip := Nat.le_of_eq (SkipState.since.inj hskip).symm

/-- The innermost block is left for a cursor that is behind all others. -/
theorem leave (h : p.Sound setup) {frame : Nat} {rest : List Nat}
    (hframes : p.blocks.frames = frame :: rest) {cursor : Nat}
    (hcursor : cursor ≤ setup.template.size) (hpassed : ∀ outer ∈ rest, outer < cursor) :
    Place.Sound setup ⟨cursor, ⟨rest⟩, p.skip.afterClose rest.length⟩ where
  cursor_le := hcursor
  nested := (List.pairwise_cons.mp (hframes ▸ h.nested)).2
  passed := hpassed
  opens outer houter := h.opens outer (hframes ▸ List.mem_cons_of_mem _ houter)
  skip_le depth hskip := by
    cases hskip' : p.skip with
    | notSkipping => simp [hskip', SkipState.afterClose] at hskip
    | since depth' =>
      rw [hskip', SkipState.afterClose] at hskip
      split at hskip
      · cases hskip
      · rename_i hdepth
        obtain rfl := SkipState.since.inj hskip
        exact Nat.le_of_not_lt hdepth

/-- The innermost block is closed. -/
theorem close (h : p.Sound setup) {frame : Nat} {rest : List Nat}
    (hframes : p.blocks.frames = frame :: rest) :
    Place.Sound setup ⟨p.cursor, ⟨rest⟩, p.skip.afterClose rest.length⟩ :=
  h.leave hframes h.cursor_le fun outer houter =>
    h.passed outer (hframes ▸ List.mem_cons_of_mem _ houter)

/-- The innermost block is closed and its start is next. -/
theorem restart (h : p.Sound setup) {frame : Nat} {rest : List Nat}
    (hframes : p.blocks.frames = frame :: rest) :
    Place.Sound setup ⟨frame, ⟨rest⟩, p.skip.afterClose rest.length⟩ :=
  h.leave hframes
    (Nat.le_trans (Nat.le_of_lt (h.passed frame (hframes ▸ List.mem_cons_self))) h.cursor_le)
    (List.pairwise_cons.mp (hframes ▸ h.nested)).1

/-- In front of the template, no block is open. -/
theorem start (setup : Setup σ μ) : Place.Sound setup {} where
  cursor_le := Nat.zero_le _
  nested := .nil
  passed := nofun
  opens := nofun
  skip_le := nofun

end Place.Sound

/-! ## Renders

The operations of a render on its blocks, in terms of the place. A close has one of two outcomes
whoever asks for it (`ClosesOrFails`), and a restart is a close that sets the cursor back. -/

namespace Render

variable {setup : Setup σ μ} {r : Render σ κ μ}

/-- What a close does: it pops the innermost block, or fails and changes nothing. -/
def ClosesOrFails {α : Type} (r : Render σ κ μ) (o : Outcome σ κ μ α) : Prop :=
  (∃ frame rest value, r.blocks.frames = frame :: rest ∧
    o = (.ok value, { r with blocks := ⟨rest⟩, skip := r.skip.afterClose rest.length })) ∨
  (∃ index, r.blocks.frames = [] ∧ o = (.error (.unbalancedBlock index), r))

/-- Without an open block a close fails, and blames the directive it was done for. -/
theorem closeBlock_of_nil (h : r.blocks.frames = []) (index : Nat) :
    r.closeBlock index = (.error (.unbalancedBlock index), r) := by
  simp [closeBlock, BlockStack.pop?, h]

/-- With one it pops the innermost, and output is no longer suppressed if that has begun inside
of it. -/
theorem closeBlock_of_cons {frame : Nat} {rest : List Nat} (h : r.blocks.frames = frame :: rest)
    (index : Nat) :
    r.closeBlock index =
      (.ok frame, { r with blocks := ⟨rest⟩, skip := r.skip.afterClose rest.length }) := by
  simp [closeBlock, BlockStack.pop?, h, BlockStack.depth]

theorem closeBlock_closes (r : Render σ κ μ) (index : Nat) :
    r.ClosesOrFails (r.closeBlock index) := by
  cases h : r.blocks.frames with
  | nil => exact .inr ⟨index, h, closeBlock_of_nil h index⟩
  | cons frame rest => exact .inl ⟨frame, rest, frame, h, closeBlock_of_cons h index⟩

theorem closeCurrent_closes (r : Render σ κ μ) : r.ClosesOrFails r.closeCurrent := by
  cases h : r.blocks.frames with
  | nil => exact .inr ⟨r.currentIndex, h, by rw [closeCurrent, closeBlock_of_nil h]⟩
  | cons frame rest =>
    exact .inl ⟨frame, rest, (), h, by rw [closeCurrent, closeBlock_of_cons h]⟩

/-- A close keeps the place sound. -/
theorem ClosesOrFails.sound {α : Type} {o : Outcome σ κ μ α} (h : r.ClosesOrFails o)
    (hsound : r.place.Sound setup) : o.2.place.Sound setup := by
  rcases h with ⟨frame, rest, value, hframes, rfl⟩ | ⟨index, hframes, rfl⟩
  · exact hsound.close hframes
  · exact hsound

/-- A restart that succeeds goes back to where the innermost block was opened. -/
theorem restartBlock_eq_ok {r' : Render σ κ μ} (h : r.restartBlock = (.ok (), r')) :
    ∃ rest, r.blocks.frames = r'.cursor :: rest ∧
      r'.place = ⟨r'.cursor, ⟨rest⟩, r.skip.afterClose rest.length⟩ := by
  cases hframes : r.blocks.frames with
  | nil =>
    rw [restartBlock, closeBlock_of_nil hframes] at h
    cases h
  | cons frame rest =>
    rw [restartBlock, closeBlock_of_cons hframes] at h
    obtain ⟨-, rfl⟩ := Prod.mk.inj h
    exact ⟨rest, rfl, rfl⟩

/-- A restart keeps the place sound, whether it succeeds or not. -/
theorem restartBlock_sound (h : r.place.Sound setup) : r.restartBlock.2.place.Sound setup := by
  cases hframes : r.blocks.frames with
  | nil =>
    rw [restartBlock, closeBlock_of_nil hframes]
    exact h
  | cons frame rest =>
    rw [restartBlock, closeBlock_of_cons hframes]
    exact h.restart hframes

theorem place_fail (err : RenderError) (r : Render σ κ μ) : (fail err r).2.place = r.place := by
  rw [fail, dropPipe]
  split <;> rfl

section

variable [OutputSink κ]

theorem place_complete (r : Render σ κ μ) : (complete r).2.place = r.place := by
  rw [complete]
  split
  · rfl
  · split
    · rfl
    · rw [place_fail]
      rfl

theorem place_emit {chunk : String} {r r' : Render σ κ μ} {res : Except RenderError Unit}
    (h : emit chunk r = (res, r')) : r'.place = r.place := by
  obtain ⟨sink, rfl⟩ := exists_of_emit h
  rfl

theorem place_emitAll {chunks : List String} {r r' : Render σ κ μ} {res : Except RenderError Unit}
    (h : emitAll chunks r = (res, r')) : r'.place = r.place := by
  obtain ⟨sink, rfl⟩ := exists_of_emitAll h
  rfl

/-- Whatever a body does, the place stays sound. -/
theorem sound_keptByBodies (setup : Setup σ μ) :
    KeptByBodies (fun r : Render σ κ μ => r.place.Sound setup) where
  emit chunk r h := by
    obtain ⟨sink, hsink⟩ := emit_frame chunk r
    rw [hsink]
    exact h
  skip r h := h.skipped
  restart r h := restartBlock_sound h
  close r h := r.closeCurrent_closes.sound h
  set path value r h := by
    obtain ⟨store, answers, hframe⟩ := setWithin_frame path value r
    rw [hframe]
    exact h
  handles handles r h := h
  remember memory r h := h

end

/-- Reaching a directive opens its block if it has one. -/
theorem arrive_sound {d : Directive σ μ} (h : r.place.Sound setup)
    (hat : setup.DirectiveAt r.cursor d) : (arrive d r).place.Sound setup := by
  cases hopens : d.opensBlock with
  | true =>
    have := h.opened hat hopens
    rwa [arrive, hopens]
  | false =>
    obtain ⟨name, args, hget, -⟩ := hat
    have := h.next hget
    rwa [arrive, hopens]

/-- Reaching a directive keeps the place sound: its block is opened first, then a block is
closed. -/
theorem reach_sound {d : Directive σ μ} {r' : Render σ κ μ} {res : Except RenderError Nat}
    (h : r.place.Sound setup) (hat : setup.DirectiveAt r.cursor d)
    (hreach : reach d r.cursor { r with cursor := r.cursor + 1 } = (res, r')) :
    r'.place.Sound setup := by
  rw [reach_eq] at hreach
  split at hreach
  · have := ((arrive d r).closeBlock_closes r.cursor).sound (arrive_sound h hat)
    rwa [hreach] at this
  · obtain ⟨-, rfl⟩ := Prod.mk.inj hreach
    exact arrive_sound h hat

variable [FilterStage σ] [OutputSink κ] {fuel : Nat}

/-- Every turn keeps the place sound, by cases on what a turn can do. -/
theorem Turned.sound {task : Task σ} {t : Turn σ} {r' : Render σ κ μ}
    (ht : Turned setup fuel task r t r') (h : r.place.Sound setup) : r'.place.Sound setup := by
  cases ht with
  | complete => rwa [place_complete]
  | literalSkipped hget hskip => exact h.next hget
  | literalEmitted hget hskip hemit =>
    rw [place_emit hemit]
    exact h.next hget
  | literalRefused hget hskip hemit =>
    rw [place_fail, place_emit hemit]
    exact h.next hget
  | unknown hget hdir =>
    rw [place_fail]
    exact h.next hget
  | unbalanced hget hdir hreach =>
    rw [place_fail]
    exact reach_sound h ⟨_, _, hget, hdir⟩ hreach
  | passedBy hget hdir hreach hskip => exact reach_sound h ⟨_, _, hget, hdir⟩ hreach
  | called hget hdir hreach hskip hbody =>
    exact (sound_keptByBodies setup).perform hbody (reach_sound h ⟨_, _, hget, hdir⟩ hreach)
  | callFailed hget hdir hreach hskip hbody =>
    rw [place_fail]
    exact (sound_keptByBodies setup).perform hbody (reach_sound h ⟨_, _, hget, hdir⟩ hreach)
  | resumed hresume hbody => exact (sound_keptByBodies setup).perform hbody h
  | resumeFailed hresume hbody =>
    rw [place_fail]
    exact (sound_keptByBodies setup).perform hbody h
  | advanced | resolved | suspended | piped | draining | nothingToDrain => exact h
  | consumed | resumeUnknown => rwa [place_fail]
  | drainFailed hpipe hread =>
    rw [place_fail]
    exact h
  | drained hpipe hread hemit =>
    have := place_emitAll hemit
    exact (congrArg (Place.Sound setup) this).mpr h
  | closed hpipe hread hemit =>
    have hplace := place_emitAll hemit
    have hdrop : ∀ r : Render σ κ μ, r.dropPipe.place = r.place := by
      intro r
      rw [dropPipe]
      split <;> rfl
    exact (congrArg (Place.Sound setup) ((hdrop _).trans hplace)).mpr h
  | drainRefused hpipe hread hchunks hemit =>
    rw [place_fail, place_emitAll hemit]
    exact h

/-- The soundness of the place, at every moment. -/
def soundInvariant (setup : Setup σ μ) (κ : Type) [OutputSink κ] : Invariant setup κ where
  rest r := r.place.Sound setup
  inside r := r.place.Sound setup
  turn _ r := r.place.Sound setup
  closing _ r := r.place.Sound setup
  body _ r := r.place.Sound setup
  waits h _ _ := h
  sink h _ := h
  skip h := h.skipped
  restart h := restartBlock_sound h
  close h := (closeCurrent_closes _).sound h
  report h _ _ := h
  outside {r} h move := by
    obtain ⟨pipe, lines, clock, hframe, -⟩ := move.apply_frame r
    rw [hframe]
    exact h
  enter h := h
  leave h _ := h
  feed h _ _ _ _ := h
  fail h err := by rwa [place_fail]
  attach h _ _ := h
  advance h _ := h
  drain h _ := h
  resume h _ _ := h
  next ht h := ht.sound h
  stop ht h := ht.sound h
  arrive h hat := arrive_sound h hat
  call h hat hreach := reach_sound h hat hreach
  handBack h := h
  kept _ := sound_keptByBodies setup

end Render

open Render

variable [FilterStage σ] [OutputSink κ] {setup : Setup σ μ} {activity : Activity σ μ}
  {r : Render σ κ μ} {memory : μ} {lines : Lines} {clock : Instant}

/-- **Blocks are nested behind the cursor.** At every moment of every render, between the calls of
the host and inside of them, the open blocks are nested in the order of the template, each was
opened by a directive that opens blocks, and all lie behind the cursor, which never leaves the
template; and nothing is skipped since a greater depth than there is. So a restart that succeeds
goes back, to a directive that opens a block, and a close, wherever it comes from, pops the
innermost block or fails and changes nothing. -/
theorem blocks_nested (h : Moment setup (Render.fresh memory lines clock) activity r) :
    r.place.Sound setup ∧
      (∀ r', r.restartBlock = (.ok (), r') →
        r'.cursor < r.cursor ∧ ∃ d, setup.DirectiveAt r'.cursor d ∧ d.opensBlock = true) ∧
      r.ClosesOrFails r.closeCurrent ∧ ∀ index, r.ClosesOrFails (r.closeBlock index) := by
  have hsound : r.place.Sound setup := by
    have := (soundInvariant setup κ).moment h (Place.Sound.start setup)
    cases activity <;> exact this
  refine ⟨hsound, ?_, r.closeCurrent_closes, r.closeBlock_closes⟩
  intro r' hrestart
  obtain ⟨rest, hframes, -⟩ := restartBlock_eq_ok hrestart
  have hmem : r'.cursor ∈ r.place.blocks.frames := hframes ▸ List.mem_cons_self
  exact ⟨hsound.passed _ hmem, hsound.opens _ hmem⟩

/-- A block that is restarted for ever. -/
def Setup.endless : Setup TextFilter Unit where
  template := ⟨[.directive "repeat" [], .directive "again" []]⟩
  directives := (DirectiveRegistry.empty.register "repeat"
      { opensBlock := true, call := fun _ => .done .advance }).register "again"
    { call := fun _ => .restart fun _ => .done .advance }
  filters := TextFilter.registry id

/-- A restart in a call that never returns. -/
theorem blocks_nested_restart :
    ∃ (r : Render TextFilter Collector Unit)
      (next : Except RenderError Unit → Body TextFilter Unit),
      Moment Setup.endless (Render.fresh ()) (.body 1 (.restart next)) r ∧
        r.cursor = 2 ∧ r.blocks.frames = [0] ∧ r.restartBlock.1.isOk ∧
        r.restartBlock.2.cursor = 0 ∧ r.restartBlock.2.cursor < r.cursor := by
  have hbegins : HostCall.Begins Setup.endless 9 (.attach {})
      (Render.fresh () : Render TextFilter Collector Unit) .instruction _ := .attach rfl
  have hattached := Moment.begins .start hbegins
  have hopened := (hattached.next 9 rfl).next 9 rfl
  have hbody := hopened.called rfl rfl rfl rfl
  exact ⟨_, _, hbody, rfl, rfl, rfl, rfl, ((blocks_nested hbody).2.1 _ rfl).1⟩

end StreamingTemplate

import StreamingTemplate.Filter.Text
import StreamingTemplate.Proofs.Engine.Waits

/-!
# Waits between calls

When no call is in progress, no wait is due. `History.inOrder` carries the invariant through every
call of the host and every move outside, and `Settled` says what it means for the store: the
render's own wait is parked exactly while it is suspended on a variable, every wait is under the
first segment of its path and has a reason to wait, and the questions of the host are those answered
and those parked.
-/

namespace StreamingTemplate

variable {σ κ μ : Type}

/-! ## Questions

A question whose path has no segments is refused, and is not among those asked. -/

/-- The tickets of the questions that were accepted, oldest first. -/
def asked : List (HostCall κ × Except RenderError Unit) → List String
  | [] => []
  | (.get _ ticket, .ok _) :: record => ticket :: asked record
  | _ :: record => asked record

@[simp] theorem asked_append (first second : List (HostCall κ × Except RenderError Unit)) :
    asked (first ++ second) = asked first ++ asked second := by
  induction first with
  | nil => rfl
  | cons entry record ih =>
    obtain ⟨call, outcome⟩ := entry
    cases call <;> cases outcome <;> simp [asked, ih]

namespace Render

variable [FilterStage σ] [OutputSink κ] {setup : Setup σ μ} {fuel : Nat} {tickets : List String}
  {r r' : Render σ κ μ} {outcome : Except RenderError Unit}

/-! ## Calls

Nothing is due before a call, and nothing is due behind it. There is one lemma for each call that
can run the render; what the others change is out of the way of waits, but for a question, which
is due at once. -/

namespace InOrder

omit [FilterStage σ] [OutputSink κ] in
/-- What a render does on its own, out of its sink, its blocks and its cursor, is out of the way of
waits. -/
theorem frame {blocks : BlockStack} {skip : SkipState} {cursor : Nat} {sink : Option κ}
    (h : InOrder [] tickets r) : InOrder [] tickets { r with blocks, skip, cursor, sink } :=
  ⟨h.accounted, h.unpiped⟩

/-- Pumping is a run from the task that drains the pipe, if the render is suspended on its pipe. -/
theorem pump (h : InOrder [] tickets r) (hpump : pump setup fuel r = some (outcome, r')) :
    InOrder [] tickets r' := by
  rw [Render.pump] at hpump
  split at hpump
  · rename_i index hstatus
    have hnone : r.status.awaited? = none := by
      revert hstatus
      cases r.status with
      | suspended wait => cases wait <;> simp [Status.piping?, Status.awaited?]
      | _ => simp [Status.awaited?]
    exact (h.free hnone).run (fun hdrain => absurd rfl (hdrain index)) hpump
  · obtain ⟨-, rfl⟩ := Prod.mk.inj (Option.some.inj hpump)
    exact h

theorem feedPipe {event : Pipe.Event} (h : InOrder [] tickets r)
    (hfeed : feedPipe setup fuel event r = some (outcome, r')) : InOrder [] tickets r' := by
  unfold Render.feedPipe at hfeed
  split at hfeed
  · rename_i chunk pipe hpipe
    -- a render with a pipe waits for it, and not for a variable
    have hnone : r.status.awaited? = none := by
      rcases hstatus : r.status with _ | _ | (_ | _ | _) | _ | _ <;> try rfl
      exact absurd (h.unpiped (by rw [hstatus]; rfl)) (by rw [hpipe]; exact nofun)
    split at hfeed
    · cases hfeed
    · rename_i p hpass
      have hfree := (h.free hnone).withPipe (some p.pipe) p.lines
      split at hfeed
      · rename_i err r₁ hemit
        obtain ⟨-, rfl⟩ := Prod.mk.inj (Option.some.inj hfeed)
        exact ⟨((hfree.emitAll hemit).fail err).toAccounted, fun _ => dropPipe_pipe r₁⟩
      · rename_i r₁ hemit
        refine pump ⟨(hfree.emitAll hemit).toAccounted, fun hpiping => ?_⟩ hfeed
        obtain ⟨sink, rfl⟩ := exists_of_emitAll hemit
        exact absurd (h.unpiped hpiping) (by rw [hpipe]; exact nofun)
  · exact pump h hfeed

/-- Attaching the sink is a run from the first instruction. -/
theorem attach {sink : κ} (h : InOrder [] tickets r)
    (hattach : attach setup fuel sink r = some (outcome, r')) : InOrder [] tickets r' := by
  rw [Render.attach] at hattach
  split at hattach
  · rename_i hidle
    have hfree : Free [] tickets { r with sink := some sink, status := .running } :=
      ⟨rfl, (h.free (by rw [hidle]; rfl)).accounted⟩
    exact hfree.run (fun _ => h.unpiped (by rw [hidle]; rfl)) hattach
  · obtain ⟨-, rfl⟩ := Prod.mk.inj (Option.some.inj hattach)
    exact h

/-- Advancing is a run from the next instruction, if the render is running. -/
theorem advance (h : InOrder [] tickets r)
    (hadvance : advance setup fuel r = some (outcome, r')) : InOrder [] tickets r' := by
  rw [Render.advance] at hadvance
  split at hadvance
  · rename_i hrunning
    exact (h.free (by rw [hrunning]; rfl)).run
      (fun _ => h.unpiped (by rw [hrunning]; rfl)) hadvance
  · obtain ⟨-, rfl⟩ := Prod.mk.inj (Option.some.inj hadvance)
    exact h

omit [FilterStage σ] [OutputSink κ] in
/-- A wait on the pipe is no wait for a variable. -/
theorem waitSide {side : PipeSide} {event : Pipe.Event} (h : InOrder [] tickets r)
    (hwait : r.waitSide? side = some (event, r')) : InOrder [] tickets r' := by
  rw [waitSide?] at hwait
  split at hwait
  · cases hwait
  · rename_i pipe hpipe
    obtain ⟨⟨event', pipe', lines⟩, -, heq⟩ := Option.map_eq_some_iff.mp hwait
    obtain ⟨-, rfl⟩ := Prod.mk.inj heq
    exact ⟨h.accounted, fun hpiping => absurd (h.unpiped hpiping) (by rw [hpipe]; exact nofun)⟩

omit [FilterStage σ] [OutputSink κ] in
/-- A report about a wait leaves it in place. -/
theorem checkTimeout {settings : RenderSettings} {now : Instant} (h : InOrder [] tickets r) :
    InOrder [] tickets (checkTimeout settings now r).2 := by
  rw [Render.checkTimeout]
  split
  · rename_i timeout path index since htimeout hstatus
    dsimp only
    split
    · refine ⟨?_, fun _ => h.unpiped (by rw [hstatus]; rfl)⟩
      have := h.accounted
      rwa [hstatus] at this
    · exact h
  · exact h

end InOrder

/-- **A call.** Every call of the host leaves the render in order, and adds its question if it is
an accepted one. -/
theorem HostCall.run_inOrder {call : HostCall κ} (h : InOrder [] tickets r)
    (hcall : HostCall.run setup fuel call r = some (outcome, r')) :
    InOrder [] (tickets ++ asked [(call, outcome)]) r' := by
  cases call with
  | get path ticket =>
    rw [HostCall.run, get] at hcall
    split at hcall <;> obtain ⟨rfl, rfl⟩ := Prod.mk.inj (Option.some.inj hcall)
    · simpa [asked] using h
    · exact InOrder.ask ⟨h.accounted.question path ticket, h.unpiped⟩
  | attach sink => simpa [asked] using h.attach hcall
  | advance => simpa [asked] using h.advance hcall
  | pump => simpa [asked] using h.pump hcall
  | set path value => simpa [asked] using h.set hcall
  | feed event => simpa [asked] using h.feedPipe hcall
  | checkTimeout now =>
    obtain rfl : _ = r' := congrArg Prod.snd (Option.some.inj hcall)
    simpa [asked] using h.checkTimeout
  | emit chunk =>
    obtain ⟨sink, hsink⟩ := emit_frame chunk r
    obtain rfl : _ = r' := congrArg Prod.snd (Option.some.inj hcall)
    rw [hsink]
    simpa [asked] using h.frame
  | skip =>
    obtain rfl : _ = r' := congrArg Prod.snd (Option.some.inj hcall)
    have : InOrder [] tickets r.skipBlock := h.frame
    simpa [asked] using this
  | restart =>
    obtain ⟨blocks, skip, cursor, hframe⟩ := restartBlock_frame r
    obtain rfl : _ = r' := congrArg Prod.snd (Option.some.inj hcall)
    rw [hframe]
    simpa [asked] using h.frame
  | close =>
    obtain ⟨blocks, skip, hframe⟩ := closeCurrent_frame r
    obtain rfl : _ = r' := congrArg Prod.snd (Option.some.inj hcall)
    rw [hframe]
    simpa [asked] using h.frame
  | forward side =>
    rw [HostCall.run] at hcall
    rcases hwait : r.waitSide? side with _ | ⟨event, r₁⟩ <;> rw [hwait] at hcall
    · obtain ⟨-, rfl⟩ := Prod.mk.inj (Option.some.inj hcall)
      simpa [asked] using h
    · simpa [asked] using (h.waitSide hwait).feedPipe hcall

end Render

/-! ## Histories

What happens outside can move the pipe, the streams and the clock, and none of them is a wait for
a variable. -/

variable [FilterStage σ] [OutputSink κ] {setup : Setup σ μ} {r : Render σ κ μ} {memory : μ}
  {lines : Lines} {clock : Instant} {record : List (HostCall κ × Except RenderError Unit)}

/-- Between two calls the render is in order, and nothing is due. -/
theorem History.inOrder (h : History setup (Render.fresh memory lines clock) record r) :
    r.InOrder [] (asked record) := by
  induction h with
  | start => exact ⟨.empty, fun _ => rfl⟩
  | call before hcall ih =>
    rw [asked_append]
    exact Render.HostCall.run_inOrder ih hcall
  | outside before move ih =>
    obtain ⟨pipe, lines, clock, hframe, hpipe⟩ := move.apply_frame _
    rw [hframe]
    exact ⟨ih.accounted, fun hpiping => hpipe (ih.unpiped hpiping)⟩

/-! ## What this means for the store

The invariant in the terms of the store and the status alone. The counts follow from it: of the
parked waits one at most is the render's own, and each of the others has a ticket. -/

/-- The waits of a render of which no call is in progress; `questions` are the tickets of the
questions it has accepted. -/
structure Settled (questions : List String) (r : Render σ κ μ) : Prop where
  /-- the render's own wait is parked, once, if the render is suspended on a variable, and not
  otherwise -/
  own : r.store.parked.filter (·.2 = .engine) =
    match r.status with
    | .suspended (.variable path _ _) => [(path.segments.headD "", .engine)]
    | _ => []
  /-- each wait of the host is under the first segment of its path -/
  host_key : ∀ key path ticket, (key, .host path ticket) ∈ r.store.parked →
    key = path.segments.headD ""
  /-- nothing that is waited for is there -/
  host_waits : ∀ key path ticket, (key, .host path ticket) ∈ r.store.parked →
    r.store.resolve path = none
  own_waits : ∀ path directive since, r.status = .suspended (.variable path directive since) →
    r.store.resolve path = none
  /-- each question is answered or parked, once -/
  questions_perm : (r.answers.map (·.1) ++ Waiter.tickets (r.store.parked.map (·.2))).Perm questions
  /-- in numbers -/
  questions_length : questions.length =
    r.answers.length + (r.store.parked.filter (·.2 ≠ .engine)).length
  pending : r.store.pending = questions.length - r.answers.length +
    match r.status with
    | .suspended (.variable ..) => 1
    | _ => 0

omit [FilterStage σ] [OutputSink κ] in
theorem Render.InOrder.settled {questions : List String} (h : r.InOrder [] questions) :
    Settled questions r := by
  have hown := h.accounted.filter_own
  have hparked := h.accounted.parked
  have hhost : ∀ key path ticket, (key, .host path ticket) ∈ r.store.parked →
      key = path.segments.headD "" ∧ r.store.resolve path = none := by
    intro key path ticket hmem
    rw [← Path.waitKey_eq_headD]
    exact hparked key _ hmem path rfl
  -- in numbers: the parked waits are the render's own and those with a ticket
  have hsplit := (List.filter_append_perm (·.2 = Waiter.engine) r.store.parked).length_eq
  have htickets := Waiter.length_tickets (r.store.parked.map (·.2))
  have hquestions := h.accounted.questions.length_eq
  have hcount := h.accounted.own
  simp only [List.length_append, List.length_map, List.count_nil, Nat.add_zero, Waiter.tickets,
    List.append_nil, hown, Option.toList_map, ← decide_not] at hsplit htickets hquestions hcount
  have hawaited : r.status.awaited?.toList.length =
      match r.status with
      | .suspended (.variable ..) => 1
      | _ => 0 := by
    cases r.status with
    | suspended wait => cases wait <;> rfl
    | _ => rfl
  refine ⟨?_, fun key path ticket hmem => (hhost key path ticket hmem).1,
    fun key path ticket hmem => (hhost key path ticket hmem).2, ?_, ?_, ?_, ?_⟩
  · rw [hown]
    split
    · rename_i path directive since hstatus
      rw [hstatus, ← Path.waitKey_eq_headD]
      rfl
    · rename_i hstatus
      rw [Status.awaited?_eq_none hstatus]
      rfl
  · intro path directive since hstatus
    rw [hstatus] at hown
    have hmem : (path.waitKey, Waiter.engine) ∈ r.store.parked.filter (·.2 = .engine) := by
      simp [hown, Status.awaited?]
    exact (hparked _ _ (List.mem_filter.mp hmem).1 path (by rw [hstatus]; rfl)).2
  · simpa [Waiter.tickets] using h.accounted.questions
  · simp only [ne_eq]
    omega
  · rw [← hawaited, Store.pending]
    omega

/-- **No lost, doubled or stale wait.** Whatever has been called, with whatever directives, filters
and sink, and whatever has happened outside, the waits are settled between two calls. -/
theorem waits_settled (h : History setup (Render.fresh memory lines clock) record r) :
    Settled (asked record) r :=
  h.inOrder.settled

/-- A render that waits below an object which is not one yet, with an answered question, a parked
one and one that is refused. -/
theorem waits_settled_below_null : ∃ r : Render TextFilter Collector Unit,
    HostCall.runAll
        ⟨⟨[.directive "var" [.path ⟨["x", "y"]⟩]]⟩, Directive.builtins, TextFilter.registry id, {}⟩
        9 [.get ⟨["z"]⟩ "q", .attach {}, .set ⟨["x"]⟩ .null, .get ⟨["x"]⟩ "a", .get ⟨[]⟩ "b"]
        (Render.fresh ()) =
      some ([.ok (), .ok (), .ok (), .ok (), .error (.malformedPath ⟨[]⟩ .empty)], r) ∧
    r.status = .suspended (.variable ⟨["x", "y"]⟩ 0 0) ∧ r.answers.map (·.1) = ["a"] ∧
    Settled ["q", "a"] r := by
  refine ⟨_, rfl, rfl, rfl, ?_⟩
  have hrun : HostCall.runAll
        ⟨⟨[.directive "var" [.path ⟨["x", "y"]⟩]]⟩, Directive.builtins, TextFilter.registry id, {}⟩
        9 [.get ⟨["z"]⟩ "q", .attach {}, .set ⟨["x"]⟩ .null, .get ⟨["x"]⟩ "a", .get ⟨[]⟩ "b"]
        (Render.fresh () : Render TextFilter Collector Unit) =
      some ([.ok (), .ok (), .ok (), .ok (), .error (.malformedPath ⟨[]⟩ .empty)], _) := rfl
  exact waits_settled (History.start.runAll hrun)

end StreamingTemplate

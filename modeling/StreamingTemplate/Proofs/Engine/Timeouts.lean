import StreamingTemplate.Filter.Text
import StreamingTemplate.Proofs.Engine.Settled
import StreamingTemplate.Proofs.Engine.WaitingSince

/-!
# Reports of waits

A check reports a wait for a variable that has lasted for the timeout, and leaves it in place; the
next report is due a timeout later. When a wait began and when it was reported can be kept beside
the render:

* `Watch` — the two instants, with what a call and a check do to them;
* `Watched` — a history in which the host checks at instants that never go back, with its watch;
* `Watching` — the wait is as old as the watch says (`Watched.watching`);
* `Watched.unchecked` — the same history without the checks;
* `timeouts_exact` — what the watch says about the reports, and what is left without them.
-/

namespace StreamingTemplate

variable {σ κ μ : Type}

/-! ## The watch

The instant in the status of a render is moved by each report. The watch keeps the two parts of
it apart, when the wait began and when it was reported last, so that it can be said what there
would be without the reports. -/

/-- When the present wait began, and when it was reported last. -/
structure Watch where
  start : Instant
  reported : Option Instant := none

/-- What happens to a render: a call that returns, or a move outside. -/
inductive Occurrence (κ : Type) where
  | call (made : HostCall κ) (outcome : Except RenderError Unit)
  | outside (move : OutsideMove)

/-- It is a call that asks for a report. -/
def Occurrence.isCheck : Occurrence κ → Bool
  | .call made _ => made.isCheck
  | .outside _ => false

/-- What is left when the host does not ask for reports. -/
def withoutChecks (events : List (Occurrence κ)) : List (Occurrence κ) :=
  events.filter (!·.isCheck)

/-- The instants at which the host has asked for reports, in order. -/
def checkInstants (events : List (Occurrence κ)) : List Instant :=
  events.filterMap fun
    | .call (.checkTimeout now) _ => some now
    | _ => none

namespace Watch

/-- The later one of the beginning of the wait and its last report. -/
def latest (w : Watch) : Instant :=
  match w.reported with
  | none => w.start
  | some now => max w.start now

/-- The watch behind a call: if the wait does not go on, another one would begin now. -/
def after (call : HostCall κ) (r : Render σ κ μ) (w : Watch) : Watch :=
  if call.leavesWaiting r then w else { start := r.clock }

/-- The watch behind a check with its outcome. -/
def checked (now : Instant) (outcome : Except RenderError Unit) (w : Watch) : Watch :=
  match outcome with
  | .ok _ => w
  | .error _ => { w with reported := some now }

/-- The host may ask for a report at this instant: it is not before an earlier check, nor before the
present wait began. -/
def Admits (w : Watch) (events : List (Occurrence κ)) (r : Render σ κ μ) (now : Instant) : Prop :=
  (∀ earlier ∈ checkInstants events, earlier ≤ now) ∧ (r.status.awaited? ≠ none → w.start ≤ now)

end Watch

section Histories

variable [FilterStage σ] [OutputSink κ]

/-- A history of a render with its watch, in which the host checks where it may. -/
inductive Watched (setup : Setup σ μ) (start : Render σ κ μ) :
    List (Occurrence κ) → Watch → Render σ κ μ → Prop where
  | start : Watched setup start [] { start := start.clock } start
  | call {events w r call fuel outcome r'} (before : Watched setup start events w r)
      (hother : call.isCheck = false)
      (hcall : HostCall.run setup fuel call r = some (outcome, r')) :
      Watched setup start (events ++ [.call call outcome]) (w.after call r) r'
  | check {events w r} (before : Watched setup start events w r) (now : Instant)
      (hadmits : w.Admits events r now) :
      Watched setup start
        (events ++ [.call (.checkTimeout now) (r.checkTimeout setup.settings now).1])
        (w.checked now (r.checkTimeout setup.settings now).1)
        (r.checkTimeout setup.settings now).2
  | outside {events w r} (before : Watched setup start events w r) (move : OutsideMove) :
      Watched setup start (events ++ [.outside move]) w (move.apply r)

variable {setup : Setup σ μ} {start r : Render σ κ μ} {events : List (Occurrence κ)} {w : Watch}

open Render

theorem le_toNat_sub_iff {since now : Int} (h : since ≤ now) {timeout : Nat} :
    timeout ≤ (now - since).toNat ↔ since + timeout ≤ now := by
  omega

omit [FilterStage σ] [OutputSink κ] in
/-- A check in terms of the instant since which the render waits. -/
theorem checkTimeout_eq {settings : RenderSettings} {since : Instant}
    (hsince : r.waitingSince since = r) (now : Instant) :
    r.checkTimeout settings now =
      match settings.waitTimeout, r.status.awaited? with
      | some timeout, some path =>
        if timeout ≤ (now - since).toNat then
          (.error (.unresolvedVariable path (now - since).toNat), r.waitingSince now)
        else (.ok (), r)
      | _, _ => (.ok (), r) := by
  rw [checkTimeout, waitingSince]
  rcases settings.waitTimeout with _ | timeout
  · rfl
  · rcases hr : r.status with _ | _ | (⟨path, index, since'⟩ | _ | _) | _ | _
    case suspended.variable =>
      obtain rfl := since_eq hsince hr
      rfl
    all_goals rfl

omit [FilterStage σ] [OutputSink κ] in
/-- The deadline in terms of the same instant. -/
theorem waitDeadline_eq {settings : RenderSettings} {since : Instant}
    (hsince : r.waitingSince since = r) :
    r.waitDeadline settings =
      match settings.waitTimeout with
      | some timeout => r.status.awaited?.map fun _ => since + timeout
      | none => none := by
  rw [waitDeadline]
  rcases settings.waitTimeout with _ | timeout
  · rfl
  · rcases hr : r.status with _ | _ | (⟨path, index, since'⟩ | _ | _) | _ | _
    case suspended.variable =>
      obtain rfl := since_eq hsince hr
      rfl
    all_goals rfl

/-- What the watch knows. -/
structure Watching (events : List (Occurrence κ)) (w : Watch) (r : Render σ κ μ) : Prop where
  settled : ∃ tickets, r.InOrder [] tickets
  /-- the wait is as old as the watch says -/
  since : r.waitingSince w.latest = r
  reported : ∀ now, w.reported = some now → now ∈ checkInstants events

omit [FilterStage σ] [OutputSink κ] in
/-- Where the host may check, it is not before what the watch says. -/
theorem Watching.latest_le (h : Watching events w r) {now : Instant}
    (hadmits : w.Admits events r now) (hwaits : r.status.awaited? ≠ none) : w.latest ≤ now := by
  have hstart := hadmits.2 hwaits
  rw [Watch.latest]
  rcases hreported : w.reported with _ | earlier
  · exact hstart
  · exact Int.max_le.mpr ⟨hstart, hadmits.1 earlier (h.reported earlier hreported)⟩

omit [FilterStage σ] [OutputSink κ] in
@[simp] theorem checkInstants_append (first second : List (Occurrence κ)) :
    checkInstants (first ++ second) = checkInstants first ++ checkInstants second :=
  List.filterMap_append

omit [FilterStage σ] [OutputSink κ] in
/-- A check moves the instant of the wait where the watch has it then. -/
theorem Watching.checked (h : Watching events w r) {settings : RenderSettings} {now : Instant}
    (hadmits : w.Admits events r now) :
    (r.checkTimeout settings now).2 =
      r.waitingSince (w.checked now (r.checkTimeout settings now).1).latest := by
  rw [checkTimeout_eq h.since]
  split
  · rename_i timeout path htimeout hawaited
    split
    · have hstart := hadmits.2 (by rw [hawaited]; exact nofun)
      change _ = r.waitingSince (max w.start now)
      rw [Int.max_eq_right hstart]
    · exact h.since.symm
  · exact h.since.symm

/-- What a watch knows, it knows along every history. -/
theorem Watched.watching {memory : μ} {lines : Lines} {clock : Instant}
    (h : Watched setup (Render.fresh memory lines clock) events w r) : Watching events w r := by
  induction h with
  | start => exact ⟨⟨[], .empty, fun _ => rfl⟩, rfl, nofun⟩
  | @call events w r call fuel outcome r' before hother hcall ih =>
    obtain ⟨tickets, hin⟩ := ih.settled
    have hsettled := HostCall.run_inOrder hin hcall
    rw [Watch.after]
    -- a call either leaves the wait as it is, or whatever wait there is then begins now
    cases hleaves : call.leavesWaiting r
    · obtain ⟨-, hbegan⟩ := HostCall.run_ending setup fuel hin hleaves hother
      exact ⟨⟨_, hsettled⟩, hbegan outcome r' hcall, nofun⟩
    · obtain ⟨outcome₁, r₁, -, hsame⟩ := HostCall.run_leaving setup fuel hin hleaves hother
      have hran := hsame w.latest
      rw [ih.since, hcall] at hran
      cases hran
      refine ⟨⟨_, hsettled⟩, waitingSince_waitingSince _ _ _, fun now hnow => ?_⟩
      rw [checkInstants_append]
      exact List.mem_append_left _ (ih.reported now hnow)
  | @check events w r before now hadmits ih =>
    obtain ⟨tickets, hin⟩ := ih.settled
    refine ⟨⟨tickets, hin.checkTimeout⟩, ?_, fun earlier hearlier => ?_⟩
    · rw [ih.checked hadmits, waitingSince_waitingSince]
    · rw [checkInstants_append, List.mem_append]
      unfold Watch.checked at hearlier
      split at hearlier
      · exact .inl (ih.reported earlier hearlier)
      · cases hearlier
        exact .inr (List.mem_singleton_self _)
  | @outside events w r before move ih =>
    obtain ⟨tickets, hin⟩ := ih.settled
    obtain ⟨pipe, lines, clock, hframe, hpipe⟩ := move.apply_frame r
    refine ⟨⟨tickets, ?_⟩, ?_, fun now hnow => ?_⟩
    · rw [hframe]
      exact ⟨hin.accounted, fun hpiping => hpipe (hin.unpiped hpiping)⟩
    · rw [← outside_waitingSince, ih.since]
    · rw [checkInstants_append]
      exact List.mem_append_left _ (ih.reported now hnow)

omit [FilterStage σ] [OutputSink κ] in
theorem leavesWaiting_waitingSince (call : HostCall κ) (r : Render σ κ μ) (since : Instant) :
    call.leavesWaiting (r.waitingSince since) = call.leavesWaiting r := by
  unfold HostCall.leavesWaiting
  simp only [waitingSince, Status.awaited?_waitingSince]

omit [FilterStage σ] [OutputSink κ] in
@[simp] theorem withoutChecks_append (first second : List (Occurrence κ)) :
    withoutChecks (first ++ second) = withoutChecks first ++ withoutChecks second :=
  List.filter_append ..

omit [FilterStage σ] [OutputSink κ] in
theorem withoutChecks_call {call : HostCall κ} (hother : call.isCheck = false)
    (outcome : Except RenderError Unit) :
    withoutChecks [.call call outcome] = [.call call outcome] := by
  rw [withoutChecks, List.filter_cons_of_pos (by simp [Occurrence.isCheck, hother])]
  rfl

/-- **Without the checks** the render comes to the same place; its wait is as old as it is. -/
theorem Watched.unchecked {memory : μ} {lines : Lines} {clock : Instant}
    (h : Watched setup (Render.fresh memory lines clock) events w r) :
    ∃ r₀, Watched setup (Render.fresh memory lines clock) (withoutChecks events)
      { start := w.start } r₀ ∧ r = r₀.waitingSince w.latest := by
  induction h with
  | start => exact ⟨_, .start, rfl⟩
  | @call events w r call fuel outcome r' before hother hcall ih =>
    obtain ⟨r₀, hr₀, rfl⟩ := ih
    have hwatching := hr₀.watching
    obtain ⟨tickets, hin⟩ := hwatching.settled
    rw [withoutChecks_append, withoutChecks_call hother, Watch.after, leavesWaiting_waitingSince]
    cases hleaves : call.leavesWaiting r₀
    · obtain ⟨hsame, hbegan⟩ := HostCall.run_ending setup fuel hin hleaves hother
      rw [hsame] at hcall
      have hnext := hr₀.call hother hcall
      rw [Watch.after, hleaves] at hnext
      exact ⟨r', hnext, (hbegan outcome r' hcall).symm⟩
    · obtain ⟨outcome₁, r₁, -, hsame⟩ := HostCall.run_leaving setup fuel hin hleaves hother
      rw [hsame] at hcall
      cases hcall
      have hcall₀ := hsame w.start
      rw [show r₀.waitingSince w.start = r₀ from hwatching.since] at hcall₀
      have hnext := hr₀.call hother hcall₀
      rw [Watch.after, hleaves] at hnext
      exact ⟨_, hnext, (waitingSince_waitingSince _ _ _).symm⟩
  | @check events w r before now hadmits ih =>
    obtain ⟨r₀, hr₀, rfl⟩ := ih
    have hstart : ∀ outcome, (w.checked now outcome).start = w.start := fun outcome => by
      rcases outcome with _ | _ <;> rfl
    rw [withoutChecks_append, hstart]
    refine ⟨r₀, (List.append_nil _).symm ▸ hr₀, ?_⟩
    rw [before.watching.checked hadmits, waitingSince_waitingSince]
  | @outside events w r before move ih =>
    obtain ⟨r₀, hr₀, rfl⟩ := ih
    rw [withoutChecks_append]
    exact ⟨_, hr₀.outside move, outside_waitingSince _ _ _⟩

/-! ## Reports

A history with checks and its watch determine every report: whether there is one, and what it
says. -/

/-- What a watched history says about a render with a timeout. -/
structure ReportsExactly (setup : Setup σ μ) (start : Render σ κ μ) (timeout : Nat)
    (events : List (Occurrence κ)) (w : Watch) (r : Render σ κ μ) : Prop where
  /-- a check reports a wait whose watch is at least a timeout old, with its path and this time -/
  check : ∀ now, w.Admits events r now → r.checkTimeout setup.settings now =
    match r.status.awaited? with
    | none => (.ok (), r)
    | some path =>
      if w.latest + timeout ≤ now then
        (.error (.unresolvedVariable path (now - w.latest).toNat), r.waitingSince now)
      else (.ok (), r)
  /-- the time is not cut off: a check is not before the watch -/
  elapsed : ∀ now, w.Admits events r now → r.status.awaited? ≠ none → w.latest ≤ now
  deadline : r.waitDeadline setup.settings =
    r.status.awaited?.map fun _ => w.latest + timeout
  /-- a check at the deadline reports the wait -/
  at_deadline : ∀ path, r.status.awaited? = some path →
    r.checkTimeout setup.settings (w.latest + timeout) =
      (.error (.unresolvedVariable path timeout), r.waitingSince (w.latest + timeout))
  before_deadline : ∀ now deadline, w.Admits events r now →
    r.waitDeadline setup.settings = some deadline → now < deadline →
      r.checkTimeout setup.settings now = (.ok (), r)
  /-- what does not make the variable resolve leaves the wait as old as it is -/
  leaving : ∀ (call : HostCall κ) fuel outcome r', call.isCheck = false →
    call.leavesWaiting r = true → call.run setup fuel r = some (outcome, r') →
      r'.status = r.status
  /-- without the checks all is the same, with the same outcomes, but the instant of the wait -/
  unchecked : ∃ r₀, Watched setup start (withoutChecks events) { start := w.start } r₀ ∧
    r = r₀.waitingSince w.latest

/-- **Reports are exact, and change nothing else.** Whatever the host calls, with whatever
directives, filters and sink, and whatever happens outside: a check reports a wait if and only if it
has lasted for the timeout since it began or was reported last. -/
theorem timeouts_exact {memory : μ} {lines : Lines} {clock : Instant} {timeout : Nat}
    (htimeout : setup.settings.waitTimeout = some timeout)
    (h : Watched setup (Render.fresh memory lines clock) events w r) :
    ReportsExactly setup (Render.fresh memory lines clock) timeout events w r := by
  have hwatching := h.watching
  have hcheck : ∀ now, r.status.awaited? = none ∨ w.latest ≤ now →
      r.checkTimeout setup.settings now =
        match r.status.awaited? with
        | none => (.ok (), r)
        | some path =>
          if w.latest + timeout ≤ now then
            (.error (.unresolvedVariable path (now - w.latest).toNat), r.waitingSince now)
          else (.ok (), r) := by
    intro now hlatest
    rw [checkTimeout_eq hwatching.since, htimeout]
    rcases hawaited : r.status.awaited? with _ | path
    · rfl
    · have hle := hlatest.resolve_left (by rw [hawaited]; exact nofun)
      simp only [le_toNat_sub_iff hle]
  have hcheck_admitted : ∀ now, w.Admits events r now → _ := fun now hadmits =>
    hcheck now ((Classical.em _).imp id fun hwaits => hwatching.latest_le hadmits hwaits)
  have hdeadline : r.waitDeadline setup.settings =
      r.status.awaited?.map fun _ => w.latest + timeout := by
    rw [waitDeadline_eq hwatching.since, htimeout]
  refine ⟨hcheck_admitted, fun now hadmits hwaits => hwatching.latest_le hadmits hwaits, hdeadline,
    fun path hawaited => ?_, fun now deadline hadmits hat hlt => ?_,
    fun call fuel outcome r' hother hleaves hcall => ?_, h.unchecked⟩
  · rw [hcheck _ (.inr (Int.le_add_of_nonneg_right (Int.natCast_nonneg timeout))), hawaited]
    dsimp only
    rw [if_pos (Int.le_refl _), Int.add_comm, Int.add_sub_cancel]
    rfl
  · rw [hcheck_admitted now hadmits]
    rw [hdeadline] at hat
    obtain ⟨path, hawaited, rfl⟩ := Option.map_eq_some_iff.mp hat
    rw [hawaited]
    exact if_neg (Int.not_le.mpr hlt)
  · obtain ⟨tickets, hin⟩ := hwatching.settled
    obtain ⟨outcome₁, r₁, hstatus, hsame⟩ := HostCall.run_leaving setup fuel hin hleaves hother
    have hran := hsame w.latest
    rw [hwatching.since, hcall] at hran
    cases hran
    rw [waitingSince, hstatus]
    exact waitingSince_eq_self_iff.mp hwatching.since

/-- A template that emits `x`, with a timeout of one millisecond. -/
def emitsX : Setup TextFilter Unit :=
  ⟨⟨[.directive "var" [.path ⟨["x"]⟩]]⟩, Directive.builtins, TextFilter.registry id,
    { waitTimeoutMs := some 1 }⟩

/-- A wait since the instant 5, reported at its deadline; then a write elsewhere. The next deadline
is a millisecond later. -/
theorem timeouts_exact_reported : ∃ r : Render TextFilter Collector Unit,
    emitsX.settings.waitTimeout = some 1000000 ∧
      r.status = .suspended (.variable ⟨["x"]⟩ 0 1000005) ∧
      r.waitDeadline emitsX.settings = some 2000005 ∧
      ∃ events w, Watched emitsX (Render.fresh () {} 5) events w r ∧
        checkInstants events = [400000, 1000005] ∧ w.latest = 1000005 ∧
        ReportsExactly emitsX (Render.fresh () {} 5) 1000000 events w r := by
  have hattach : HostCall.run emitsX 9 (.attach {})
      (Render.fresh () {} 5 : Render TextFilter Collector Unit) = some (.ok (), _) := rfl
  have hwaiting := Watched.start.call rfl hattach
  have hearly := hwaiting.check 400000 ⟨nofun, fun _ => by decide⟩
  have hdue := hearly.check 1000005 ⟨by decide, fun _ => by decide⟩
  have hwatched := hdue.call rfl
    (show HostCall.run emitsX 9 (.set ⟨["y"]⟩ .null) _ = some (.ok (), _) from rfl)
  exact ⟨_, rfl, rfl, rfl, _, _, hwatched, rfl, rfl, timeouts_exact rfl hwatched⟩

end Histories

end StreamingTemplate

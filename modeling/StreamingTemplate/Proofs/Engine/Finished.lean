import StreamingTemplate.Engine.Drive
import StreamingTemplate.Filter.Text
import StreamingTemplate.Proofs.Engine.Moment
import StreamingTemplate.Proofs.Engine.Settled

/-!
# Finished renders

A render that is done or has failed is at its end. Its host can go on to write variables and to ask
for them, and that is all that still happens: to the variables, the questions of the host and the
answers, what would happen without a render.

* `HostCall.afterwards` — what a call does to a finished render, which is what it does
  (`HostCall.run_of_finished`);
* `History.stuck` — a finished render never moves again;
* `finishedInvariant` — no run begins on it, so no turn and no body of a directive comes again;
* `Desk` — variables with the questions parked on them, without a render. A finished render that
  came from a fresh one shows a desk, and what is called on the render is called on the desk.

`finished_terminal` puts this together.
-/

namespace StreamingTemplate

open Render

variable {σ κ μ : Type}

/-! ## Calls on a finished render

Of the calls that let a render go on none finds anything to do: attaching is for an idle render,
advancing for one that runs, and the others for one that is suspended or has a pipe. What is left
are writes and questions. -/

namespace HostCall

/-- Whether a call lets the render go on. The others do what a directive does. -/
def proceeds : HostCall κ → Bool
  | .attach _ | .advance | .pump | .set .. | .get .. | .checkTimeout _ | .feed _
  | .forward _ => true
  | .emit _ | .skip | .restart | .close => false

/-- What a call does to a finished render. -/
def afterwards (call : HostCall κ) (r : Render σ κ μ) : Outcome σ κ μ Unit :=
  match call with
  | .set path value => r.setWithin path value
  | .get path ticket => r.get path ticket
  | _ => (.ok (), r)

theorem afterwards_frame (call : HostCall κ) (r : Render σ κ μ) :
    ∃ store answers, (call.afterwards r).2 = { r with store, answers } := by
  cases call with
  | set path value => exact setWithin_frame path value r
  | get path ticket =>
    rw [afterwards, Render.get]
    split
    · exact ⟨r.store, r.answers, rfl⟩
    · obtain ⟨store, answers, hframe, -⟩ := ask_frame path ticket r
      exact ⟨store, answers, hframe⟩
  | _ => exact ⟨r.store, r.answers, rfl⟩

end HostCall

theorem Status.isFinished_iff {status : Status} :
    status.isFinished = true ↔ status = .done ∨ status = .failed := by
  cases status <;> simp [isFinished]

section Calls

variable [FilterStage σ] [OutputSink κ] {setup : Setup σ μ} {start r r' : Render σ κ μ} {fuel : Nat}

/-- Without a pipe what was waited for goes nowhere. -/
theorem feedPipe_of_none (h : r.pipe = none) (event : Pipe.Event) :
    feedPipe setup fuel event r = pump setup fuel r := by
  unfold feedPipe
  split
  · rename_i hpipe
    rw [h] at hpipe
    cases hpipe
  · rfl

/-- **A call on a finished render** returns at once, with any fuel. -/
theorem HostCall.run_of_finished {call : HostCall κ} (hproceeds : call.proceeds = true)
    (hfinished : r.status.isFinished = true) (hpipe : r.pipe = none) :
    call.run setup fuel r = some (call.afterwards r) := by
  have hstatus := Status.isFinished_iff.mp hfinished
  have hpump : Render.pump setup fuel r = some (.ok (), r) := by
    rcases hstatus with hstatus | hstatus <;> rw [Render.pump, hstatus] <;> rfl
  cases call with
  | emit | skip | restart | close => cases hproceeds
  | attach sink =>
    rcases hstatus with hstatus | hstatus <;> rw [run, Render.attach, hstatus] <;> rfl
  | advance => rcases hstatus with hstatus | hstatus <;> rw [run, Render.advance, hstatus] <;> rfl
  | pump => exact hpump
  | set path value =>
    refine set_eq_setWithin ?_
    rcases hstatus with hstatus | hstatus <;> rw [hstatus] <;> rfl
  | get path ticket => rfl
  | checkTimeout now =>
    rcases hstatus with hstatus | hstatus <;> simp [run, afterwards, Render.checkTimeout, hstatus]
  | feed event => exact (feedPipe_of_none hpipe event).trans hpump
  | forward side =>
    rw [run, waitSide?, hpipe]
    rfl

/-- A call leaves a finished render as it is but for the variables, the waits and the answers. -/
theorem HostCall.run_stuck {call : HostCall κ} (hproceeds : call.proceeds = true)
    (hfinished : r.status.isFinished = true) (hpipe : r.pipe = none)
    {outcome : Except RenderError Unit} (hcall : call.run setup fuel r = some (outcome, r')) :
    ∃ store answers, r' = { r with store, answers } := by
  rw [run_of_finished hproceeds hfinished hpipe] at hcall
  obtain ⟨store, answers, hframe⟩ := call.afterwards_frame r
  rw [Option.some.inj hcall] at hframe
  exact ⟨store, answers, hframe⟩

/-- **A finished render never moves again**: whatever the host calls and whatever happens outside,
it stays as it is but for the variables, the waits and the answers, the lines and the time. -/
theorem History.stuck {record : List (HostCall κ × Except RenderError Unit)}
    (h : History setup start record r) (hfinished : start.status.isFinished = true)
    (hpipe : start.pipe = none) (hproceeds : ∀ entry ∈ record, entry.1.proceeds = true) :
    ∃ store answers lines clock, r = { start with store, answers, lines, clock } := by
  induction h with
  | start => exact ⟨start.store, start.answers, start.lines, start.clock, rfl⟩
  | call before hcall ih =>
    obtain ⟨store, answers, lines, clock, rfl⟩ :=
      ih fun entry hentry => hproceeds entry (List.mem_append_left _ hentry)
    have hlast := hproceeds _ (List.mem_append_right _ List.mem_cons_self)
    obtain ⟨store', answers', rfl⟩ :=
      HostCall.run_stuck hlast (by exact hfinished) (by exact hpipe) hcall
    exact ⟨store', answers', lines, clock, rfl⟩
  | outside before move ih =>
    obtain ⟨store, answers, lines, clock, rfl⟩ := ih hproceeds
    obtain ⟨pipe, lines', clock', hframe, hnone⟩ :=
      move.apply_frame { start with store, answers, lines, clock }
    obtain rfl := hnone hpipe
    refine ⟨store, answers, lines', clock', hframe.trans ?_⟩
    rw [← hpipe]

/-- A driver returns at once from a finished render, and takes nothing from the queue. -/
theorem poll_of_finished (hfinished : r.status.isFinished = true) (now : Instant) (listening : Bool)
    (inbox : Inbox) :
    poll setup now (fuel + 1) listening inbox r =
      some ⟨.returned (.ok ()), listening, inbox, r⟩ := by
  have hstep : driveStep setup now listening inbox r = (.return, r) := by
    simp [driveStep, hfinished]
  rw [poll, hstep]

/-! ## No run begins

As an invariant of the moments of a render: where a run would begin there is a status that a
finished render does not have, so nothing holds of a turn or of the inside of a body. -/

/-- **No run begins** on a finished render, also not by the calls that do what a directive does: it
is never about to take a turn or inside of a body. -/
def finishedInvariant (setup : Setup σ μ) (κ : Type) [OutputSink κ] : Invariant setup κ where
  rest r := r.status.isFinished = true ∧ r.pipe = none
  inside r := r.status.isFinished = true ∧ r.pipe = none
  turn _ _ := False
  closing _ _ := False
  body _ _ := False
  waits h _ _ := h
  sink h _ := h
  skip h := h
  restart {r} h := by
    obtain ⟨blocks, skip, cursor, hframe⟩ := restartBlock_frame r
    rwa [hframe]
  close {r} h := by
    obtain ⟨blocks, skip, hframe⟩ := closeCurrent_frame r
    rwa [hframe]
  report h hstatus _ := by
    rw [hstatus] at h
    cases h.1
  outside {r} h move := by
    obtain ⟨pipe, lines, clock, hframe, hnone⟩ := move.apply_frame r
    rw [hframe]
    exact ⟨h.1, hnone h.2⟩
  enter h := h
  leave h _ := h
  feed h hpipe _ _ _ := by
    rw [h.2] at hpipe
    cases hpipe
  fail h err := ⟨rfl, dropPipe_pipe _⟩
  attach h hstatus _ := by
    rw [hstatus] at h
    cases h.1
  advance h hstatus := by
    rw [hstatus] at h
    cases h.1
  drain {r _} h hstatus := by
    rcases Status.isFinished_iff.mp h.1 with hfinished | hfinished <;> rw [hfinished] at hstatus <;>
      cases hstatus
  resume h hstatus _ := by
    rw [hstatus] at h
    cases h.1
  next _ h := h
  stop _ h := h.elim
  arrive h _ := h
  call h _ _ := h
  handBack h := h
  kept _ := ⟨fun _ _ h => h, fun _ h => h, fun _ h => h, fun _ h => h, fun _ _ _ h => h,
    fun _ _ h => h, fun _ _ h => h⟩

end Calls

/-! ## Variables without a render

The desk has the same waits, but with the host's questions alone. Its operations do what those of
a finished render do, which is shown for each of them by `onto`, the render with the desk's
variables, questions and answers. -/

namespace Store

variable {W V : Type}

/-- The same variables with other waits in the places of the parked ones. -/
def map (f : W → V) (s : Store W) : Store V :=
  ⟨s.vars, s.parked.map fun entry => (entry.1, f entry.2)⟩

/-- A write does not look at who waits. -/
theorem set_map (f : W → V) (s : Store W) (path : Path) (value : Value) :
    (s.map f).set path value =
      (s.set path value).map fun written => (written.1.map f, written.2.map f) := by
  -- whether a write succeeds and what it writes is up to the variables
  have hvars : (s.map f).vars = s.vars := rfl
  rw [set, set, hvars]
  cases write s.vars value path.segments with
  | error fault => rfl
  | ok vars => simp [Except.map, map, List.filter_map, Function.comp_def]

end Store

/-- Variables with the questions that are parked on them, and the answers given so far. -/
structure Desk where
  store : Store (Path × String) := {}
  /-- the answers, in order, with their tickets -/
  answers : List (String × Value) := []

namespace Desk

/-- Answers a question, or parks it until the next write under its first segment. -/
def ask (path : Path) (ticket : String) (d : Desk) : Desk :=
  match d.store.resolve path with
  | some value => { d with answers := d.answers ++ [(ticket, value)] }
  | none => { d with store := d.store.subscribe path (path, ticket) }

/-- Asks questions again, in order. -/
def askAll : List (Path × String) → Desk → Desk
  | [], d => d
  | (path, ticket) :: rest, d => askAll rest (d.ask path ticket)

/-- Writes a variable and asks the questions under its first segment again. -/
def set (path : Path) (value : Value) (d : Desk) : Except RenderError Unit × Desk :=
  match d.store.set path value with
  | .error err => (.error err, d)
  | .ok (store, woken) => (.ok (), askAll woken { d with store })

/-- Asks for the value at a path under a ticket. -/
def get (path : Path) (ticket : String) (d : Desk) : Except RenderError Unit × Desk :=
  if path.isEmpty then (.error (.malformedPath path .empty), d) else (.ok (), d.ask path ticket)

/-- Carries a call out; only writes and questions are for a desk. -/
def call (call : HostCall κ) (d : Desk) : Except RenderError Unit × Desk :=
  match call with
  | .set path value => d.set path value
  | .get path ticket => d.get path ticket
  | _ => (.ok (), d)

/-- Carries calls out in order. Beside the last desk stand the outcomes. -/
def calls : List (HostCall κ) → Desk → List (Except RenderError Unit) × Desk
  | [], d => ([], d)
  | call :: rest, d =>
    ((d.call call).1 :: (calls rest (d.call call).2).1, (calls rest (d.call call).2).2)

/-- A question as a wait of a render. -/
def wait (question : Path × String) : Waiter := .host question.1 question.2

/-- A render with the variables, the questions and the answers of a desk. -/
def onto (d : Desk) (r : Render σ κ μ) : Render σ κ μ :=
  { r with store := d.store.map wait, answers := d.answers }

variable {d : Desk} {r : Render σ κ μ}

/-- Calls in two parts. -/
theorem calls_append (first second : List (HostCall κ)) (d : Desk) :
    calls (first ++ second) d =
      ((calls first d).1 ++ (calls second (calls first d).2).1,
        (calls second (calls first d).2).2) := by
  induction first generalizing d with
  | nil => rfl
  | cons call rest ih =>
    rw [List.cons_append, calls, ih]
    rfl

/-- A question on the render is one on its desk. -/
theorem ask_onto (path : Path) (ticket : String) :
    (d.onto r).ask path ticket = (d.ask path ticket).onto r := by
  have hresolve : (d.onto r).store.resolve path = d.store.resolve path := rfl
  rw [Render.ask, Desk.ask, hresolve]
  cases d.store.resolve path with
  | some value => rfl
  | none => simp [onto, Store.subscribe, Store.map, wait]

/-- Serving the questions that a write has woken is asking them again on the desk. -/
theorem wakeHosts_onto (woken : List (Path × String)) :
    wakeHosts (woken.map wait) (d.onto r) = (d.askAll woken).onto r := by
  induction woken generalizing d with
  | nil => rfl
  | cons question rest ih =>
    obtain ⟨path, ticket⟩ := question
    show wakeHosts (rest.map wait) ((d.onto r).ask path ticket) = _
    rw [ask_onto, ih]
    rfl

/-- A write on the render is one on its desk. -/
theorem setWithin_onto (path : Path) (value : Value) :
    (d.onto r).setWithin path value = ((d.set path value).1, (d.set path value).2.onto r) := by
  have hstore : (d.onto r).store = d.store.map wait := rfl
  rw [setWithin, Desk.set, hstore, Store.set_map]
  cases d.store.set path value with
  | error err => rfl
  | ok written =>
    have hwoken := wakeHosts_onto (d := { d with store := written.1 }) (r := r) written.2
    exact Prod.ext rfl hwoken

/-- **What is called on a finished render is called on the desk** that it shows. -/
theorem afterwards_onto (call : HostCall κ) :
    call.afterwards (d.onto r) = ((d.call call).1, (d.call call).2.onto r) := by
  cases call with
  | set path value => exact setWithin_onto path value
  | get path ticket =>
    rw [HostCall.afterwards, Render.get, Desk.call, Desk.get]
    split
    · rfl
    · rw [ask_onto]
  | _ => rfl

/-- Waits that are all the host's are questions. -/
theorem exists_questions {waits : List (String × Waiter)} (h : .engine ∉ waits.map (·.2)) :
    ∃ questions : List (String × (Path × String)),
      (questions.map fun entry => (entry.1, wait entry.2)) = waits := by
  induction waits with
  | nil => exact ⟨[], rfl⟩
  | cons entry rest ih =>
    rw [List.map_cons, List.mem_cons, not_or] at h
    obtain ⟨questions, rfl⟩ := ih h.2
    obtain ⟨key, wait⟩ := entry
    cases wait with
    | engine => exact absurd rfl h.1
    | host path ticket => exact ⟨(key, (path, ticket)) :: questions, rfl⟩

/-- A render without a wait of its own shows a desk. -/
theorem exists_onto (h : .engine ∉ r.store.parked.map (·.2)) : ∃ d : Desk, d.onto r = r := by
  obtain ⟨questions, hquestions⟩ := exists_questions h
  refine ⟨⟨⟨r.store.vars, questions⟩, r.answers⟩, ?_⟩
  rw [onto, Store.map, hquestions]

/-- A render with a desk put onto it has no wait of its own. -/
theorem engine_not_mem_onto : .engine ∉ (d.onto r).store.parked.map (·.2) := by
  intro h
  obtain ⟨entry, hentry, hengine⟩ := List.mem_map.mp h
  obtain ⟨question, -, rfl⟩ := List.mem_map.mp hentry
  cases hengine

end Desk

/-! ## The end of a render

Later calls are compared with the desk by induction on the history, and the moments of the render
are those of `finishedInvariant`. -/

variable [FilterStage σ] [OutputSink κ] {setup : Setup σ μ} {r r' : Render σ κ μ} {memory : μ}
  {lines : Lines} {clock : Instant} {record record' : List (HostCall κ × Except RenderError Unit)}

/-- A finished render that came from a fresh one has no pipe and no wait of its own. -/
theorem History.atRest (h : History setup (fresh memory lines clock) record r)
    (hfinished : r.status.isFinished = true) :
    r.pipe = none ∧ .engine ∉ r.store.parked.map (·.2) := by
  have hnone : r.status.awaited? = none ∧ r.status.piping? = none := by
    rcases Status.isFinished_iff.mp hfinished with hstatus | hstatus <;> rw [hstatus] <;>
      exact ⟨rfl, rfl⟩
  have hin := h.inOrder
  have haccounted := hin.accounted
  rw [hnone.1] at haccounted
  exact ⟨hin.unpiped hnone.2, List.count_eq_zero.mp haccounted.own_none.1⟩

/-- **Later calls** on a finished render are calls on the desk that it shows. -/
theorem History.onDesk {desk : Desk} (h : History setup r record' r')
    (hfinished : r.status.isFinished = true) (hpipe : r.pipe = none) (hdesk : desk.onto r = r)
    (hproceeds : ∀ entry ∈ record', entry.1.proceeds = true) :
    record'.map (·.2) = (desk.calls (record'.map (·.1))).1 ∧
      ∃ lines clock, r' = (desk.calls (record'.map (·.1))).2.onto { r with lines, clock } := by
  induction h with
  | start => exact ⟨rfl, r.lines, r.clock, hdesk.symm⟩
  | @call record₁ r₁ call fuel outcome r₂ before hcall ih =>
    obtain ⟨houtcomes, lines, clock, rfl⟩ :=
      ih fun entry hentry => hproceeds entry (List.mem_append_left _ hentry)
    have hlast := hproceeds _ (List.mem_append_right _ List.mem_cons_self)
    have hran := hcall.symm.trans
      (HostCall.run_of_finished hlast (by exact hfinished) (by exact hpipe))
    rw [Desk.afterwards_onto] at hran
    obtain ⟨houtcome, rfl⟩ := Prod.mk.inj (Option.some.inj hran)
    rw [List.map_append, List.map_append, Desk.calls_append, houtcomes]
    refine ⟨?_, lines, clock, rfl⟩
    rw [List.map_singleton, houtcome]
    rfl
  | @outside record₁ r₁ before move ih =>
    obtain ⟨houtcomes, lines, clock, rfl⟩ := ih hproceeds
    obtain ⟨pipe, lines', clock', hframe, hnone⟩ := move.apply_frame
      ((desk.calls (record₁.map (·.1))).2.onto { r with lines, clock })
    obtain rfl := hnone hpipe
    refine ⟨houtcomes, lines', clock', hframe.trans ?_⟩
    rw [← hpipe]
    rfl

/-- A render `r'` behind later calls on a render `r` that is finished, where `desk` is what the desk
that `r` showed has become by these calls. -/
structure Terminal (setup : Setup σ μ) (r : Render σ κ μ) (desk : Desk) (r' : Render σ κ μ) :
    Prop where
  status : r'.status = r.status
  cursor : r'.cursor = r.cursor
  blocks : r'.blocks = r.blocks
  skip : r'.skip = r.skip
  sink : r'.sink = r.sink
  memory : r'.memory = r.memory
  pipe : r'.pipe = none
  /-- no wait of the render itself is left -/
  stale : .engine ∉ r'.store.parked.map (·.2)
  /-- the variables, the questions and the answers are those of the desk -/
  shows : desk.onto r' = r'
  /-- each call returns, and is one on the desk -/
  returns : ∀ call fuel, HostCall.proceeds call = true →
    call.run setup fuel r' = some ((desk.call call).1, (desk.call call).2.onto r')
  /-- a driver returns at once and takes nothing from the queue -/
  drives : ∀ now fuel listening inbox, poll setup now (fuel + 1) listening inbox r' =
    some ⟨.returned (.ok ()), listening, inbox, r'⟩

/-- **Done and failed are terminal.** Of every render that is finished, whatever was called before,
with whatever directives, filters and sink: whatever is called later and happens outside, the render
stays as it is but for its variables, its questions and its answers, and these are what they would
be without a render. The outcomes of the calls are those of the desk, too. No run begins any more,
and so no body of a directive does. -/
theorem finished_terminal (h : History setup (fresh memory lines clock) record r)
    (hfinished : r.status.isFinished = true) :
    (∃ desk : Desk, desk.onto r = r ∧ ∀ record' r', History setup r record' r' →
      (∀ entry ∈ record', entry.1.proceeds = true) →
        record'.map (·.2) = (desk.calls (record'.map (·.1))).1 ∧
          Terminal setup r (desk.calls (record'.map (·.1))).2 r') ∧
    ∀ activity r', Moment setup r activity r' → activity = .rest := by
  obtain ⟨hpipe, hown⟩ := h.atRest hfinished
  obtain ⟨desk, hdesk⟩ := Desk.exists_onto hown
  refine ⟨⟨desk, hdesk, ?_⟩, ?_⟩
  · intro record' r' hlater hproceeds
    obtain ⟨houtcomes, lines', clock', rfl⟩ := hlater.onDesk hfinished hpipe hdesk hproceeds
    refine ⟨houtcomes, rfl, rfl, rfl, rfl, rfl, rfl, hpipe, Desk.engine_not_mem_onto, rfl, ?_, ?_⟩
    · intro call fuel hcall
      have hran := congrArg some (Desk.afterwards_onto (d := (desk.calls (record'.map (·.1))).2)
        (r := { r with lines := lines', clock := clock' }) call)
      exact (HostCall.run_of_finished hcall (by exact hfinished) (by exact hpipe)).trans hran
    · intro now fuel listening inbox
      exact poll_of_finished (by exact hfinished) now listening inbox
  · intro activity r' hmoment
    have hfalse := (finishedInvariant setup κ).moment hmoment ⟨hfinished, hpipe⟩
    cases activity with
    | rest => rfl
    | turn | closing | body => exact hfalse.elim

/-- A text that waits for a variable, and then closes a block that was not opened. -/
def unopened : Setup TextFilter Unit where
  template := ⟨[.directive "var" [.path ⟨["x"]⟩], .directive "endif" []]⟩
  directives := Directive.builtins
  filters := TextFilter.registry id

/-- A write resumes the render, which fails, and a question that was woken by the same write is
parked again. It is answered later. -/
theorem finished_terminal_resumed : ∃ r r' : Render TextFilter Collector Unit,
    HostCall.runAll unopened 9
        [.attach {}, .get ⟨["x", "y"]⟩ "q", .set ⟨["x"]⟩ (.object [])] (fresh ()) =
      some ([.ok (), .ok (), .error (.unbalancedBlock 1)], r) ∧
    HostCall.runAll unopened 9 [.attach {}, .set ⟨["x", "y"]⟩ (.bool true), .pump] r =
      some ([.ok (), .ok (), .ok ()], r') ∧
    r.status = .failed ∧ r'.answers = [("q", .bool true)] ∧
    ∃ desk, Terminal unopened r desk r' := by
  obtain ⟨r, hrun, hfailed, r', hlater, hanswers⟩ : ∃ r : Render TextFilter Collector Unit,
      HostCall.runAll unopened 9
          [.attach {}, .get ⟨["x", "y"]⟩ "q", .set ⟨["x"]⟩ (.object [])] (fresh ()) =
        some ([.ok (), .ok (), .error (.unbalancedBlock 1)], r) ∧ r.status = .failed ∧
      ∃ r', HostCall.runAll unopened 9 [.attach {}, .set ⟨["x", "y"]⟩ (.bool true), .pump] r =
        some ([.ok (), .ok (), .ok ()], r') ∧ r'.answers = [("q", .bool true)] :=
    ⟨_, rfl, rfl, _, rfl, rfl⟩
  have hfinished : r.status.isFinished = true := by
    rw [hfailed]
    rfl
  obtain ⟨⟨desk, -, hterminal⟩, -⟩ := finished_terminal (History.start.runAll hrun) hfinished
  obtain ⟨-, hend⟩ :=
    hterminal _ r' (History.start.runAll hlater) (by simp [HostCall.proceeds])
  exact ⟨r, r', hrun, hlater, hfailed, hanswers, _, hend⟩

end StreamingTemplate

import StreamingTemplate.Proofs.Engine.Builtin
import StreamingTemplate.Proofs.Engine.Settled

/-!
# When the variables arrive

With the built-in directives and filters, what a render comes to depends on the variables it has
been given and not on when: before the sink was attached, one by one while the render waits for
them, or for something else. Two schedules of the same variables are compared at the end.

At every moment after the sink was attached, a render is where the walk through the template halts
with the variables of that moment (`Shows`). A new variable lets that walk go on, by `walk_extend`,
or it does not; the waits of the store tell the render which (`Shows.set`).
-/

namespace StreamingTemplate

open OutputSink

/-! ## Schedules

Beside the writes and the attaching of the sink a schedule can have questions, calls that ask the
render to go on, and the clock. -/

/-- The error of an outcome, if there is one. -/
def errorOf : Except RenderError Unit → List RenderError
  | .ok _ => []
  | .error err => [err]

/-- What happens to a render, in the order of a schedule. -/
inductive Arrival where
  | attach
  /-- a variable is given its value -/
  | set (key : String) (value : Value)
  | get (path : Path) (ticket : String)
  | advance
  | pump
  /-- time passes -/
  | tick (now : Instant)

namespace Arrival

def isAttach : Arrival → Bool
  | .attach => true
  | _ => false

/-- The variables of a schedule, in order. -/
def written : List Arrival → List (String × Value)
  | [] => []
  | .set key value :: rest => (key, value) :: written rest
  | _ :: rest => written rest

theorem written_append (first second : List Arrival) :
    written (first ++ second) = written first ++ written second := by
  induction first with
  | nil => rfl
  | cons a rest ih => cases a <;> simp [written, ih]

variable {σ κ μ : Type} [FilterStage σ] [OutputSink κ]

/-- Carries one step of a schedule out; `sink` is the sink to attach. -/
def run (setup : Setup σ μ) (fuel : Nat) (sink : κ) (a : Arrival) (r : Render σ κ μ) :
    Option (Render.Outcome σ κ μ Unit) :=
  match a with
  | .attach => HostCall.run setup fuel (.attach sink) r
  | .set key value => HostCall.run setup fuel (.set ⟨[key]⟩ value) r
  | .get path ticket => HostCall.run setup fuel (.get path ticket) r
  | .advance => HostCall.run setup fuel .advance r
  | .pump => HostCall.run setup fuel .pump r
  | .tick now => some (.ok (), OutsideMove.apply (.tick now) r)

/-- The error a step reports; a refused question is none of the render. -/
def reported : Arrival → Except RenderError Unit → List RenderError
  | .get .., _ => []
  | _, outcome => errorOf outcome

/-- Carries a schedule out. Beside the last render stand the errors reported on the way. -/
def runAll (setup : Setup σ μ) (fuel : Nat) (sink : κ) :
    List Arrival → Render σ κ μ → Option (List RenderError × Render σ κ μ)
  | [], r => some ([], r)
  | a :: rest, r =>
    match a.run setup fuel sink r with
    | none => none
    | some (outcome, r) =>
      (runAll setup fuel sink rest r).map fun (errors, r) => (a.reported outcome ++ errors, r)

end Arrival

/-! ## Where a render is

The walk is computed from the variables alone, and `Shows` says that a render is where it halts.
The instant since which a render waits is no part of this, since it depends on when it was
attached or woken. -/

/-- The status of a render whose walk has come to a halt; the instant since which it waits is left
out. -/
def Halt.status : Halt → Status
  | .done => .done
  | .waits path directive _ => .suspended (.variable path directive 0)
  | .fails _ => .failed
  | .streams => .running

/-- The status without the instant since which the render waits. -/
def Status.timeless : Status → Status
  | .suspended (.variable path directive _) => .suspended (.variable path directive 0)
  | status => status

theorem Status.awaited?_timeless (status : Status) :
    status.timeless.awaited? = status.awaited? := by
  unfold timeless
  split <;> rfl

theorem Halt.awaited_eq_some {halt : Halt} {path : Path}
    (h : halt.status.awaited? = some path) :
    ∃ directive question, halt = .waits path directive question := by
  cases halt with
  | waits path' directive question =>
    obtain rfl := Option.some.inj h
    exact ⟨directive, question, rfl⟩
  | _ => cases h

theorem Status.timeless_eq {status other : Status} (h : status.timeless = other)
    (hother : other.awaited? = none) : status = other := by
  unfold timeless at h
  split at h
  · subst h
    cases hother
  · exact h

theorem Status.timeless_eq_variable {status : Status} {path : Path} {directive : Nat}
    (h : status.timeless = .suspended (.variable path directive 0)) :
    ∃ since, status = .suspended (.variable path directive since) := by
  unfold timeless at h
  split at h
  · rename_i since
    obtain ⟨rfl, rfl, -⟩ := Wait.variable.inj (Status.suspended.inj h)
    exact ⟨since, rfl⟩
  · rename_i hstatus
    exact absurd h (hstatus path directive 0)

namespace Walk

/-- The sink at the halt of a walk. -/
def sinkAfter {κ : Type} [OutputSink κ] (sink : κ) (w : Walk) : κ :=
  match w.halt with
  | .done => (close (deliver sink w.chunks)).1
  | _ => deliver sink w.chunks

/-- The error of a walk. -/
def errors (w : Walk) : List RenderError :=
  match w.halt with
  | .fails err => [err]
  | _ => []

theorem sinkAfter_after {κ : Type} [OutputSink κ] (sink : κ) (chunks : List String) (w : Walk) :
    (w.after chunks).sinkAfter sink = w.sinkAfter (deliver sink chunks) := by
  rw [sinkAfter, sinkAfter, chunks_after, deliver_append, halt_after]

end Walk

namespace Render

variable {κ μ : Type} [OutputSink κ]

/-- The render is where a walk has come to a halt. A walk also halts at a value that is a stream,
but then it does not say how the render goes on, so no render shows such a halt. -/
structure Shows (w : Walk) (sink : κ) (r : Render TextFilter κ μ) : Prop where
  place : r.place = w.place
  sink : r.sink = some (w.sinkAfter sink)
  status : r.status.timeless = w.halt.status
  pipe : r.pipe = none
  streams : w.halt ≠ .streams

namespace Shows

variable {w : Walk} {sink : κ} {r : Render TextFilter κ μ}

/-- Where a walk lands, the render shows it, and the outcome has its error. -/
theorem of_landed (lines : Lines) (sink : κ) (hpipe : r.pipe = none)
    (hstreams : w.halt ≠ .streams) :
    ∃ outcome r', landed w sink lines r = (outcome, r') ∧ r'.store.vars = r.store.vars ∧
      Shows w sink r' ∧ errorOf outcome = w.errors := by
  obtain ⟨chunks, place, halt⟩ := w
  cases halt with
  | streams => exact absurd rfl hstreams
  | _ => exact ⟨_, _, rfl, rfl, ⟨rfl, rfl, rfl, hpipe, hstreams⟩, rfl⟩

theorem after {chunks : List String} (h : Shows w (deliver sink chunks) r) :
    Shows (w.after chunks) sink r :=
  ⟨h.place, (Walk.sinkAfter_after sink chunks w).symm ▸ h.sink, h.status, h.pipe, h.streams⟩

theorem frame (h : Shows w sink r) (store : Store Waiter) (answers : List (String × Value))
    (clock : Instant) : Shows w sink { r with store, answers, clock } :=
  ⟨h.place, h.sink, h.status, h.pipe, h.streams⟩

/-- The render has stopped. -/
theorem stopped (h : Shows w sink r) : r.status = .done ∨ r.status = .failed ∨
    ∃ path directive since, r.status = .suspended (.variable path directive since) := by
  have hstatus := h.status
  rcases hhalt : w.halt with _ | ⟨path, directive, question⟩ | err | _ <;> rw [hhalt] at hstatus
  · exact .inl (Status.timeless_eq hstatus rfl)
  · exact .inr (.inr ⟨path, directive, Status.timeless_eq_variable hstatus⟩)
  · exact .inr (.inl (Status.timeless_eq hstatus rfl))
  · exact absurd hhalt h.streams

/-- A render waits for a variable if its walk does. -/
theorem awaited (h : Shows w sink r) : r.status.awaited? = w.halt.status.awaited? := by
  rw [← Status.awaited?_timeless, h.status]

variable [SteadySink κ] {template : Template} {settings : RenderSettings} {fuel : Nat}

/-- **Resuming.** A waiting render that is woken with more variables comes to where the walk halts
now. It reports an error if the walk fails now. -/
theorem resumeParked {look : Path → Option Value} {path : Path} {index : Nat} {question : Question}
    (h : Shows (walk look {} template.instructions) sink r)
    (hhalt : (walk look {} template.instructions).halt = .waits path index question)
    (hlook : ∀ path value, look path = some value → r.store.resolve path = some value)
    (hstreams : ∀ path value, r.store.resolve path = some value → ∀ id, value ≠ .stream id)
    (settings : RenderSettings) (hfuel : 4 * template.size + 3 ≤ fuel) :
    ∃ outcome r', Render.resumeParked (Setup.builtin template settings) fuel r =
        some (outcome, r') ∧ r'.store.vars = r.store.vars ∧
      Shows (walk r.store.resolve {} template.instructions) sink r' ∧
      errorOf outcome = (walk r.store.resolve {} template.instructions).errors := by
  -- with more variables the walk is the old one up to its halt, and goes on from there
  obtain ⟨-, name, args, hget, hask⟩ := walk_waits (p := {}) List.drop_zero hhalt
  have hextend := walk_extend hlook (p := {}) (List.drop_zero (l := template.instructions))
  have hnow := walk_streams hstreams template.instructions {}
  generalize walk look {} template.instructions = w at h hhalt hextend
  rw [Walk.resume, hhalt] at hextend
  obtain ⟨since, hstatus⟩ := Status.timeless_eq_variable (h.status.trans (by rw [hhalt]; rfl))
  dsimp only at hextend
  rcases hvalue : r.store.resolve path with _ | value <;> rw [hvalue] at hextend <;>
    dsimp only at hextend
  · -- what it waits for is still missing, so it parks its wait again
    have hresume : Render.resumeParked (Setup.builtin template settings) fuel r =
        some (.ok (), { r with store := r.store.subscribe path .engine }) := by
      simp only [Render.resumeParked, hstatus, hvalue]
    rw [hextend]
    refine ⟨_, _, hresume, rfl, h.frame _ r.answers r.clock, ?_⟩
    rw [Walk.errors, hhalt]
    rfl
  · -- it is there, and the run goes on behind the answered question
    have hresume : Render.resumeParked (Setup.builtin template settings) fuel r =
        run (Setup.builtin template settings) fuel (.resume index value)
          { r with status := .running } := by
      simp only [Render.resumeParked, hstatus, hvalue]
    rw [hextend, Walk.halt_after, ← h.place] at hnow
    rw [hextend, ← h.place]
    have hsink : r.sink = some (deliver sink w.chunks) := by
      rw [h.sink, Walk.sinkAfter, hhalt]
    have hfuel : 4 * (template.instructions.drop r.cursor).length + 3 ≤ fuel := by
      rw [List.length_drop]
      rw [Template.size] at hfuel
      omega
    obtain ⟨lines, hrun⟩ := run_onward settings (r := { r with status := .running }) hget hask hsink
      h.pipe rfl hfuel rfl hnow
    obtain ⟨outcome, r', hlanded, hvars, hshows, herrors⟩ :=
      of_landed lines (deliver sink w.chunks) (r := { r with status := .running }) h.pipe hnow
    exact ⟨outcome, r', hresume.trans (hrun.trans (congrArg some hlanded)), hvars, hshows.after,
      herrors⟩

omit [SteadySink κ] in
/-- Serving waits of the host leaves the render where it is. -/
theorem wakeHosts (h : Shows w sink r) (woken : List Waiter) :
    Shows w sink (wakeHosts woken r) ∧ (wakeHosts woken r).store.vars = r.store.vars := by
  obtain ⟨store, answers, hframe, hvars⟩ := wakeHosts_frame woken r
  rw [hframe]
  exact ⟨h.frame store answers r.clock, hvars⟩

omit [OutputSink κ] [SteadySink κ] in
/-- The render's own wait is woken by a write only if it waits for a path through the variable. -/
theorem mem_woken {questions : List String} {key : String} {value : Value} {store : Store Waiter}
    {woken : List Waiter} (hwaits : r.InOrder [] questions)
    (hset : r.store.set ⟨[key]⟩ value = .ok (store, woken)) :
    .engine ∈ woken ↔ ∃ path, r.status.awaited? = some path ∧ path.waitKey = key := by
  have hparked : .engine ∈ woken ↔
      (key, Waiter.engine) ∈ r.store.parked.filter (·.2 = .engine) := by
    rw [(Store.set_eq_ok hset).2.2]
    simp [Path.waitKey_mk_cons, and_comm]
  rw [hparked, hwaits.accounted.filter_own]
  simp

omit [SteadySink κ] in
/-- The walk stays where it is as long as what the render waits for is not there. -/
theorem walk_unmoved {look look' : Path → Option Value}
    (h : Shows (walk look {} template.instructions) sink r)
    (hlook : ∀ path value, look path = some value → look' path = some value)
    (hmiss : ∀ path, look path = none → r.status.awaited? = some path → look' path = none) :
    walk look' {} template.instructions = walk look {} template.instructions := by
  have hextend := walk_extend hlook (p := {}) (List.drop_zero (l := template.instructions))
  rw [Walk.resume] at hextend
  split at hextend
  · rename_i path index question hhalt
    have hpath : r.status.awaited? = some path := h.awaited.trans (by rw [hhalt]; rfl)
    rwa [hmiss path (walk_waits (p := {}) List.drop_zero hhalt).1 hpath] at hextend
  · exact hextend

/-- Waking waits among which is the render's own wakes it once. -/
theorem wake_own {path : Path} {index : Nat} {question : Question} {look : Path → Option Value}
    {first second : List Waiter} (h : Shows (walk look {} template.instructions) sink r)
    (hhalt : (walk look {} template.instructions).halt = .waits path index question)
    (honce : (first ++ .engine :: second).count .engine ≤ 1)
    (hlook : ∀ path value, look path = some value → r.store.resolve path = some value)
    (hstreams : ∀ path value, r.store.resolve path = some value → ∀ id, value ≠ .stream id)
    (settings : RenderSettings) (hfuel : 4 * template.size + 3 ≤ fuel) :
    ∃ outcome r', Render.wake (Setup.builtin template settings) fuel (first ++ .engine :: second)
        (.ok (), r) = some (outcome, r') ∧ r'.store.vars = r.store.vars ∧
      Shows (walk r.store.resolve {} template.instructions) sink r' ∧
      errorOf outcome = (walk r.store.resolve {} template.instructions).errors := by
  rw [List.count_append, List.count_cons_self] at honce
  have hfirst : .engine ∉ first := List.count_eq_zero.mp (by omega)
  have hsecond : .engine ∉ second := List.count_eq_zero.mp (by omega)
  obtain ⟨h₁, hvars₁⟩ := h.wakeHosts first
  have hresolve := Store.resolve_congr hvars₁
  obtain ⟨outcome, r₂, hresume, hvars₂, h₂, herrors⟩ := h₁.resumeParked hhalt
    (by rw [hresolve]; exact hlook) (by rw [hresolve]; exact hstreams) settings hfuel
  obtain ⟨h₃, hvars₃⟩ := h₂.wakeHosts second
  rw [hresolve] at h₃ herrors
  refine ⟨outcome, Render.wakeHosts second r₂, ?_, hvars₃.trans (hvars₂.trans hvars₁), h₃, herrors⟩
  rw [wake_append, wake_of_not_mem hfirst, Option.bind_some, wake, hresume]
  exact wake_of_not_mem hsecond _

/-- **A new variable.** After a write, the render is where the walk halts with the new variable
too. The write reports an error if the walk fails now and has not failed before. The variable has
to be new: what the walk has passed already was rendered with the value of that moment. -/
theorem set (settings : RenderSettings) {questions : List String} {key : String} {value : Value}
    (h : Shows (walk r.store.resolve {} template.instructions) sink r)
    (hwaits : r.InOrder [] questions) (habsent : Fields.find? key r.store.vars = none)
    (hfree : Value.streamFreeFields (r.store.vars ++ [(key, value)]) = true)
    (hfuel : 4 * template.size + 3 ≤ fuel) :
    ∃ outcome r', Render.set (Setup.builtin template settings) fuel ⟨[key]⟩ value r =
        some (outcome, r') ∧ r'.store.vars = r.store.vars ++ [(key, value)] ∧
      Shows (walk r'.store.resolve {} template.instructions) sink r' ∧
      (walk r.store.resolve {} template.instructions).errors ++ errorOf outcome =
        (walk r'.store.resolve {} template.instructions).errors := by
  obtain ⟨store, woken, hset⟩ : ∃ store woken, r.store.set ⟨[key]⟩ value = .ok (store, woken) :=
    ⟨_, _, rfl⟩
  have hvars : store.vars = r.store.vars ++ [(key, value)] := by
    rw [← Except.ok.inj (Store.set_eq_ok hset).1, Fields.insert_of_find?_none habsent]
  have hlook : ∀ path found, r.store.resolve path = some found →
      store.resolve path = some found := by
    intro path found hfound
    rw [Store.resolve, hvars]
    exact Store.lookup_new habsent value hfound
  have hstreams : ∀ path found, store.resolve path = some found → ∀ id, found ≠ .stream id :=
    fun path found hfound => Value.ne_stream (Store.streamFree_lookup (hvars ▸ hfree) hfound)
  have hset' : Render.set (Setup.builtin template settings) fuel ⟨[key]⟩ value r =
      Render.wake (Setup.builtin template settings) fuel woken (.ok (), { r with store }) := by
    rw [Render.set, hset]
  have hframe := h.frame store r.answers r.clock
  -- the write wakes the render, or what the render waits for is under another key
  by_cases hmem : .engine ∈ woken
  · obtain ⟨path, hpath, -⟩ := (mem_woken hwaits hset).mp hmem
    obtain ⟨index, question, hhalt⟩ := Halt.awaited_eq_some (h.awaited.symm.trans hpath)
    obtain ⟨first, second, rfl⟩ := List.append_of_mem hmem
    have honce := (hwaits.accounted.set hset).own_le
    rw [List.append_nil] at honce
    obtain ⟨outcome, r', hwake, hvars', hshows, herrors⟩ :=
      hframe.wake_own hhalt (Nat.le_trans (Nat.le_add_left _ _) honce) hlook hstreams settings hfuel
    refine ⟨outcome, r', hset'.trans hwake, hvars'.trans hvars, ?_, ?_⟩
    · rwa [Store.resolve_congr hvars']
    · rw [Store.resolve_congr hvars', ← herrors, Walk.errors, hhalt]
      rfl
  · obtain ⟨h₁, hvars₁⟩ := hframe.wakeHosts woken
    have hwalk : walk store.resolve {} template.instructions =
        walk r.store.resolve {} template.instructions := by
      refine h.walk_unmoved hlook fun path hnone hpath => ?_
      have hne : path.waitKey ≠ key :=
        fun hkey => hmem ((mem_woken hwaits hset).mpr ⟨path, hpath, hkey⟩)
      rw [Store.resolve, hvars, Store.lookup_new_of_ne habsent value hne]
      exact hnone
    refine ⟨.ok (), Render.wakeHosts woken { r with store },
      hset'.trans (wake_of_not_mem hmem _), hvars₁.trans hvars, ?_, ?_⟩
    · rw [Store.resolve_congr hvars₁]
      exact hwalk ▸ h₁
    · rw [Store.resolve_congr hvars₁]
      change _ = (walk store.resolve {} template.instructions).errors
      rw [hwalk, errorOf, List.append_nil]

end Shows

variable [SteadySink κ] {template : Template} {settings : RenderSettings} {fuel : Nat} {sink : κ}

/-! ## Schedules step by step

Before the sink is attached a write only changes the variables; afterwards it also moves the
walk. Along a schedule the errors reported so far are those of the walk with the variables so
far, which can only fail once. -/

/-- What holds of a render at every moment of a schedule: before the sink is attached it has not
moved, and afterwards it is where the walk halts, and has reported the error of the walk. -/
structure Arrived (template : Template) (sink : κ) (attached : Bool) (errors : List RenderError)
    (r : Render TextFilter κ μ) : Prop where
  waits : ∃ questions, r.InOrder [] questions
  before : attached = false → r.status = .idle ∧ r.place = {} ∧ errors = []
  after : attached = true → Shows (walk r.store.resolve {} template.instructions) sink r ∧
    errors = (walk r.store.resolve {} template.instructions).errors

omit [OutputSink κ] [SteadySink κ] in
theorem setWithin_new {r : Render TextFilter κ μ} {key : String}
    (habsent : Fields.find? key r.store.vars = none) (value : Value) :
    ∃ store answers, r.setWithin ⟨[key]⟩ value = (.ok (), { r with store, answers }) ∧
      store.vars = r.store.vars ++ [(key, value)] := by
  obtain ⟨store, answers, hframe, hvars⟩ := wakeHosts_frame
    ((r.store.parked.filter (·.1 == key)).map (·.2))
    { r with store := ⟨Fields.insert key value r.store.vars, r.store.parked.filter (·.1 != key)⟩ }
  refine ⟨store, answers, congrArg (Prod.mk _) hframe, ?_⟩
  rw [hvars, ← Fields.insert_of_find?_none habsent]

namespace Arrived

variable {attached : Bool} {errors : List RenderError} {r r' : Render TextFilter κ μ}

omit [SteadySink κ] in
/-- Nothing is left to be done until a variable arrives. -/
theorem rests (h : Arrived template sink attached errors r) :
    r.status ≠ .running ∧ r.status.piping? = none := by
  cases attached with
  | false => simp [(h.before rfl).1, Status.piping?]
  | true =>
    rcases (h.after rfl).1.stopped with hstatus | hstatus | ⟨path, directive, since, hstatus⟩ <;>
      simp [hstatus, Status.piping?]

omit [SteadySink κ] in
/-- Questions and time do not move a render. -/
theorem frame (h : Arrived template sink attached errors r) {store : Store Waiter}
    {answers : List (String × Value)} {clock : Instant} (hvars : store.vars = r.store.vars)
    (hwaits : ∃ questions, InOrder [] questions { r with store, answers, clock }) :
    Arrived template sink attached errors { r with store, answers, clock } where
  waits := hwaits
  before := h.before
  after hattached := by
    rw [show Store.resolve store = _ from Store.resolve_congr hvars]
    obtain ⟨hshows, herrors⟩ := h.after hattached
    exact ⟨hshows.frame store answers clock, herrors⟩

theorem attach (h : Arrived template sink false errors r) (settings : RenderSettings)
    (hfree : Value.streamFreeFields r.store.vars = true) (hfuel : 4 * template.size + 3 ≤ fuel) :
    ∃ outcome r', Arrival.attach.run (Setup.builtin template settings) fuel sink r =
        some (outcome, r') ∧ r'.store.vars = r.store.vars ∧
      Arrived template sink true (errors ++ errorOf outcome) r' := by
  obtain ⟨questions, hwaits⟩ := h.waits
  obtain ⟨hstatus, hplace, rfl⟩ := h.before rfl
  have hpipe : r.pipe = none := hwaits.unpiped (by rw [hstatus]; rfl)
  have hstreams : (walk r.store.resolve {} template.instructions).halt ≠ .streams :=
    walk_streams (fun path value hvalue =>
      Value.ne_stream (Store.streamFree_lookup hfree hvalue)) _ _
  have hcursor : r.cursor = 0 := congrArg Place.cursor hplace
  obtain ⟨lines, hattach⟩ := attach_walk template settings sink hstatus (by rw [hcursor]; rfl) hpipe
    (Nat.le_trans (Nat.add_le_add_left (by decide) _) hfuel)
    (congrArg (walk r.store.resolve · template.instructions) hplace) hstreams
  obtain ⟨outcome, r', hlanded, hvars, hshows, herrors⟩ :=
    Shows.of_landed lines sink (r := { r with sink := some sink, status := .running }) hpipe
      hstreams
  rw [hlanded] at hattach
  refine ⟨outcome, r', hattach, hvars, ⟨_, hwaits.attach hattach⟩, nofun, fun _ => ?_⟩
  rw [Store.resolve_congr hvars]
  exact ⟨hshows, herrors⟩

/-- A variable arrives. -/
theorem set (h : Arrived template sink attached errors r) (settings : RenderSettings) {key : String}
    {value : Value} (habsent : Fields.find? key r.store.vars = none)
    (hfree : Value.streamFreeFields (r.store.vars ++ [(key, value)]) = true)
    (hfuel : 4 * template.size + 3 ≤ fuel) :
    ∃ outcome r', (Arrival.set key value).run (Setup.builtin template settings) fuel sink r =
        some (outcome, r') ∧ r'.store.vars = r.store.vars ++ [(key, value)] ∧
      Arrived template sink attached (errors ++ errorOf outcome) r' := by
  obtain ⟨questions, hwaits⟩ := h.waits
  cases attached with
  | true =>
    obtain ⟨hshows, rfl⟩ := h.after rfl
    obtain ⟨outcome, r', hset, hvars, hshows', herrors⟩ :=
      Shows.set settings hshows hwaits habsent hfree hfuel
    exact ⟨outcome, r', hset, hvars, ⟨_, hwaits.set hset⟩, nofun, fun _ => ⟨hshows', herrors⟩⟩
  | false =>
    obtain ⟨hstatus, hplace, rfl⟩ := h.before rfl
    obtain ⟨store, answers, hset, hvars⟩ := setWithin_new (r := r) habsent value
    have hrun : Render.set (Setup.builtin template settings) fuel ⟨[key]⟩ value r =
        some (.ok (), { r with store, answers }) :=
      (set_eq_setWithin (by rw [hstatus]; rfl)).trans (congrArg some hset)
    exact ⟨_, _, hrun, hvars, ⟨_, hwaits.set hrun⟩, fun _ => ⟨hstatus, hplace, rfl⟩, nofun⟩

/-- **A step.** Whatever happens next in a schedule returns, and the render is where it should be
with the variables of that moment. -/
theorem step (h : Arrived template sink attached errors r) (settings : RenderSettings) (a : Arrival)
    (hattach : a.isAttach = true → attached = false)
    (hkeys : ((r.store.vars ++ Arrival.written [a]).map (·.1)).Nodup)
    (hfree : Value.streamFreeFields (r.store.vars ++ Arrival.written [a]) = true)
    (hfuel : 4 * template.size + 3 ≤ fuel) :
    ∃ outcome r', a.run (Setup.builtin template settings) fuel sink r = some (outcome, r') ∧
      r'.store.vars = r.store.vars ++ Arrival.written [a] ∧
      Arrived template sink (attached || a.isAttach) (errors ++ a.reported outcome) r' := by
  have hvars : r.store.vars = r.store.vars ++ [] := (List.append_nil _).symm
  have hquiet : Arrived template sink (attached || false) (errors ++ []) r := by
    rwa [Bool.or_false, List.append_nil]
  obtain ⟨questions, hwaits⟩ := h.waits
  cases a with
  | attach =>
    obtain rfl := hattach rfl
    obtain ⟨outcome, r', hrun, hvars', h'⟩ := h.attach settings (hvars ▸ hfree) hfuel
    exact ⟨outcome, r', hrun, hvars'.trans hvars, h'⟩
  | set key value =>
    have habsent : Fields.find? key r.store.vars = none := by
      rw [List.map_append, List.nodup_append] at hkeys
      exact Fields.find?_eq_none_iff.mpr fun hmem => hkeys.2.2 key hmem key List.mem_cons_self rfl
    obtain ⟨outcome, r', hrun, hvars', h'⟩ := h.set settings habsent hfree hfuel
    rw [← Bool.or_false attached] at h'
    exact ⟨outcome, r', hrun, hvars', h'⟩
  | get path ticket =>
    have hask : r.InOrder [] questions → InOrder [] (questions ++ [ticket]) (r.ask path ticket) :=
      fun h => InOrder.ask ⟨h.accounted.question path ticket, h.unpiped⟩
    obtain ⟨store, answers, hframe, hvars'⟩ := ask_frame path ticket r
    rw [hframe] at hask
    rw [Arrival.run, HostCall.run, Render.get, hframe]
    split
    · exact ⟨_, r, rfl, hvars, hquiet⟩
    · exact ⟨_, _, rfl, hvars'.trans hvars, hquiet.frame hvars' ⟨_, hask hwaits⟩⟩
  | advance =>
    refine ⟨.ok (), r, ?_, hvars, hquiet⟩
    rw [Arrival.run, HostCall.run, Render.advance, if_neg h.rests.1]
  | pump =>
    refine ⟨.ok (), r, ?_, hvars, hquiet⟩
    rw [Arrival.run, HostCall.run, Render.pump, h.rests.2]
  | tick now =>
    exact ⟨.ok (), _, rfl, hvars, hquiet.frame rfl ⟨questions, hwaits.accounted, hwaits.unpiped⟩⟩

/-- **A schedule.** Every schedule returns, and the render is where it should be with all of its
variables. -/
theorem runAll {schedule : List Arrival} (h : Arrived template sink attached errors r)
    (settings : RenderSettings)
    (hattach : schedule.countP (·.isAttach) + attached.toNat ≤ 1)
    (hkeys : ((r.store.vars ++ Arrival.written schedule).map (·.1)).Nodup)
    (hfree : Value.streamFreeFields (r.store.vars ++ Arrival.written schedule) = true)
    (hfuel : 4 * template.size + 3 ≤ fuel) :
    ∃ errors' r', Arrival.runAll (Setup.builtin template settings) fuel sink schedule r =
        some (errors', r') ∧
      r'.store.vars = r.store.vars ++ Arrival.written schedule ∧
      Arrived template sink (attached || schedule.any (·.isAttach)) (errors ++ errors') r' := by
  induction schedule generalizing attached errors r with
  | nil =>
    refine ⟨[], r, rfl, (List.append_nil _).symm, ?_⟩
    rwa [List.any_nil, Bool.or_false, List.append_nil]
  | cons a rest ih =>
    have hwritten : r.store.vars ++ Arrival.written (a :: rest) =
        r.store.vars ++ Arrival.written [a] ++ Arrival.written rest := by
      rw [List.append_assoc, ← Arrival.written_append]
      rfl
    rw [hwritten] at hkeys hfree ⊢
    have hkeys' := hkeys
    rw [List.map_append, List.nodup_append] at hkeys'
    have hfree' := hfree
    rw [Value.streamFreeFields_append, Bool.and_eq_true] at hfree'
    rw [List.countP_cons] at hattach
    obtain ⟨outcome, r₁, hstep, hvars₁, h₁⟩ := h.step settings a
      (by cases attached <;> simp_all) hkeys'.1 hfree'.1 hfuel
    obtain ⟨errors', r₂, hrest, hvars₂, h₂⟩ := ih h₁
      (by cases attached <;> cases hisAttach : a.isAttach <;> simp_all) (hvars₁ ▸ hkeys)
      (hvars₁ ▸ hfree)
    refine ⟨a.reported outcome ++ errors', r₂, ?_, by rw [hvars₂, hvars₁], ?_⟩
    · rw [Arrival.runAll, hstep]
      dsimp only
      rw [hrest]
      rfl
    · rwa [List.any_cons, ← Bool.or_assoc, ← List.append_assoc]

end Arrived

end Render

/-! ## Schedules of the same variables

Two orders of the same variables give stores in which every path has the same value, and so the
same walk. -/

variable {κ μ : Type} [OutputSink κ] [SteadySink κ]

/-- **It does not matter when the variables arrive.** Two schedules over the built-in directives and
filters that attach the sink once and give the same variables, each once and none with a stream in
it, come to the same: what the sink has taken and whether it is closed, the place, the variables and
the status are the same, and so is the error that has ended the render, if there is one. -/
theorem arrival_irrelevant (template : Template) (settings : RenderSettings) (sink : κ) (memory : μ)
    (lines : Lines) (clock : Instant) (first second : List Arrival) {fuel : Nat}
    (hfirst : first.countP (·.isAttach) = 1) (hsecond : second.countP (·.isAttach) = 1)
    (hwritten : (Arrival.written first).Perm (Arrival.written second))
    (hkeys : ((Arrival.written first).map (·.1)).Nodup)
    (hfree : Value.streamFreeFields (Arrival.written first) = true)
    (hfuel : 4 * template.size + 3 ≤ fuel) :
    ∃ (errors : List RenderError) (r r' : Render TextFilter κ μ),
      Arrival.runAll (Setup.builtin template settings) fuel sink first
          (Render.fresh memory lines clock) = some (errors, r) ∧
        Arrival.runAll (Setup.builtin template settings) fuel sink second
          (Render.fresh memory lines clock) = some (errors, r') ∧
        r.sink = r'.sink ∧ r.cursor = r'.cursor ∧ r.blocks = r'.blocks ∧ r.skip = r'.skip ∧
        r.store.vars.Perm r'.store.vars ∧ (∀ path, r.lookup path = r'.lookup path) ∧
        r.status.timeless = r'.status.timeless ∧
        (r.status = .done ∨ r.status = .failed ∨
          ∃ path directive since, r.status = .suspended (.variable path directive since)) := by
  have hstart : Render.Arrived template sink false []
      (Render.fresh memory lines clock : Render TextFilter κ μ) :=
    ⟨⟨[], .empty, fun _ => rfl⟩, fun _ => ⟨rfl, rfl, rfl⟩, nofun⟩
  have hkeys' := (hwritten.map (·.1)).nodup_iff.mp hkeys
  have hfree' : Value.streamFreeFields (Arrival.written second) = true := by
    rw [Value.streamFreeFields_iff] at hfree ⊢
    exact fun field hfield => hfree field (hwritten.mem_iff.mpr hfield)
  obtain ⟨errors, r, hrun, hvars, h⟩ :=
    hstart.runAll settings (Nat.le_of_eq hfirst) hkeys hfree hfuel
  obtain ⟨errors', r', hrun', hvars', h'⟩ :=
    hstart.runAll settings (Nat.le_of_eq hsecond) hkeys' hfree' hfuel
  have hany : ∀ {schedule : List Arrival}, schedule.countP (·.isAttach) = 1 →
      (false || schedule.any (·.isAttach)) = true := by
    intro schedule hcount
    obtain ⟨a, hmem, ha⟩ := List.countP_pos_iff.mp (Nat.lt_of_lt_of_eq Nat.zero_lt_one hcount.symm)
    exact List.any_eq_true.mpr ⟨a, hmem, ha⟩
  obtain ⟨hshows, herrors⟩ := h.after (hany hfirst)
  obtain ⟨hshows', herrors'⟩ := h'.after (hany hsecond)
  have hperm : r.store.vars.Perm r'.store.vars := by
    rw [hvars, hvars']
    exact hwritten
  have hresolve : r.store.resolve = r'.store.resolve := by
    funext path
    exact Store.lookup_perm hperm (by rw [hvars]; exact hkeys) path.segments
  rw [← hresolve] at hshows' herrors'
  obtain rfl : errors = errors' := herrors.trans herrors'.symm
  have hplace := hshows.place.trans hshows'.place.symm
  exact ⟨errors, r, r', hrun, hrun', hshows.sink.trans hshows'.sink.symm,
    congrArg Place.cursor hplace, congrArg Place.blocks hplace, congrArg Place.skip hplace, hperm,
    congrFun hresolve, hshows.status.trans hshows'.status.symm, hshows.stopped⟩

/-- A render that fails behind a variable fails inside of the call that gives the variable, or
inside of the one that attaches the sink. -/
theorem arrival_irrelevant_unbalanced : ∃ r r' : Render TextFilter Collector Unit,
    Arrival.runAll
        (Setup.builtin ⟨[.directive "var" [.path ⟨["x"]⟩], .directive "endif" []]⟩ {}) 11 {}
        [.attach, .pump, .set "x" (.str "v")] (Render.fresh ()) = some ([.unbalancedBlock 1], r) ∧
      Arrival.runAll
        (Setup.builtin ⟨[.directive "var" [.path ⟨["x"]⟩], .directive "endif" []]⟩ {}) 11 {}
        [.set "x" (.str "v"), .attach] (Render.fresh ()) = some ([.unbalancedBlock 1], r') ∧
      r.sink = r'.sink ∧ r.status.timeless = r'.status.timeless := by
  obtain ⟨errors, r, r', hrun, hrun', hsink, -, -, -, -, -, hstatus, -⟩ :=
    arrival_irrelevant ⟨[.directive "var" [.path ⟨["x"]⟩], .directive "endif" []]⟩ {}
      ({} : Collector) () {} 0 [.attach, .pump, .set "x" (.str "v")]
      [.set "x" (.str "v"), .attach] rfl rfl (.refl _) (by decide) (by decide)
      (show 4 * 2 + 3 ≤ 11 by decide)
  obtain rfl : [.unbalancedBlock 1] = errors := congrArg Prod.fst (Option.some.inj hrun')
  exact ⟨r, r', hrun, hrun', hsink, hstatus⟩

end StreamingTemplate

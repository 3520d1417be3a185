import StreamingTemplate.Filter.Text
import StreamingTemplate.Proofs.Engine.Inquiries
import StreamingTemplate.Proofs.Engine.Moment
import StreamingTemplate.Proofs.Store

/-!
# The order of answers

A write wakes all waits under its key, and most of them are woken too early: they ask again and
park again, one by one, while the render in the middle of them may resume, write variables itself
and wake those that have just parked. What the host has asked at one path is answered in the order
in which it was asked all the same.

* `Queued` — at each path the questions are, in order, those answered, those parked and those due;
* `Queued.set`, `Queued.ask` — the two steps that move a question on;
* `After` — the invariant behind an operation, or that its questions are `Underway` if it never
  returns; each operation on a render has one lemma that says so;
* `answered_in_order` — what is left of the invariant between two calls, and inside of them.
-/

namespace StreamingTemplate

variable {σ κ μ : Type}

/-! ## Questions at a path

Questions are told apart by their tickets, and compared per path, as nothing is promised between
questions at different paths. Three lists are read off for each path: those that were asked,
those that are parked, and those that were answered. -/

/-- The tickets of the questions at a path that were accepted, oldest first. -/
def questionsAt (path : Path) (record : List (HostCall κ × Except RenderError Unit)) :
    List String :=
  record.filterMap fun
    | (.get path' ticket, .ok _) => if path' = path then some ticket else none
    | _ => none

/-- The tickets with which the host waits for a path, in order. -/
def waitingAt (path : Path) (waits : List Waiter) : List String :=
  waits.filterMap fun
    | .host path' ticket => if path' = path then some ticket else none
    | .engine => none

/-- The tickets that were answered at a path, in order. -/
def answeredAt (path : Path) (inquiries : List Inquiry) : List String :=
  inquiries.filterMap fun inquiry =>
    if inquiry.path = path then inquiry.answer?.map (·.1) else none

/-! ## The invariant

A question that was asked is in one of three places: answered, parked in the store, or due, when
it was woken and has not been served yet. `Queued` says that at each path the three places, read
in this order, give the questions in the order in which they were asked. A write takes parked
questions to the front of what is due (`Queued.set`), and serving one answers it or parks it
again at the end (`Queued.ask`); both keep the order, since a write takes all questions of a path
or none. -/

@[simp] theorem questionsAt_append (path : Path)
    (first second : List (HostCall κ × Except RenderError Unit)) :
    questionsAt path (first ++ second) = questionsAt path first ++ questionsAt path second :=
  List.filterMap_append

/-- A question that is accepted is one more at its path, and no other path knows of it. -/
theorem questionsAt_get (path path' : Path) (ticket : String) :
    questionsAt path [((.get path' ticket : HostCall κ), .ok ())] =
      if path' = path then [ticket] else [] := by
  rw [questionsAt, List.filterMap_cons]
  by_cases h : path' = path <;> simp [h]

/-- Only `get` asks. -/
theorem questionsAt_eq_nil {call : HostCall κ} (hother : ∀ path ticket, call ≠ .get path ticket)
    (path : Path) (outcome : Except RenderError Unit) :
    questionsAt path [(call, outcome)] = [] := by
  cases call with
  | get path ticket => exact absurd rfl (hother path ticket)
  | _ => rfl

@[simp] theorem waitingAt_nil (path : Path) : waitingAt path [] = [] := rfl

@[simp] theorem waitingAt_append (path : Path) (first second : List Waiter) :
    waitingAt path (first ++ second) = waitingAt path first ++ waitingAt path second :=
  List.filterMap_append

@[simp] theorem waitingAt_engine (path : Path) (rest : List Waiter) :
    waitingAt path (.engine :: rest) = waitingAt path rest := rfl

/-- A wait of the host counts at its own path. -/
theorem waitingAt_host (path path' : Path) (ticket : String) (rest : List Waiter) :
    waitingAt path (.host path' ticket :: rest) =
      (if path' = path then [ticket] else []) ++ waitingAt path rest := by
  rw [waitingAt, List.filterMap_cons]
  by_cases h : path' = path <;> simp [h, waitingAt]

@[simp] theorem answeredAt_append (path : Path) (first second : List Inquiry) :
    answeredAt path (first ++ second) = answeredAt path first ++ answeredAt path second :=
  List.filterMap_append

/-- Where each wait is under the key of its path, a choice by key takes all waits at a path or
none. -/
theorem waitingAt_filter {parked : List (String × Waiter)}
    (hkey : ∀ key path ticket, (key, .host path ticket) ∈ parked → key = path.waitKey)
    (path : Path) (p : String → Bool) :
    waitingAt path ((parked.filter (p ·.1)).map (·.2)) =
      if p path.waitKey then waitingAt path (parked.map (·.2)) else [] := by
  induction parked with
  | nil => simp [waitingAt]
  | cons entry rest ih =>
    have ih := ih fun key path ticket hmem => hkey key path ticket (List.mem_cons_of_mem _ hmem)
    obtain ⟨key, _ | ⟨path', ticket⟩⟩ := entry
    · rw [List.filter_cons, List.map_cons, waitingAt_engine, ← ih]
      split <;> rfl
    · obtain rfl := hkey key path' ticket List.mem_cons_self
      rw [List.filter_cons, List.map_cons, waitingAt_host]
      by_cases h : path' = path
      · subst h
        cases hp : p path'.waitKey <;> simp [hp, ih, waitingAt_host]
      · cases hp : p path'.waitKey <;> simp [h, ih, waitingAt_host]

/-- The questions of the host while the waits `due` are drained and not yet served, and `inquiries`
have been made. -/
structure Queued (due : List Waiter) (questions : Path → List String) (inquiries : List Inquiry)
    (store : Store Waiter) (answers : List (String × Value)) : Prop where
  /-- the answers are those to the inquiries -/
  answers_eq : answers = inquiries.filterMap Inquiry.answer?
  /-- a parked question is under the first segment of its path, which does not resolve -/
  parked : ∀ key path ticket, (key, .host path ticket) ∈ store.parked →
    key = path.waitKey ∧ store.resolve path = none
  /-- at each path, the questions are those answered, those parked and those due, in this order -/
  order : ∀ path, questions path =
    answeredAt path inquiries ++ waitingAt path (store.parked.map (·.2)) ++ waitingAt path due

namespace Queued

variable {due : List Waiter} {questions : Path → List String} {past : List Inquiry}

section Store

variable {store : Store Waiter} {answers : List (String × Value)}

/-- Nothing waits for a path that resolves. -/
theorem waitingAt_eq_nil (h : Queued due questions past store answers) {path : Path}
    {value : Value} (hres : store.resolve path = some value) :
    waitingAt path (store.parked.map (·.2)) = [] := by
  refine List.filterMap_eq_nil_iff.mpr fun wait hmem => ?_
  obtain ⟨⟨key, wait⟩, hparked, rfl⟩ := List.mem_map.mp hmem
  cases wait with
  | engine => rfl
  | host path' ticket =>
    refine if_neg fun heq => ?_
    subst heq
    cases hres.symm.trans (h.parked key path' ticket hparked).2

/-- **Writing.** The waits that a write wakes are due before those that have been due already. -/
theorem set {store' : Store Waiter} {path : Path} {value : Value} {woken : List Waiter}
    (h : Queued due questions past store answers)
    (hset : store.set path value = .ok (store', woken)) :
    Queued (woken ++ due) questions past store' answers where
  answers_eq := h.answers_eq
  parked key path' ticket hmem := by
    obtain ⟨hwrite, hparked, -⟩ := Store.set_eq_ok hset
    rw [hparked, List.mem_filter] at hmem
    obtain ⟨hkey, hres⟩ := h.parked key path' ticket hmem.1
    have hne : path'.waitKey ≠ path.waitKey := by
      rw [← hkey]
      simpa using hmem.2
    exact ⟨hkey, (Store.lookup_write_of_ne hwrite hne).trans hres⟩
  order path' := by
    have hkey : ∀ key path ticket, (key, .host path ticket) ∈ store.parked →
        key = path.waitKey := fun key path ticket hmem => (h.parked key path ticket hmem).1
    obtain ⟨-, hparked, hwoken⟩ := Store.set_eq_ok hset
    rw [h.order path', hparked, hwoken, waitingAt_append,
      waitingAt_filter hkey path' (· != path.waitKey),
      waitingAt_filter hkey path' (· == path.waitKey)]
    -- all that is parked at a path is woken, or nothing
    by_cases heq : path'.waitKey = path.waitKey <;> simp [heq]

/-- The render's own wait is served. -/
theorem of_engine_due (h : Queued (.engine :: due) questions past store answers) :
    Queued due questions past store answers :=
  ⟨h.answers_eq, h.parked, h.order⟩

/-- The render parks its own wait. -/
theorem suspend (h : Queued due questions past store answers) (path : Path) :
    Queued due questions past (store.subscribe path .engine) answers where
  answers_eq := h.answers_eq
  parked key path' ticket hmem := by
    rcases List.mem_append.mp hmem with hmem | hmem
    · exact h.parked key path' ticket hmem
    · cases List.mem_singleton.mp hmem
  order path' := by
    rw [h.order path', Store.subscribe, List.map_append, waitingAt_append, List.map_singleton,
      waitingAt_engine]
    simp [waitingAt]

/-- A new question is due, while no other is. -/
theorem question (h : Queued [] questions past store answers) (path : Path) (ticket : String) :
    Queued [.host path ticket]
      (fun path' => questions path' ++ if path = path' then [ticket] else []) past store
      answers where
  answers_eq := h.answers_eq
  parked := h.parked
  order path' := by
    rw [h.order path', waitingAt_host]
    simp [waitingAt]

end Store

/-- **Asking.** A due question is answered or parked; both keep it in its place. -/
theorem ask {r : Render σ κ μ} {path : Path} {ticket : String}
    (h : Queued (.host path ticket :: due) questions past r.store r.answers) :
    Queued due questions (past ++ [⟨path, ticket, r.store⟩]) (r.ask path ticket).store
      (r.ask path ticket).answers := by
  rw [Render.ask]
  cases hres : r.store.resolve path with
  -- answered: nothing is parked at a path that resolves, so this question is the first of those
  -- left
  | some value =>
    refine ⟨?_, h.parked, fun path' => ?_⟩
    · rw [h.answers_eq, List.filterMap_append]
      simp [Inquiry.answer?, hres]
    · rw [h.order path', waitingAt_host, answeredAt_append]
      by_cases heq : path = path'
      · subst heq
        simp [h.waitingAt_eq_nil hres, answeredAt, Inquiry.answer?, hres]
      · simp [answeredAt, heq]
  -- parked: the question goes behind those that are parked at its path, which were asked before it
  | none =>
    refine ⟨?_, ?_, fun path' => ?_⟩
    · rw [h.answers_eq, List.filterMap_append]
      simp [Inquiry.answer?, hres]
    · intro key path' ticket' hmem
      rcases List.mem_append.mp hmem with hmem | hmem
      · exact h.parked key path' ticket' hmem
      · cases List.mem_singleton.mp hmem
        exact ⟨rfl, hres⟩
    · rw [h.order path', waitingAt_host, answeredAt_append, Store.subscribe, List.map_append,
        waitingAt_append, List.map_singleton, waitingAt_host]
      simp [answeredAt, Inquiry.answer?, hres, waitingAt]

end Queued

/-! ## While directives run

Directives write while waits are due, and the waits they wake are served before the older ones.
Every operation of the render is followed with the inquiries it makes, and where an operation
does not return, the questions are still `Underway`: that much is enough for the order of those
answered so far. -/

open Render

/-- The questions of a call that has not returned, given the inquiries it has made. -/
def Underway (questions : Path → List String) (inquiries : List Inquiry) : Prop :=
  ∃ due store answers, Queued due questions inquiries store answers

/-- The invariant behind an operation; one that does not return leaves the questions underway. -/
def After {α : Type} (due : List Waiter) (questions : Path → List String)
    (inquiries : List Inquiry) : Option (α × Render σ κ μ) → Prop
  | some (_, r) => Queued due questions inquiries r.store r.answers
  | none => Underway questions inquiries

section Operations

variable {due : List Waiter} {questions : Path → List String} {past : List Inquiry}
  {r r' : Render σ κ μ}

/-- What has been answered was asked first. -/
theorem Underway.answered_first (h : Underway questions past) (path : Path) :
    answeredAt path past <+: questions path := by
  obtain ⟨due, store, answers, h⟩ := h
  rw [h.order path, List.append_assoc]
  exact List.prefix_append _ _

/-- Behind an operation the questions are underway as well. -/
theorem Queued.underway (h : Queued due questions past r.store r.answers) :
    Underway questions past :=
  ⟨_, _, _, h⟩

theorem After.underway {α : Type} {result : Option (α × Render σ κ μ)}
    (h : After due questions past result) : Underway questions past := by
  rcases result with _ | ⟨a, r⟩
  · exact h
  · exact Queued.underway h

namespace Queued

/-- An operation that asks nothing. -/
theorem quiet {α : Type} (a : α) (r : Render σ κ μ)
    (h : Queued due questions past r.store r.answers) :
    After due questions (past ++ []) (some (a, r)) := by
  rw [List.append_nil]
  exact h

/-- A write of a directive serves the host at once, in the order of the list that it has woken. -/
theorem wakeHosts (woken : List Waiter)
    (h : Queued (woken ++ due) questions past r.store r.answers) :
    Queued due questions (past ++ wakeHostsInquiries woken r) (Render.wakeHosts woken r).store
      (Render.wakeHosts woken r).answers := by
  induction woken generalizing r past with
  | nil =>
    rw [wakeHostsInquiries, List.append_nil]
    exact h
  | cons wait rest ih =>
    cases wait with
    | engine => exact ih h.of_engine_due
    | host path ticket =>
      rw [wakeHostsInquiries, List.append_cons]
      exact ih h.ask

/-- A write of a directive: what is woken is due, and then served. -/
theorem setWithin (path : Path) (value : Value)
    (h : Queued due questions past r.store r.answers) :
    Queued due questions (past ++ setWithinInquiries path value r)
      (r.setWithin path value).2.store (r.setWithin path value).2.answers := by
  rw [setWithinInquiries, Render.setWithin]
  rcases hset : r.store.set path value with err | ⟨store, woken⟩
  · dsimp only
    rw [List.append_nil]
    exact h
  · exact wakeHosts (r := { r with store }) woken (h.set hset)

/-! ### Operations that ask nothing

Most operations leave the store and the answers alone, and the invariant with them. -/

theorem reach {d : Directive σ μ} {index : Nat} {res : Except RenderError Nat}
    (h : Queued due questions past r.store r.answers) (hreach : reach d index r = (res, r')) :
    Queued due questions past r'.store r'.answers := by
  obtain ⟨blocks, skip, rfl⟩ := exists_of_reach hreach
  exact h

theorem emitAll [OutputSink κ] {chunks : List String} {res : Except RenderError Unit}
    (h : Queued due questions past r.store r.answers) (hemit : emitAll chunks r = (res, r')) :
    Queued due questions past r'.store r'.answers := by
  obtain ⟨sink, rfl⟩ := exists_of_emitAll hemit
  exact h

theorem dropPipe (h : Queued due questions past r.store r.answers) :
    Queued due questions past r.dropPipe.store r.dropPipe.answers := by
  rw [Render.dropPipe]
  split <;> exact h

/-- A failing render leaves the questions in their place. -/
theorem fail (err : RenderError) (h : Queued due questions past r.store r.answers) :
    Queued due questions past (fail err r).2.store (fail err r).2.answers :=
  h.dropPipe

theorem complete [OutputSink κ] (h : Queued due questions past r.store r.answers) :
    Queued due questions past (complete r).2.store (complete r).2.answers := by
  rw [Render.complete]
  split
  · exact h
  · split
    · exact h
    · exact fail (r := { r with status := .done, sink := some _ }) _ h

/-! ### Bodies, turns and runs

A body asks only by its writes. For a turn there are two lemmas, as it may not return: what it
leaves if it does, and that the questions are underway if it does not. -/

variable [FilterStage σ] [OutputSink κ] {setup : Setup σ μ} {fuel : Nat}

/-- **A body.** -/
theorem perform (setup : Setup σ μ) (fuel : Nat) (body : Body σ μ)
    (h : Queued due questions past r.store r.answers) :
    After due questions (past ++ bodyInquiries setup fuel body r) (perform setup fuel body r) := by
  induction body generalizing r past with
  | done flow | fail err => exact h.quiet _ _
  | emit chunk next ih =>
    obtain ⟨sink, hframe⟩ := emit_frame chunk r
    refine ih _ ?_
    rw [hframe]
    exact h
  | skip next ih => exact ih h
  | restart next ih =>
    obtain ⟨blocks, skip, cursor, hframe⟩ := restartBlock_frame r
    refine ih _ ?_
    rw [hframe]
    exact h
  | close next ih =>
    obtain ⟨blocks, skip, hframe⟩ := closeCurrent_frame r
    refine ih _ ?_
    rw [hframe]
    exact h
  | set path value next ih =>
    rw [bodyInquiries, ← List.append_assoc]
    exact ih _ (h.setWithin path value)
  | build specs next ih =>
    rw [Render.perform, bodyInquiries]
    rcases setup.filters.chain r.lines.handles specs with err | ⟨chain, handles⟩
    · exact ih _ h
    · exact ih _ h
  | feed chain chunk next ih =>
    rw [Render.perform, bodyInquiries]
    rcases chain.accept fuel r.lines.handles chunk with _ | res
    · rw [List.append_nil]
      exact h.underway
    · exact ih _ _ h
  | finish chain next ih =>
    rw [Render.perform, bodyInquiries]
    rcases chain.finish fuel r.lines.handles with _ | res
    · rw [List.append_nil]
      exact h.underway
    · exact ih _ _ h
  | «recall» next ih => exact ih _ h
  | remember memory next ih => exact ih h

/-- A body that has been run to its end. -/
theorem performed {body : Body σ μ} {res : Except RenderError (Flow σ)}
    (h : Queued due questions past r.store r.answers)
    (hbody : Render.perform setup fuel body r = some (res, r')) :
    Queued due questions (past ++ bodyInquiries setup fuel body r) r'.store r'.answers := by
  have := h.perform setup fuel body
  rwa [hbody] at this

/-- A turn that ends. -/
theorem turned {task : Render.Task σ} {t : Turn σ} (ht : Turned setup fuel task r t r')
    (h : Queued due questions past r.store r.answers) :
    Queued due questions (past ++ turnInquiries setup fuel task r) r'.store r'.answers := by
  have hmoved : Queued due questions past { r with cursor := r.cursor + 1 }.store
      { r with cursor := r.cursor + 1 }.answers := h
  unfold turnInquiries
  cases ht with
  | complete hget =>
    simp only [hget, List.append_nil]
    exact h.complete
  | literalSkipped hget hskip =>
    simp only [hget, List.append_nil]
    exact h
  | literalEmitted hget hskip hemit =>
    obtain ⟨sink, rfl⟩ := exists_of_emit hemit
    simp only [hget, List.append_nil]
    exact h
  | literalRefused hget hskip hemit =>
    obtain ⟨sink, rfl⟩ := exists_of_emit hemit
    simp only [hget, List.append_nil]
    exact fail (r := { r with cursor := r.cursor + 1, sink }) _ h
  | unknown hget hdir =>
    simp only [hget, hdir, List.append_nil]
    exact fail (r := { r with cursor := r.cursor + 1 }) _ h
  | unbalanced hget hdir hreach =>
    simp only [hget, hdir, hreach, List.append_nil]
    exact (hmoved.reach hreach).fail _
  | passedBy hget hdir hreach hskip =>
    simp only [hget, hdir, hreach, hskip, if_true, List.append_nil]
    exact hmoved.reach hreach
  | called hget hdir hreach hskip hbody =>
    simp only [hget, hdir, hreach, hskip]
    exact (hmoved.reach hreach).performed hbody
  | callFailed hget hdir hreach hskip hbody =>
    simp only [hget, hdir, hreach, hskip]
    exact ((hmoved.reach hreach).performed hbody).fail _
  | advanced | resolved | piped | draining | nothingToDrain =>
    simp only [List.append_nil]
    exact h
  | suspended hres =>
    simp only [List.append_nil]
    exact h.suspend _
  | consumed hopen =>
    simp only [List.append_nil]
    exact h.fail _
  | resumed hresume hbody =>
    simp only [hresume]
    exact h.performed hbody
  | resumeFailed hresume hbody =>
    simp only [hresume]
    exact (h.performed hbody).fail _
  | resumeUnknown hresume =>
    simp only [hresume, List.append_nil]
    exact h.fail _
  | drainFailed hpipe hread =>
    simp only [List.append_nil]
    exact fail (r := { r with pipe := some _, lines := _ }) _ h
  | drained hpipe hread hemit =>
    simp only [List.append_nil]
    exact emitAll (r := { r with pipe := some _, lines := _ }) h hemit
  | closed hpipe hread hemit =>
    simp only [List.append_nil]
    exact (emitAll (r := { r with pipe := some _, lines := _ }) h hemit).dropPipe
  | drainRefused hpipe hread hchunks hemit =>
    simp only [List.append_nil]
    exact (emitAll (r := { r with pipe := some _, lines := _ }) h hemit).fail _

/-- A turn, whether it ends or not, asks what a body asks, or nothing. -/
theorem turnUnderway (task : Render.Task σ) (h : Queued due questions past r.store r.answers) :
    Underway questions (past ++ turnInquiries setup fuel task r) := by
  have hnothing : Underway questions (past ++ []) := by
    rw [List.append_nil]
    exact h.underway
  cases task with
  | flow index flow => exact hnothing
  | drain index => exact hnothing
  | resume index value =>
    rw [turnInquiries]
    split
    · exact (h.perform _ _ _).underway
    · exact hnothing
  | instruction =>
    rw [turnInquiries]
    split
    · split
      · exact hnothing
      · split
        · exact hnothing
        · rename_i hreach
          split
          · exact hnothing
          · have hreached := reach (r := { r with cursor := r.cursor + 1 }) h hreach
            exact (hreached.perform _ _ _).underway
    · exact hnothing

/-- **A turn.** -/
theorem turn (setup : Setup σ μ) (fuel : Nat) (task : Render.Task σ)
    (h : Queued due questions past r.store r.answers) :
    After due questions (past ++ turnInquiries setup fuel task r) (turn setup fuel task r) := by
  rcases ht : Render.turn setup fuel task r with _ | ⟨t, r'⟩
  · exact h.turnUnderway task
  · exact turned (turn_turned ht) h

/-- **A run.** -/
theorem run (task : Render.Task σ) (h : Queued due questions past r.store r.answers) :
    After due questions (past ++ runInquiries setup fuel task r) (run setup fuel task r) := by
  induction fuel generalizing task r past with
  | zero =>
    rw [runInquiries, List.append_nil]
    exact h.underway
  | succ fuel ih =>
    have hturn := h.turn setup fuel task
    rw [Render.run, runInquiries, ← List.append_assoc]
    rcases ht : Render.turn setup fuel task r with _ | ⟨task' | outcome, r'⟩ <;> rw [ht] at hturn
    · rw [List.append_nil]
      exact hturn
    · exact ih task' hturn
    · exact hturn.quiet _ _

/-! ### Serving what is due

The entries of a woken list are served in order. That of the render itself resumes it, and the
run that this starts may write, wake and serve, all while the rest of the list is still due. -/

/-- The wait of the render is served: it waits again or runs on. -/
theorem resumeParked (setup : Setup σ μ) (fuel : Nat)
    (h : Queued (.engine :: due) questions past r.store r.answers) :
    After due questions (past ++ resumeInquiries setup fuel r) (resumeParked setup fuel r) := by
  have h := h.of_engine_due
  unfold Render.resumeParked resumeInquiries
  rcases r.status with _ | _ | (⟨path, index, since⟩ | _ | _) | _ | _
  case suspended.variable =>
    dsimp only
    rcases r.store.resolve path with _ | value
    · rw [List.append_nil]
      exact h.suspend path
    · exact run (r := { r with status := .running }) _ h
  all_goals exact h.quiet _ _

/-- **Waking.** Each entry of a drained list is served in its turn, and the rest stays due. -/
theorem wake (woken : List Waiter) (outcome : Except RenderError Unit)
    (h : Queued (woken ++ due) questions past r.store r.answers) :
    After due questions (past ++ wakeInquiries setup fuel woken r)
      (wake setup fuel woken (outcome, r)) := by
  induction woken generalizing r past outcome with
  | nil => exact h.quiet _ _
  | cons wait rest ih =>
    cases wait with
    | host path ticket =>
      rw [wakeInquiries, List.append_cons]
      exact ih outcome h.ask
    | engine =>
      -- the run may wake and serve others meanwhile, and finds the rest of the list due as before
      have hresume := resumeParked setup fuel h
      rw [Render.wake, wakeInquiries, ← List.append_assoc]
      rcases hr : Render.resumeParked setup fuel r with _ | ⟨outcome', r'⟩ <;> rw [hr] at hresume
      · rw [List.append_nil]
        exact hresume
      · exact ih outcome' hresume

/-! ## Calls

Between calls nothing is due, so a call starts and ends with the empty list. Its question, if it
is one, is due at once and answered or parked in the same call. -/

theorem pump (h : Queued due questions past r.store r.answers) :
    After due questions (past ++ pumpInquiries setup fuel r) (pump setup fuel r) := by
  rw [Render.pump, pumpInquiries]
  rcases r.status.piping? with _ | index
  · exact h.quiet _ _
  · exact h.run _

/-- Feeding the pipe asks nothing but what the run behind it asks. -/
theorem feedPipe (event : Pipe.Event) (h : Queued due questions past r.store r.answers) :
    After due questions (past ++ feedInquiries setup fuel event r)
      (feedPipe setup fuel event r) := by
  unfold Render.feedPipe feedInquiries
  rcases event with chunk | _ <;> rcases r.pipe with _ | pipe
  case chunk.some =>
    dsimp only
    rcases pipe.pass fuel chunk r.lines with _ | p
    · rw [List.append_nil]
      exact h.underway
    · dsimp only
      rcases hemit : Render.emitAll p.chunks { r with pipe := some p.pipe, lines := p.lines } with
        ⟨err | ⟨⟩, r'⟩
      · have hemitted := emitAll (r := { r with pipe := some p.pipe, lines := p.lines }) h hemit
        exact (hemitted.fail err).quiet _ _
      · exact (emitAll (r := { r with pipe := some p.pipe, lines := p.lines }) h hemit).pump
  all_goals exact h.pump

/-- A call that asks nothing itself. -/
theorem otherCall (setup : Setup σ μ) (fuel : Nat) {call : HostCall κ}
    (hother : ∀ path ticket, call ≠ .get path ticket)
    (h : Queued [] questions past r.store r.answers) :
    After [] questions (past ++ call.inquiries setup fuel r) (call.run setup fuel r) := by
  cases call with
  | get path ticket => exact absurd rfl (hother path ticket)
  | attach sink =>
    rw [HostCall.run, HostCall.inquiries, Render.attach]
    split
    · exact run (r := { r with sink := some sink, status := .running }) _ h
    · exact h.quiet _ _
  | advance =>
    rw [HostCall.run, HostCall.inquiries, Render.advance]
    split
    · exact h.run _
    · exact h.quiet _ _
  | pump => exact h.pump
  | set path value =>
    rw [HostCall.run, HostCall.inquiries, Render.set]
    rcases hset : r.store.set path value with err | ⟨store, woken⟩
    · exact h.quiet _ _
    · exact wake (r := { r with store }) woken _ (h.set hset)
  | feed event => exact h.feedPipe event
  | forward side =>
    rw [HostCall.run, HostCall.inquiries]
    rcases hwait : r.waitSide? side with _ | ⟨event, r₁⟩
    · exact h.quiet _ _
    · obtain ⟨pipe, pipe', lines, -, rfl⟩ := Invariant.waitSide_frame hwait
      exact feedPipe (r := { r with pipe := some pipe', lines }) event h
  | checkTimeout now =>
    refine quiet (r.checkTimeout setup.settings now).1 (r.checkTimeout setup.settings now).2 ?_
    rw [Render.checkTimeout]
    split
    · dsimp only
      split <;> exact h
    · exact h
  | emit chunk =>
    obtain ⟨sink, hframe⟩ := emit_frame chunk r
    refine quiet (r.emit chunk).1 (r.emit chunk).2 ?_
    rw [hframe]
    exact h
  | skip => exact quiet _ r.skipBlock h
  | restart =>
    obtain ⟨blocks, skip, cursor, hframe⟩ := restartBlock_frame r
    refine quiet r.restartBlock.1 r.restartBlock.2 ?_
    rw [hframe]
    exact h
  | close =>
    obtain ⟨blocks, skip, hframe⟩ := closeCurrent_frame r
    refine quiet r.closeCurrent.1 r.closeCurrent.2 ?_
    rw [hframe]
    exact h

/-- **A call.** A question of the host is due at once. -/
theorem hostCall {call : HostCall κ} {outcome : Except RenderError Unit}
    (h : Queued [] questions past r.store r.answers)
    (hcall : call.run setup fuel r = some (outcome, r')) :
    Queued [] (fun path => questions path ++ questionsAt path [(call, outcome)])
      (past ++ call.inquiries setup fuel r) r'.store r'.answers := by
  by_cases hget : ∃ path ticket, call = .get path ticket
  · obtain ⟨path, ticket, rfl⟩ := hget
    rw [HostCall.run, Render.get] at hcall
    rw [HostCall.inquiries]
    cases hempty : path.isEmpty <;> simp only [hempty, if_true] at hcall <;> cases hcall
    · simp only [questionsAt_get]
      exact (h.question path ticket).ask
    · simpa [questionsAt] using h
  · have hother : ∀ path ticket, call ≠ .get path ticket := fun _ _ heq => hget ⟨_, _, heq⟩
    have hafter := h.otherCall setup fuel hother
    rw [hcall] at hafter
    simp only [questionsAt_eq_nil hother, List.append_nil]
    exact hafter

/-- A call that may not have returned yet. -/
theorem callUnderway (call : HostCall κ) (h : Queued [] questions past r.store r.answers) :
    Underway (fun path => questions path ++ questionsAt path [(call, .ok ())])
      (past ++ call.inquiries setup fuel r) := by
  by_cases hget : ∃ path ticket, call = .get path ticket
  · obtain ⟨path, ticket, rfl⟩ := hget
    simp only [questionsAt_get, HostCall.inquiries]
    split
    · rw [List.append_nil]
      exact (h.question path ticket).underway
    · exact (h.question path ticket).ask.underway
  · have hother : ∀ path ticket, call ≠ .get path ticket := fun _ _ heq => hget ⟨_, _, heq⟩
    simp only [questionsAt_eq_nil hother, List.append_nil]
    exact (h.otherCall setup fuel hother).underway

end Queued

end Operations

/-! ## Histories

From call to call by induction. What is left of the invariant when nothing is due is the order
itself. -/

section Histories

variable [FilterStage σ] [OutputSink κ] {setup : Setup σ μ} {r : Render σ κ μ} {memory : μ}
  {lines : Lines} {clock : Instant} {record : List (HostCall κ × Except RenderError Unit)}
  {inquiries : List Inquiry}

/-- Behind every history the invariant holds with nothing due. -/
theorem Inquired.queued (h : Inquired setup (Render.fresh memory lines clock) record inquiries r) :
    Queued [] (questionsAt · record) inquiries r.store r.answers := by
  induction h with
  | start => exact ⟨rfl, by simp [fresh], fun _ => rfl⟩
  | call before hcall ih =>
    simp only [questionsAt_append]
    exact ih.hostCall hcall
  | outside before move ih =>
    obtain ⟨pipe, lines, clock, hframe, -⟩ := move.apply_frame _
    rw [hframe]
    exact ih

/-- What the host has been answered, given its calls and the inquiries in them. -/
structure AnsweredInOrder (setup : Setup σ μ)
    (record : List (HostCall κ × Except RenderError Unit)) (inquiries : List Inquiry)
    (r : Render σ κ μ) : Prop where
  /-- the answers are the values to which the paths resolve at the moments of the inquiries -/
  answers_eq : r.answers = inquiries.filterMap Inquiry.answer?
  /-- at each path those answered were asked first, in this order, and those parked after them -/
  order : ∀ path, questionsAt path record =
    answeredAt path inquiries ++ waitingAt path (r.store.parked.map (·.2))
  /-- the same holds of what is answered inside of the next call, whether it returns or not -/
  inside : ∀ fuel call path,
    answeredAt path (inquiries ++ call.inquiries setup fuel r) <+:
      questionsAt path (record ++ [(call, .ok ())])

/-- **First asked, first answered.** Whatever has been called, with whatever directives, filters and
sink: of two questions at one path the later one is never answered before the earlier one, however
often they were woken and parked again, by the host or by directives, and whether or not the render
has failed meanwhile; and every answer is what its path resolved to when it was given. -/
theorem answered_in_order (h : History setup (Render.fresh memory lines clock) record r) :
    (∃ inquiries, Inquired setup (Render.fresh memory lines clock) record inquiries r) ∧
      ∀ inquiries, Inquired setup (Render.fresh memory lines clock) record inquiries r →
        AnsweredInOrder setup record inquiries r := by
  refine ⟨h.inquired, fun inquiries h =>
    ⟨h.queued.answers_eq, fun path => ?_, fun fuel call path => ?_⟩⟩
  · have := h.queued.order path
    rwa [waitingAt_nil, List.append_nil] at this
  · rw [questionsAt_append]
    exact (h.queued.callUnderway call).answered_first path

/-- A directive that waits for `k.x`, and then writes `k.p` and fails. -/
def writesAndFails : Directive TextFilter Unit where
  call _ := .done (.await ⟨["k", "x"]⟩)
  resume _ _ := .set ⟨["k", "p"]⟩ (.bool true) fun _ => .fail (.sink "full")

/-- Two questions at `k.p`, one before the render's own wait and one behind it. The first write
wakes all three too early. At the second one the first question parks again, the render resumes,
answers it by a write of its own and fails, and the second question is answered behind it. -/
theorem answered_in_order_around : ∃ r : Render TextFilter Collector Unit,
    HostCall.runAll
        ⟨⟨[.directive "d" []]⟩, DirectiveRegistry.empty.register "d" writesAndFails,
          TextFilter.registry id, {}⟩ 9
        [.get ⟨["k", "p"]⟩ "a", .attach {}, .get ⟨["k", "p"]⟩ "b", .set ⟨["k"]⟩ (.object []),
          .set ⟨["k", "x"]⟩ .null] (Render.fresh ()) =
      some ([.ok (), .ok (), .ok (), .ok (), .error (.sink "full")], r) ∧
    r.status = .failed ∧ r.answers.map (·.1) = ["a", "b"] ∧
    ∃ inquiries, answeredAt ⟨["k", "p"]⟩ inquiries = ["a", "b"] ∧
      r.answers = inquiries.filterMap Inquiry.answer? := by
  refine ⟨_, rfl, rfl, rfl, ?_⟩
  have hrun : HostCall.runAll
        ⟨⟨[.directive "d" []]⟩, DirectiveRegistry.empty.register "d" writesAndFails,
          TextFilter.registry id, {}⟩ 9
        [.get ⟨["k", "p"]⟩ "a", .attach {}, .get ⟨["k", "p"]⟩ "b", .set ⟨["k"]⟩ (.object []),
          .set ⟨["k", "x"]⟩ .null] (Render.fresh () : Render TextFilter Collector Unit) =
      some ([.ok (), .ok (), .ok (), .ok (), .error (.sink "full")], _) := rfl
  have h := answered_in_order (History.start.runAll hrun)
  refine h.1.imp fun inquiries hinquired => ⟨?_, (h.2 inquiries hinquired).answers_eq⟩
  have horder : ["a", "b"] = answeredAt ⟨["k", "p"]⟩ inquiries ++ [] :=
    (h.2 inquiries hinquired).order ⟨["k", "p"]⟩
  rw [horder, List.append_nil]

end Histories

end StreamingTemplate

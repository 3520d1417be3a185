import StreamingTemplate.Proofs.Engine.History
import StreamingTemplate.Proofs.Engine.Turn
import StreamingTemplate.Proofs.Store

/-!
# The waits parked on the variables

No wait is lost, doubled or forgotten. A write drains the waits under its key and serves them one by
one, and the render that resumes in the middle can park again, write variables itself and fail. So
the invariant `Accounted` speaks of a store together with the list of waits that are *due*: drained,
and not yet served. Each operation on waits moves the invariant from one list to another:

* `Accounted.set` — a write makes the waits that it wakes due;
* `Accounted.ask` — a due wait of the host is answered or parked again;
* `Accounted.of_engine_due`, `Accounted.suspend` — the render is woken, and waits again.

While directives run the render does not wait (`Free`), which every turn keeps until the run stops
(`Free.run`). A list of due waits is then served entry by entry (`InOrder.wake`).
-/

namespace StreamingTemplate

/-- The path a render waits for. -/
def Status.awaited? : Status → Option Path
  | .suspended (.variable path _ _) => some path
  | _ => none

/-- A render that waits for no variable awaits no path. -/
theorem Status.awaited?_eq_none {status : Status}
    (h : ∀ path directive since, status ≠ .suspended (.variable path directive since)) :
    status.awaited? = none := by
  rw [awaited?]
  exact h

namespace Waiter

/-- The path that is waited for, given the one the render waits for. -/
def path? (awaited : Option Path) : Waiter → Option Path
  | .engine => awaited
  | .host path _ => some path

/-- The tickets of the host's waits, in order. -/
def tickets : List Waiter → List String
  | [] => []
  | .engine :: rest => tickets rest
  | .host _ ticket :: rest => ticket :: tickets rest

@[simp] theorem tickets_append (first second : List Waiter) :
    tickets (first ++ second) = tickets first ++ tickets second := by
  induction first with
  | nil => rfl
  | cons wait rest ih => cases wait <;> simp [tickets, ih]

theorem tickets_perm {first second : List Waiter} (h : first.Perm second) :
    (tickets first).Perm (tickets second) := by
  have hfilter : ∀ waits : List Waiter, tickets waits =
      waits.filterMap fun | .engine => none | .host _ ticket => some ticket := by
    intro waits
    induction waits with
    | nil => rfl
    | cons wait rest ih => cases wait <;> simp [tickets, ih]
  rw [hfilter, hfilter]
  exact h.filterMap _

/-- Every wait is the render's own or has a ticket. -/
theorem length_tickets (waits : List Waiter) :
    (tickets waits).length + waits.count .engine = waits.length := by
  induction waits with
  | nil => rfl
  | cons wait rest ih => cases wait <;> simp [tickets, ← ih] <;> omega

end Waiter

/-! ## The invariant

The waits of the host are known by their tickets, and `asked` has the ticket of each question put
so far: so that no wait is lost or doubled is one permutation. The render's own wait has no
ticket, and is counted. That its path does not resolve speaks of the
variables, too: a write can change what is under its key, and has to drain the waits that are parked
there. -/

/-- The waits of a store add up, while the waits `due` are drained and not yet served. `asked` are
the tickets of the questions the host has asked. -/
structure Accounted (due : List Waiter) (asked : List String) (store : Store Waiter)
    (awaited : Option Path) (answers : List (String × Value)) : Prop where
  /-- the render's own wait is parked or due, once, if it waits at all -/
  own : (store.parked.map (·.2)).count .engine + due.count .engine = awaited.toList.length
  /-- a parked wait is under the first segment of its path, which does not resolve -/
  parked : ∀ key wait, (key, wait) ∈ store.parked → ∀ path, wait.path? awaited = some path →
    key = path.waitKey ∧ store.resolve path = none
  /-- each question is answered, parked or due, once -/
  questions : (answers.map (·.1) ++ Waiter.tickets (store.parked.map (·.2)) ++
    Waiter.tickets due).Perm asked

namespace Accounted

variable {due : List Waiter} {asked : List String} {store : Store Waiter} {awaited : Option Path}
  {answers : List (String × Value)}

/-- At most one of the parked and the due waits is the render's own. -/
theorem own_le (h : Accounted due asked store awaited answers) :
    (store.parked.map (·.2)).count .engine + due.count .engine ≤ 1 := by
  rw [h.own]
  cases awaited <;> simp

/-- A render that does not wait has no wait of its own, parked or due. -/
theorem own_none (h : Accounted due asked store none answers) :
    (store.parked.map (·.2)).count .engine = 0 ∧ due.count .engine = 0 := by
  have := h.own
  simp only [Option.toList_none, List.length_nil] at this
  omega

/-- While nothing is due, the render's own wait is parked if it waits, and not otherwise. -/
theorem filter_own (h : Accounted [] asked store awaited answers) :
    store.parked.filter (·.2 = .engine) =
      (awaited.map fun path => (path.waitKey, Waiter.engine)).toList := by
  have hlength : (store.parked.filter (·.2 = .engine)).length = awaited.toList.length := by
    rw [← h.own, List.count_nil, Nat.add_zero, List.count_eq_countP, List.countP_map,
      List.countP_eq_length_filter]
    rfl
  -- the count leaves one entry at most, and its path decides under which key it is
  cases awaited with
  | none => exact List.eq_nil_of_length_eq_zero hlength
  | some path =>
    obtain ⟨⟨key, wait⟩, hentry⟩ := List.length_eq_one_iff.mp hlength
    have hmem : (key, wait) ∈ store.parked.filter (·.2 = .engine) := by simp [hentry]
    obtain ⟨hmem, hwait⟩ := List.mem_filter.mp hmem
    obtain rfl : wait = .engine := by simpa using hwait
    obtain ⟨rfl, -⟩ := h.parked key .engine hmem path rfl
    exact hentry

/-- A new question of the host is due. -/
theorem question (h : Accounted due asked store awaited answers) (path : Path) (ticket : String) :
    Accounted (.host path ticket :: due) (asked ++ [ticket]) store awaited answers where
  own := by simpa [List.count_cons] using h.own
  parked := h.parked
  questions := List.perm_middle.trans
    ((h.questions.cons ticket).trans (List.perm_append_singleton _ _).symm)

/-- **Answering or parking again.** Serving a due wait of the host. -/
theorem ask {σ κ μ : Type} {r : Render σ κ μ} {path : Path} {ticket : String}
    (h : Accounted (.host path ticket :: due) asked r.store awaited r.answers) :
    Accounted due asked (r.ask path ticket).store awaited (r.ask path ticket).answers := by
  have hown : (r.store.parked.map (·.2)).count .engine + due.count .engine =
      awaited.toList.length := by
    simpa [List.count_cons] using h.own
  rw [Render.ask]
  cases hres : r.store.resolve path with
  | some value =>
    refine ⟨hown, h.parked, List.Perm.trans ?_ h.questions⟩
    simp only [List.map_append, List.map_cons, List.map_nil, List.append_assoc,
      List.singleton_append]
    exact List.Perm.append_left _ List.perm_middle.symm
  | none =>
    refine ⟨by simpa [Store.subscribe, List.count_append] using hown, ?_, ?_⟩
    · intro key wait hmem path' hpath
      rcases List.mem_append.mp hmem with hmem | hmem
      · exact h.parked key wait hmem path' hpath
      · obtain ⟨rfl, rfl⟩ := Prod.mk.inj (List.mem_singleton.mp hmem)
        obtain rfl := Option.some.inj hpath
        exact ⟨rfl, hres⟩
    · refine List.Perm.trans (List.Perm.of_eq ?_) h.questions
      simp [Store.subscribe, Waiter.tickets]

/-- **Writing.** The waits that a write wakes are due. -/
theorem set {store' : Store Waiter} {path : Path} {value : Value} {woken : List Waiter}
    (h : Accounted due asked store awaited answers)
    (hset : store.set path value = .ok (store', woken)) :
    Accounted (woken ++ due) asked store' awaited answers where
  own := by
    -- what a write takes from the parked waits is what it wakes, each as often as it was parked
    have hcount := (Store.perm_woken hset).count_eq .engine
    have := h.own
    rw [List.count_append] at hcount ⊢
    omega
  parked key wait hmem path' hpath := by
    obtain ⟨hwrite, hparked, -⟩ := Store.set_eq_ok hset
    rw [hparked, List.mem_filter] at hmem
    obtain ⟨hkey, hres⟩ := h.parked key wait hmem.1 path' hpath
    -- a wait that stays parked is under another key, so the write has left its path alone
    have hne : path'.waitKey ≠ path.waitKey := by
      rw [← hkey]
      simpa using hmem.2
    exact ⟨hkey, (Store.lookup_write_of_ne hwrite hne).trans hres⟩
  questions := by
    -- the woken tickets move from the middle of the sum to its end
    have hperm := Waiter.tickets_perm (Store.perm_woken hset)
    refine List.Perm.trans ?_ h.questions
    rw [Waiter.tickets_append] at hperm ⊢
    rw [List.append_assoc, List.append_assoc, ← List.append_assoc (Waiter.tickets _)]
    exact List.Perm.append_left _ (hperm.append_right _)

/-- **Being woken.** The render's own due wait is served: the render waits no longer. -/
theorem of_engine_due (h : Accounted (.engine :: due) asked store awaited answers) :
    Accounted due asked store none answers where
  own := by
    have := h.own_le
    rw [List.count_cons_self] at this
    simp only [Option.toList_none, List.length_nil]
    omega
  parked key wait hmem path hpath := by
    cases wait with
    | engine => cases hpath
    | host path' ticket => exact h.parked key (.host path' ticket) hmem path hpath
  questions := h.questions

/-- **Waiting.** A render parks its wait for a path that does not resolve. -/
theorem suspend (h : Accounted due asked store none answers) {path : Path}
    (hres : store.resolve path = none) :
    Accounted due asked (store.subscribe path .engine) (some path) answers where
  own := by
    obtain ⟨hparked, hdue⟩ := h.own_none
    simp [Store.subscribe, List.count_append, hparked, hdue]
  parked key wait hmem path' hpath := by
    rcases List.mem_append.mp hmem with hmem | hmem
    · cases wait with
      | host p ticket => exact h.parked key (.host p ticket) hmem path' hpath
      | engine =>
        -- another wait of the render's own would contradict that it did not wait
        have hpos := List.count_pos_iff.mpr (List.mem_map_of_mem (f := (·.2)) hmem)
        exact absurd h.own_none.1 (Nat.ne_of_gt hpos)
    · obtain ⟨rfl, rfl⟩ := Prod.mk.inj (List.mem_singleton.mp hmem)
      obtain rfl := Option.some.inj hpath
      exact ⟨rfl, hres⟩
  questions := by
    refine List.Perm.trans (List.Perm.of_eq ?_) h.questions
    simp [Store.subscribe, Waiter.tickets]

/-- Nothing is parked or due, and nothing was asked. -/
theorem empty : Accounted [] [] {} none [] := ⟨rfl, by simp, List.Perm.refl _⟩

end Accounted

namespace Render

variable {σ κ μ : Type} {due : List Waiter} {asked : List String}

/-! ## While directives run

A directive can write variables, which serves waits of the host at once; the render's own wait
cannot be among them, for the render runs. Emitting, entering and closing blocks, and the pipe
touch neither the store nor the answers. -/

/-- The render does not wait, and the waits of the host add up. -/
structure Free (due : List Waiter) (asked : List String) (r : Render σ κ μ) : Prop where
  awaited : r.status.awaited? = none
  accounted : Accounted due asked r.store none r.answers

/-- A render that runs is accounted for as it is. -/
theorem Free.toAccounted {r : Render σ κ μ} (h : Free due asked r) :
    Accounted due asked r.store r.status.awaited? r.answers :=
  h.awaited ▸ h.accounted

theorem ask_status (path : Path) (ticket : String) (r : Render σ κ μ) :
    (r.ask path ticket).status = r.status := by
  obtain ⟨store, answers, hframe, -⟩ := ask_frame path ticket r
  rw [hframe]

theorem ask_pipe (path : Path) (ticket : String) (r : Render σ κ μ) :
    (r.ask path ticket).pipe = r.pipe := by
  obtain ⟨store, answers, hframe, -⟩ := ask_frame path ticket r
  rw [hframe]

theorem setWithin_pipe (path : Path) (value : Value) (r : Render σ κ μ) :
    (r.setWithin path value).2.pipe = r.pipe := by
  obtain ⟨store, answers, hframe⟩ := setWithin_frame path value r
  rw [hframe]

/-- The due waits of the host are served while a directive runs. -/
theorem Free.wakeHosts (woken : List Waiter) {r : Render σ κ μ} (h : Free (woken ++ due) asked r) :
    Free due asked (wakeHosts woken r) := by
  induction woken generalizing r with
  | nil => exact h
  | cons wait rest ih =>
    cases wait with
    -- a render that does not wait has no wait of its own among the due ones
    | engine =>
      have := h.accounted.own_none.2
      simp at this
    | host path ticket =>
      exact ih ⟨by rw [ask_status, h.awaited], h.accounted.ask⟩

/-- A write by a directive serves all that it wakes. -/
theorem Free.setWithin (path : Path) (value : Value) {r : Render σ κ μ} (h : Free due asked r) :
    Free due asked (r.setWithin path value).2 := by
  rw [Render.setWithin]
  split
  · exact h
  · rename_i store woken hset
    exact Free.wakeHosts woken ⟨h.awaited, h.accounted.set hset⟩

/-- Whatever the body of a directive does, the render does not wait meanwhile. -/
theorem free_keptByBodies [OutputSink κ] :
    KeptByBodies (Free (σ := σ) (κ := κ) (μ := μ) due asked) :=
  .of_frame (fun _ _ _ _ _ _ _ h => ⟨h.awaited, h.accounted⟩)
    fun path value _ h => h.setWithin path value

/-- Emitting a chunk is nothing to the waits, taken or refused. -/
theorem Free.emit [OutputSink κ] {chunk : String} {r r' : Render σ κ μ}
    {res : Except RenderError Unit} (h : Free due asked r) (hemit : emit chunk r = (res, r')) :
    Free due asked r' := by
  obtain ⟨sink, rfl⟩ := exists_of_emit hemit
  exact ⟨h.awaited, h.accounted⟩

theorem Free.emitAll [OutputSink κ] {chunks : List String} {r r' : Render σ κ μ}
    {res : Except RenderError Unit} (h : Free due asked r) (hemit : emitAll chunks r = (res, r')) :
    Free due asked r' := by
  obtain ⟨sink, rfl⟩ := exists_of_emitAll hemit
  exact ⟨h.awaited, h.accounted⟩

theorem Free.reach {d : Directive σ μ} {index : Nat} {r r' : Render σ κ μ}
    {res : Except RenderError Nat} (h : Free due asked r) (hreach : reach d index r = (res, r')) :
    Free due asked r' := by
  obtain ⟨blocks, skip, rfl⟩ := exists_of_reach hreach
  exact ⟨h.awaited, h.accounted⟩

theorem Free.withPipe {r : Render σ κ μ} (h : Free due asked r) (pipe : Option (Pipe σ))
    (lines : Lines) : Free due asked { r with pipe, lines } :=
  ⟨h.awaited, h.accounted⟩

theorem Free.dropPipe {r : Render σ κ μ} (h : Free due asked r) : Free due asked r.dropPipe := by
  rw [Render.dropPipe]
  split
  · exact ⟨h.awaited, h.accounted⟩
  · exact h

/-- A failed render does not wait. -/
theorem Free.fail (err : RenderError) {r : Render σ κ μ} (h : Free due asked r) :
    Free due asked (fail err r).2 :=
  ⟨rfl, h.dropPipe.accounted⟩

theorem Free.complete [OutputSink κ] {r : Render σ κ μ} (h : Free due asked r) :
    Free due asked (complete r).2 := by
  rw [Render.complete]
  split
  · exact ⟨rfl, h.accounted⟩
  · split
    · exact ⟨rfl, h.accounted⟩
    · exact Free.fail _ ⟨rfl, h.accounted⟩

variable [FilterStage σ] [OutputSink κ] {setup : Setup σ μ} {fuel : Nat}

/-! ## Turns and runs

One case for each thing a turn can do. Only two of the turns that stop a run leave a render that
waits: `suspended` parks its wait, and `drained` waits for its pipe, of which the store knows
nothing. -/

/-- A turn that goes on leaves the render without a wait. -/
theorem Turned.free {task : Task σ} {r r' : Render σ κ μ} {next : Task σ}
    (ht : Turned setup fuel task r (.next next) r') (h : Free due asked r) :
    Free due asked r' := by
  have hmoved : Free due asked { r with cursor := r.cursor + 1 } := ⟨h.awaited, h.accounted⟩
  cases ht with
  | literalSkipped => exact hmoved
  | literalEmitted hget hskip hemit => exact hmoved.emit hemit
  | passedBy hget hdir hreach hskip => exact hmoved.reach hreach
  | called hget hdir hreach hskip hbody =>
    exact free_keptByBodies.perform hbody (hmoved.reach hreach)
  | advanced | resolved | nothingToDrain => exact h
  | piped => exact h.withPipe _ _
  | draining => exact h.withPipe _ _
  | resumed hresume hbody => exact free_keptByBodies.perform hbody h
  | closed hpipe hread hemit =>
    exact ⟨rfl, ((h.withPipe _ _).emitAll hemit).dropPipe.accounted⟩

/-- A turn that stops the run leaves the render accounted for, whether it waits now or not. -/
theorem Turned.accounted {task : Task σ} {r r' : Render σ κ μ}
    {outcome : Except RenderError Unit} (ht : Turned setup fuel task r (.stop outcome) r')
    (h : Free due asked r) : Accounted due asked r'.store r'.status.awaited? r'.answers := by
  have hmoved : Free due asked { r with cursor := r.cursor + 1 } := ⟨h.awaited, h.accounted⟩
  cases ht with
  | complete => exact h.complete.toAccounted
  | literalRefused hget hskip hemit => exact ((hmoved.emit hemit).fail _).toAccounted
  | unknown => exact (hmoved.fail _).toAccounted
  | unbalanced hget hdir hreach => exact ((hmoved.reach hreach).fail _).toAccounted
  | callFailed hget hdir hreach hskip hbody =>
    exact ((free_keptByBodies.perform hbody (hmoved.reach hreach)).fail _).toAccounted
  | suspended hres => exact h.accounted.suspend hres
  | consumed => exact (h.fail _).toAccounted
  | resumeFailed hresume hbody => exact ((free_keptByBodies.perform hbody h).fail _).toAccounted
  | resumeUnknown => exact (h.fail _).toAccounted
  | drainFailed hpipe hread =>
    exact ((h.withPipe _ _).fail _).toAccounted
  | drained hpipe hread hemit =>
    refine Free.toAccounted ⟨?_, ((h.withPipe _ _).emitAll hemit).accounted⟩
    change Status.awaited? (.suspended (if _ then _ else _)) = none
    split <;> rfl
  | drainRefused hpipe hread hchunks hemit =>
    exact (((h.withPipe _ _).emitAll hemit).fail _).toAccounted

/-! ## The pipe

While the render waits for a variable it has no pipe: a pipe is taken up by a directive, and kept
only by the tasks and the suspensions that drain it. This is needed where the render is resumed,
since its run starts with another task. -/

omit [FilterStage σ] [OutputSink κ] in
@[simp] theorem dropPipe_pipe (r : Render σ κ μ) : r.dropPipe.pipe = none := by
  rw [dropPipe]
  split
  · rfl
  · assumption

omit [FilterStage σ] in
/-- A render that completes without a pipe has none afterwards, also if its sink fails to close. -/
theorem complete_pipe {r : Render σ κ μ} (h : r.pipe = none) : (complete r).2.pipe = none := by
  rw [complete]
  split
  · exact h
  · split
    · exact h
    · exact dropPipe_pipe _

/-- Only a task that drains has a pipe at hand. -/
def PipeFor (task : Task σ) (r : Render σ κ μ) : Prop :=
  (∀ index, task ≠ .drain index) → r.pipe = none

omit [FilterStage σ] in
theorem noPipe_keptByBodies : KeptByBodies (fun r : Render σ κ μ => r.pipe = none) :=
  .of_frame (fun _ _ _ _ _ _ _ h => h) fun path value r h => (setWithin_pipe path value r).trans h

/-- A turn that goes on keeps the pipe for the task that drains it. -/
theorem Turned.pipeFor {task : Task σ} {r r' : Render σ κ μ} {next : Task σ}
    (ht : Turned setup fuel task r (.next next) r') (h : PipeFor task r) : PipeFor next r' := by
  have hreached : ∀ {d : Directive σ μ} {res} {r₁ : Render σ κ μ}, r.pipe = none →
      reach d r.cursor { r with cursor := r.cursor + 1 } = (res, r₁) → r₁.pipe = none := by
    intro d res r₁ hpipe hreach
    obtain ⟨blocks, skip, rfl⟩ := exists_of_reach hreach
    exact hpipe
  intro hnext
  cases ht with
  | literalSkipped | advanced | resolved => exact h (by simp)
  | literalEmitted hget hskip hemit =>
    obtain ⟨sink, rfl⟩ := exists_of_emit hemit
    exact h (by simp)
  | passedBy hget hdir hreach hskip => exact hreached (h (by simp)) hreach
  | called hget hdir hreach hskip hbody =>
    exact noPipe_keptByBodies.perform hbody (hreached (h (by simp)) hreach)
  | nothingToDrain hpipe => exact hpipe
  | piped | draining => exact absurd rfl (hnext _)
  | resumed hresume hbody => exact noPipe_keptByBodies.perform hbody (h (by simp))
  | closed hpipe hread hemit => exact dropPipe_pipe _

/-- A render has a pipe only while it is suspended on it. -/
theorem Turned.unpiped {task : Task σ} {r r' : Render σ κ μ} {outcome : Except RenderError Unit}
    (ht : Turned setup fuel task r (.stop outcome) r') (h : PipeFor task r)
    (hstatus : r'.status.piping? = none) : r'.pipe = none := by
  cases ht with
  | complete hget => exact complete_pipe (h (by simp))
  | suspended => exact h (by simp)
  | drained hpipe hread hemit =>
    revert hstatus
    change Status.piping? (.suspended (if _ then _ else _)) = none → _
    split <;> exact nofun
  | _ => exact dropPipe_pipe _

/-! ## Serving what is due

`InOrder` is the invariant between the entries of a list that is served. Serving an entry of the
render's own is a whole run, which may wait again, complete or fail, and may itself have served
other waits through its writes; of all this only `InOrder` for the rest of the list is used. -/

/-- The waits are accounted for, and a pipe is there only if the render is suspended on it. -/
structure InOrder (due : List Waiter) (asked : List String) (r : Render σ κ μ) : Prop where
  accounted : Accounted due asked r.store r.status.awaited? r.answers
  unpiped : r.status.piping? = none → r.pipe = none

/-- **A run.** From a render that does not wait, every run that stops leaves the render in order. -/
theorem Free.run {task : Task σ} {r r' : Render σ κ μ} {outcome : Except RenderError Unit}
    (h : Free due asked r) (hpipe : PipeFor task r)
    (hrun : run setup fuel task r = some (outcome, r')) : InOrder due asked r' :=
  run_induction (I := fun task r => Free due asked r ∧ PipeFor task r)
    (Q := fun _ r => InOrder due asked r)
    (fun ht h => ⟨ht.free h.1, ht.pipeFor h.2⟩)
    (fun ht h => ⟨ht.accounted h.1, ht.unpiped h.2⟩) hrun ⟨h, hpipe⟩

namespace InOrder

omit [FilterStage σ] [OutputSink κ] in
/-- A render that does not wait is free to run. -/
theorem free {r : Render σ κ μ} (h : InOrder due asked r) (hstatus : r.status.awaited? = none) :
    Free due asked r :=
  ⟨hstatus, hstatus ▸ h.accounted⟩

/-- **The render is resumed.** Serving its own due wait, it waits on or runs. -/
theorem resumeParked {r r' : Render σ κ μ} {outcome : Except RenderError Unit}
    (h : InOrder (.engine :: due) asked r)
    (hresume : resumeParked setup fuel r = some (outcome, r')) : InOrder due asked r' := by
  rw [Render.resumeParked] at hresume
  split at hresume
  · rename_i path index since hstatus
    have hpipe : r.pipe = none := h.unpiped (by rw [hstatus]; rfl)
    split at hresume
    · rename_i hres
      obtain ⟨-, rfl⟩ := Prod.mk.inj (Option.some.inj hresume)
      refine ⟨?_, fun _ => hpipe⟩
      simp only [hstatus, Status.awaited?]
      exact h.accounted.of_engine_due.suspend hres
    · -- its own wait was the one served, so the render that runs on has none
      have hfree : Free due asked { r with status := .running } :=
        ⟨rfl, h.accounted.of_engine_due⟩
      exact hfree.run (fun _ => hpipe) hresume
  · -- a render without a wait has none due
    rename_i hstatus
    have hdue := (h.free (Status.awaited?_eq_none hstatus)).accounted.own_none.2
    simp at hdue

omit [FilterStage σ] [OutputSink κ] in
/-- Serving a due wait of the host. -/
theorem ask {r : Render σ κ μ} {path : Path} {ticket : String}
    (h : InOrder (.host path ticket :: due) asked r) : InOrder due asked (r.ask path ticket) where
  accounted := by
    rw [ask_status]
    exact h.accounted.ask
  unpiped hstatus := by
    rw [ask_status] at hstatus
    rw [ask_pipe]
    exact h.unpiped hstatus

/-- **Waking.** Each entry of a drained list is served in its turn, whatever the resumed render has
done in the meantime. -/
theorem wake (woken : List Waiter) {o o' : Outcome σ κ μ Unit}
    (h : InOrder (woken ++ due) asked o.2)
    (hwake : wake setup fuel woken o = some o') : InOrder due asked o'.2 := by
  -- while one entry is served the rest of the list is due: the run in between keeps it so
  induction woken generalizing o with
  | nil =>
    obtain rfl := Option.some.inj hwake
    exact h
  | cons wait rest ih =>
    cases wait with
    | host path ticket => exact ih h.ask hwake
    | engine =>
      rw [Render.wake] at hwake
      split at hwake
      · cases hwake
      · rename_i o₁ hresume
        exact ih (h.resumeParked hresume) hwake

/-- A write of the host. -/
theorem set {r r' : Render σ κ μ} {path : Path} {value : Value} {outcome : Except RenderError Unit}
    (h : InOrder due asked r) (hset : set setup fuel path value r = some (outcome, r')) :
    InOrder due asked r' := by
  rw [Render.set] at hset
  split at hset
  · obtain ⟨-, rfl⟩ := Prod.mk.inj (Option.some.inj hset)
    exact h
  · rename_i store woken hwrite
    exact wake woken ⟨h.accounted.set hwrite, h.unpiped⟩ hset

end InOrder

/-- A list of waits is served in two parts as in one. -/
theorem wake_append (first second : List Waiter) (o : Outcome σ κ μ Unit) :
    Render.wake setup fuel (first ++ second) o =
      (Render.wake setup fuel first o).bind (Render.wake setup fuel second) := by
  induction first generalizing o with
  | nil => rfl
  | cons wait rest ih =>
    cases wait with
    | host path ticket => exact ih _
    | engine =>
      rw [List.cons_append, Render.wake, Render.wake]
      split
      · rfl
      · exact ih _

/-- Waits of the host alone are served without the render. -/
theorem wake_of_not_mem {woken : List Waiter} (h : .engine ∉ woken) (o : Outcome σ κ μ Unit) :
    Render.wake setup fuel woken o = some (o.1, wakeHosts woken o.2) := by
  induction woken generalizing o with
  | nil => rfl
  | cons wait rest ih =>
    cases wait with
    | engine => exact absurd List.mem_cons_self h
    | host path ticket => exact ih (fun hmem => h (List.mem_cons_of_mem _ hmem)) _

/-- While the render does not wait, a write of the host does what a write by a directive does. -/
theorem set_eq_setWithin {path : Path} {value : Value} {r : Render σ κ μ}
    (h : r.status.awaited? = none) :
    set setup fuel path value r = some (r.setWithin path value) := by
  -- resuming a render that does not wait is nothing, so only the host's entries count
  have hwake : ∀ woken (r : Render σ κ μ), r.status.awaited? = none →
      wake setup fuel woken (.ok (), r) = some (.ok (), wakeHosts woken r) := by
    intro woken
    induction woken with
    | nil => exact fun r _ => rfl
    | cons wait rest ih =>
      intro r hr
      cases wait with
      | host path ticket => exact ih _ (by rw [ask_status, hr])
      | engine =>
        have hresume : resumeParked setup fuel r = some (.ok (), r) := by
          rw [resumeParked]
          split
          · rename_i hstatus
            simp [hstatus, Status.awaited?] at hr
          · rfl
        rw [wake, hresume]
        exact ih r hr
  rw [set, setWithin]
  rcases r.store.set path value with err | ⟨store, woken⟩
  · rfl
  · exact hwake woken _ h

end Render

end StreamingTemplate

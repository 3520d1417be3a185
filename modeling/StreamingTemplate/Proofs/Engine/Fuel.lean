import StreamingTemplate.Engine.Drive
import StreamingTemplate.Proofs.Engine.History
import StreamingTemplate.Proofs.Engine.Turn

/-!
# More fuel never changes an answer

Fuel bounds how long a chain passes on what its stages send, how long a render runs, and how long a
driver goes on. An operation that has returned with some fuel returns the same with more: each lemma
takes one operation from those it is made of, up to the calls of the host (`HostCall.run_mono`) and
the driver (`Render.poll_mono`).

So two answers of one operation, with whatever fuel each, are the same (`HostCall.run_unique`).
-/

namespace StreamingTemplate

variable {σ κ μ : Type} [FilterStage σ] {fuel fuel' : Nat}

/-! ## Chains and pipes

The bottom of the ladder. Only `Chain.propagate` recurses on the fuel, so it alone needs an
induction; a pipe hands its fuel down unchanged, and its lemmas replace one returned answer after
the other. -/

/-- **A chain that has come to rest** within its fuel comes to the same rest with more. The
passes are the same one by one, so the induction is on the smaller fuel; with none left there was
no answer to keep. -/
theorem Chain.propagate_mono (hle : fuel ≤ fuel') {handles : Handles} {chunks : List String}
    {c : Chain σ} {r : Result σ} (h : c.propagate fuel handles chunks = some r) :
    c.propagate fuel' handles chunks = some r := by
  induction fuel generalizing fuel' handles chunks c r with
  | zero => cases h
  | succ fuel ih =>
    obtain ⟨more, rfl⟩ : ∃ more, fuel' = more + 1 := ⟨fuel' - 1, by omega⟩
    rw [propagate] at h ⊢
    split at h
    · rename_i hlate
      obtain ⟨r', hr', rfl⟩ := Option.map_eq_some_iff.mp h
      rw [if_pos hlate, ih (by omega) hr']
      rfl
    · rename_i hlate
      rw [if_neg hlate]
      exact h

namespace Pipe

omit [FilterStage σ] in
/-- What holds of an operation on chains holds of that operation at a pipe: without a chain
nothing is asked of the operation, and with one the answer it gave is all the pipe looks at. `op`
and `op'` are one operation with two amounts of fuel. -/
theorem onChain_mono {op op' : Handles → Chain σ → Option (Chain.Result σ)}
    (hop : ∀ {handles c r}, op handles c = some r → op' handles c = some r) {p : Pipe σ}
    {lines : Lines} {passed : Passed σ} (h : p.onChain op lines = some passed) :
    p.onChain op' lines = some passed := by
  rcases hchain : p.chain with _ | chain <;> rw [onChain, hchain] at h ⊢
  · exact h
  · obtain ⟨r, hr, rfl⟩ := Option.map_eq_some_iff.mp h
    dsimp only
    rw [hop hr]
    rfl

/-- A chunk that has passed through the pipe passes the same way with more fuel; where there is
no chain it goes straight through, and no fuel is spent. -/
theorem pass_mono (hle : fuel ≤ fuel') {chunk : String} {p : Pipe σ} {lines : Lines}
    {passed : Passed σ} (h : p.pass fuel chunk lines = some passed) :
    p.pass fuel' chunk lines = some passed := by
  rcases hchain : p.chain with _ | chain <;> rw [pass, hchain] at h ⊢
  · exact h
  · exact onChain_mono (Chain.propagate_mono hle) h

theorem poll_mono (hle : fuel ≤ fuel') {p : Pipe σ} {lines : Lines} {passed : Passed σ}
    (h : p.poll fuel lines = some passed) : p.poll fuel' lines = some passed :=
  onChain_mono (Chain.propagate_mono hle) h

theorem finish_mono (hle : fuel ≤ fuel') {p : Pipe σ} {lines : Lines} {passed : Passed σ}
    (h : p.finish fuel lines = some passed) : p.finish fuel' lines = some passed :=
  onChain_mono (Chain.propagate_mono hle) h

/-- The chunks go in one by one, each into the pipe that the one before has left, with the same
fuel for every one of them. -/
theorem passAll_mono (hle : fuel ≤ fuel') {chunks : List String} {p : Pipe σ} {lines : Lines}
    {passed : Passed σ} (h : p.passAll fuel chunks lines = some passed) :
    p.passAll fuel' chunks lines = some passed := by
  induction chunks generalizing p lines passed with
  | nil => exact h
  | cons chunk rest ih =>
    rw [passAll] at h ⊢
    obtain ⟨r, hr, h⟩ := Option.bind_eq_some_iff.mp h
    obtain ⟨r', hr', rfl⟩ := Option.map_eq_some_iff.mp h
    rw [pass_mono hle hr, Option.bind_some, ih hr']
    rfl

/-- The end of a read: what the chain still has is polled out, and whether the pipe is over,
waits or is stalled is decided from that answer alone. -/
theorem settle_mono (hle : fuel ≤ fuel') {chunks : List String} {p : Pipe σ} {lines : Lines}
    {res : Except RenderError Read × Pipe σ × Lines} (h : p.settle fuel chunks lines = some res) :
    p.settle fuel' chunks lines = some res := by
  rcases hchain : p.chain with _ | chain <;> rw [settle, hchain] at h ⊢
  · exact h
  · obtain ⟨r, hr, rfl⟩ := Option.map_eq_some_iff.mp h
    dsimp only
    rw [poll_mono hle hr]
    rfl

/-- **A read of the pipe** gives the same with more fuel. It is made of the three operations
above, and which of them it needs is decided by the stream, not by the fuel: the branch found
with the smaller fuel is the branch to take with the larger. -/
theorem read_mono (hle : fuel ≤ fuel') {p : Pipe σ} {lines : Lines}
    {res : Except RenderError Read × Pipe σ × Lines} (h : p.read fuel lines = some res) :
    p.read fuel' lines = some res := by
  rcases hsource : p.source with _ | id <;> rw [read, hsource] at h ⊢
  · exact settle_mono hle h
  · dsimp only at h ⊢
    obtain ⟨r, hr, h⟩ := Option.bind_eq_some_iff.mp h
    rw [passAll_mono hle hr, Option.bind_some]
    split at h
    · rename_i hopen
      obtain ⟨r', hr', rfl⟩ := Option.map_eq_some_iff.mp h
      rw [if_pos hopen, poll_mono hle hr']
      rfl
    · rename_i hended
      obtain ⟨r', hr', h⟩ := Option.bind_eq_some_iff.mp h
      rw [if_neg hended, finish_mono hle hr', Option.bind_some]
      exact settle_mono hle h

end Pipe

namespace Render

variable [OutputSink κ] {setup : Setup σ μ} {r : Render σ κ μ} {o : Outcome σ κ μ Unit}

/-! ## Runs

The body of a directive spends fuel only where it feeds or ends a chain of its own. A run spends
it on its turns as well: each turn gets the fuel that is left, so that `run_mono` needs the lemma
for turns at every smaller fuel. -/

/-- A body that has been performed is performed the same with more fuel, by induction over what
it does. Only feeding and ending a chain look at the fuel; every other instruction hands the
outcome on. -/
theorem perform_mono (hle : fuel ≤ fuel') {body : Body σ μ} {r : Render σ κ μ}
    {o : Outcome σ κ μ (Flow σ)} (h : perform setup fuel body r = some o) :
    perform setup fuel' body r = some o := by
  induction body generalizing r with
  | done | fail => exact h
  | emit chunk next ih => exact ih _ h
  | skip next ih => exact ih h
  | restart next ih => exact ih _ h
  | close next ih => exact ih _ h
  | set path value next ih => exact ih _ h
  | build specs next ih =>
    rw [perform] at h ⊢
    split at h
    · exact ih _ h
    · exact ih _ h
  | feed chain chunk next ih =>
    rw [perform] at h ⊢
    split at h
    · cases h
    · rename_i hfed
      rw [show chain.accept fuel' _ _ = _ from Chain.propagate_mono hle hfed]
      exact ih _ _ h
  | finish chain next ih =>
    rw [perform] at h ⊢
    split at h
    · cases h
    · rename_i hfinished
      rw [show chain.finish fuel' _ = _ from Chain.propagate_mono hle hfinished]
      exact ih _ _ h
  | «recall» next ih => exact ih _ h
  | remember memory next ih => exact ih h

/-- A turn in the body of a directive returns the same with more fuel: what the engine makes of
the flow that the body ends with does not depend on fuel. -/
theorem bodyTurn_mono (hle : fuel ≤ fuel') {index : Nat} {body : Body σ μ} {r : Render σ κ μ}
    {t : Turn σ × Render σ κ μ} (h : bodyTurn setup fuel index body r = some t) :
    bodyTurn setup fuel' index body r = some t := by
  rw [bodyTurn] at h ⊢
  obtain ⟨o, ho, rfl⟩ := Option.map_eq_some_iff.mp h
  rw [perform_mono hle ho]
  rfl

/-- Whether a directive is known, reached without an error and skipped is settled before its body
begins; only a body that is called can spend fuel. -/
theorem directiveTurn_mono (hle : fuel ≤ fuel') {index : Nat} {name : String}
    {args : List Argument} {r : Render σ κ μ} {t : Turn σ × Render σ κ μ}
    (h : directiveTurn setup fuel index name args r = some t) :
    directiveTurn setup fuel' index name args r = some t := by
  rcases hdir : setup.directives.directive? name with _ | d
  · simp only [directiveTurn, hdir] at h ⊢
    exact h
  · rcases hreach : reach d index r with ⟨err | frame, r'⟩
    · rw [directiveTurn_of_error hdir hreach] at h ⊢
      exact h
    · rw [directiveTurn_of_ok hdir hreach] at h ⊢
      split at h
      · rename_i hskip
        rw [if_pos hskip]
        exact h
      · rename_i hskip
        rw [if_neg hskip]
        exact bodyTurn_mono hle h

/-- A turn returns the same with more fuel, whatever its task. Text, variables and the flow of a
body need none; directives and values they have waited for perform a body, and a drain reads the
pipe. -/
theorem turn_mono (hle : fuel ≤ fuel') {task : Task σ} {r : Render σ κ μ}
    {t : Turn σ × Render σ κ μ} (h : turn setup fuel task r = some t) :
    turn setup fuel' task r = some t := by
  cases task with
  | instruction =>
    rw [turn, instructionTurn] at h ⊢
    split at h
    · exact h
    · dsimp only at h ⊢
      split at h
      · exact h
      · exact directiveTurn_mono hle h
  | flow index flow => exact h
  | resume index value =>
    rw [turn] at h ⊢
    split at h
    · exact bodyTurn_mono hle h
    · exact h
  | drain index =>
    rw [turn, drainTurn] at h ⊢
    split at h
    · exact h
    · obtain ⟨res, hres, rfl⟩ := Option.map_eq_some_iff.mp h
      rw [Pipe.read_mono hle hres]
      rfl

/-- **A run that stops** stops the same with more fuel. The task that a turn leaves behind is the
same, and the rest of the run has at least one unit more than before. -/
theorem run_mono (hle : fuel ≤ fuel') {task : Task σ} {r : Render σ κ μ}
    (h : run setup fuel task r = some o) : run setup fuel' task r = some o := by
  induction fuel generalizing fuel' task r with
  | zero => cases h
  | succ fuel ih =>
    obtain ⟨more, rfl⟩ : ∃ more, fuel' = more + 1 := ⟨fuel' - 1, by omega⟩
    have hmore : fuel ≤ more := by omega
    rw [run] at h ⊢
    rcases hturn : turn setup fuel task r with _ | ⟨task' | outcome, r'⟩ <;> rw [hturn] at h
    · cases h
    · rw [turn_mono hmore hturn]
      exact ih hmore h
    · rw [turn_mono hmore hturn]
      exact h

/-! ## Calls of the host

Above runs there is no recursion on the fuel any more until the driver: a call either is refused,
which takes no fuel, or runs the engine once for each time it is woken. -/

/-- What a parked render is resumed with is read from the store, so it is the same value whatever
the fuel. -/
theorem resumeParked_mono (hle : fuel ≤ fuel') (h : resumeParked setup fuel r = some o) :
    resumeParked setup fuel' r = some o := by
  rw [resumeParked] at h ⊢
  split at h
  · split at h
    · exact h
    · exact run_mono hle h
  · exact h

/-- One write may wake several waiters. Those of the host are told at once, and each time the
engine is resumed the next waiter meets the outcome of the run before it. -/
theorem wake_mono (hle : fuel ≤ fuel') {woken : List Waiter} {o o' : Outcome σ κ μ Unit}
    (h : wake setup fuel woken o = some o') : wake setup fuel' woken o = some o' := by
  induction woken generalizing o with
  | nil => exact h
  | cons wait rest ih =>
    cases wait with
    | host path ticket => exact ih h
    | engine =>
      rw [wake] at h ⊢
      split at h
      · cases h
      · rename_i hresume
        rw [resumeParked_mono hle hresume]
        exact ih h

theorem set_mono (hle : fuel ≤ fuel') {path : Path} {value : Value}
    (h : set setup fuel path value r = some o) : set setup fuel' path value r = some o := by
  rw [set] at h ⊢
  split at h
  · exact h
  · exact wake_mono hle h

/-- A pump does nothing unless the render waits for its pipe; otherwise it is one run. -/
theorem pump_mono (hle : fuel ≤ fuel') (h : pump setup fuel r = some o) :
    pump setup fuel' r = some o := by
  rw [pump] at h ⊢
  split at h
  · exact run_mono hle h
  · exact h

/-- An event that arrives for the pipe passes through it first. An error there ends the call
before the engine is pumped. -/
theorem feedPipe_mono (hle : fuel ≤ fuel') {event : Pipe.Event}
    (h : feedPipe setup fuel event r = some o) : feedPipe setup fuel' event r = some o := by
  unfold feedPipe at h ⊢
  split at h
  · split at h
    · cases h
    · rename_i hpass
      rw [Pipe.pass_mono hle hpass]
      dsimp only
      split at h
      · exact h
      · exact pump_mono hle h
  · exact pump_mono hle h

end Render

open Render

variable [OutputSink κ] {setup : Setup σ μ} {r : Render σ κ μ}

namespace HostCall

/-- **A call that has returned** returns the same with more fuel, one case for each call.
Reading, asking for timeouts and the operations on the place in the template spend no fuel at
all. -/
theorem run_mono (hle : fuel ≤ fuel') {call : HostCall κ} {o : Outcome σ κ μ Unit}
    (h : call.run setup fuel r = some o) : call.run setup fuel' r = some o := by
  cases call with
  | attach sink =>
    rw [run, Render.attach] at h ⊢
    split at h
    · rename_i hidle
      rw [if_pos hidle]
      exact Render.run_mono hle h
    · rename_i hstarted
      rw [if_neg hstarted]
      exact h
  | advance =>
    rw [run, Render.advance] at h ⊢
    split at h
    · rename_i hrunning
      rw [if_pos hrunning]
      exact Render.run_mono hle h
    · rename_i hstopped
      rw [if_neg hstopped]
      exact h
  | pump => exact pump_mono hle h
  | set path value => exact set_mono hle h
  | get | checkTimeout | emit | skip | restart | close => exact h
  | feed event => exact feedPipe_mono hle h
  | forward side =>
    rw [run] at h ⊢
    split at h
    · exact h
    · exact feedPipe_mono hle h

/-- Two answers to a call are the same, with whatever fuel they were found. -/
theorem run_unique {call : HostCall κ} {o o' : Outcome σ κ μ Unit}
    (h : call.run setup fuel r = some o) (h' : call.run setup fuel' r = some o') : o = o' := by
  rcases Nat.le_total fuel fuel' with hle | hle
  · exact Option.some.inj ((run_mono hle h).symm.trans h')
  · exact Option.some.inj (h.symm.trans (run_mono hle h'))

end HostCall

/-- **A driver that has returned or waits** does the same with more fuel. -/
theorem Render.poll_mono (hle : fuel ≤ fuel') {now : Instant} {listening : Bool} {inbox : Inbox}
    {r : Render σ κ μ} {d : Driven σ κ μ} (h : poll setup now fuel listening inbox r = some d) :
    poll setup now fuel' listening inbox r = some d := by
  induction fuel generalizing fuel' listening inbox r with
  | zero => cases h
  | succ fuel ih =>
    obtain ⟨more, rfl⟩ : ∃ more, fuel' = more + 1 := ⟨fuel' - 1, by omega⟩
    have hmore : fuel ≤ more := by omega
    rw [poll] at h ⊢
    rcases hstep : driveStep setup now listening inbox r with ⟨step, r'⟩
    rw [hstep] at h
    cases step with
    | «return» | wait => exact h
    | closed => exact ih hmore h
    | command path value rest =>
      dsimp only at h ⊢
      split at h
      · cases h
      · rename_i hset
        rw [set_mono hmore hset]
        exact ih hmore h
      · rename_i hset
        rw [set_mono hmore hset]
        exact h
    | timeout deadline =>
      dsimp only at h ⊢
      split at h
      · exact ih hmore h
      · exact h
    | event event =>
      dsimp only at h ⊢
      split at h
      · cases h
      · rename_i hfeed
        rw [feedPipe_mono hmore hfeed]
        exact ih hmore h
      · rename_i hfeed
        rw [feedPipe_mono hmore hfeed]
        exact h

end StreamingTemplate

import StreamingTemplate.Proofs.Engine.Calls
import StreamingTemplate.Proofs.Engine.Propagation
import StreamingTemplate.Proofs.Sink

/-!
# What a sink receives

A sink learns of a render by the calls it receives: chunks to take and a close. Whichever of them it
refuses, and wherever in the render this happens, the calls follow one protocol: chunks that are
taken, then at most one call more, which is a chunk that is refused or a close.

* `Body.HandsRefusalsOn` — bodies that fail when the sink refuses what they emit;
* `Stands` — how a run leaves the render and its sink, with one constructor for each last call;
* `Taking.run` — every run of a render whose sink has taken everything leaves it so;
* `History.attends` — between all calls of the host the first sink that was attached stands so;
* `History.underway` — inside of a call, also of one that never returns, it has taken everything.

`sink_protocol` puts this together.
-/

namespace StreamingTemplate

open Render

variable {σ κ μ : Type}

/-! ## Bodies that hand refusals on

What a body does after the sink has refused a chunk is its own affair, and it could emit on. The
condition of the protocol is that it does not: after a refusal it fails with the error it was
given. Of the other errors it may make what it likes, so this asks for less than
`Body.Propagates`. -/

/-- Bodies that fail with the error of a chunk that is refused. They can do what they like with all
other errors. -/
inductive Body.HandsRefusalsOn : Body σ μ → Prop where
  | done (flow : Flow σ) : HandsRefusalsOn (.done flow)
  | fail (err : RenderError) : HandsRefusalsOn (.fail err)
  | emit {chunk next} (ok : HandsRefusalsOn (next (.ok ())))
      (error : ∀ err, next (.error err) = .fail err) : HandsRefusalsOn (.emit chunk next)
  | skip {next} (h : HandsRefusalsOn next) : HandsRefusalsOn (.skip next)
  | restart {next} (h : ∀ result, HandsRefusalsOn (next result)) : HandsRefusalsOn (.restart next)
  | close {next} (h : ∀ result, HandsRefusalsOn (next result)) : HandsRefusalsOn (.close next)
  | set {path value next} (h : ∀ result, HandsRefusalsOn (next result)) :
      HandsRefusalsOn (.set path value next)
  | build {specs next} (h : ∀ result, HandsRefusalsOn (next result)) :
      HandsRefusalsOn (.build specs next)
  | feed {chain chunk next} (h : ∀ chunks chain, HandsRefusalsOn (next chunks chain)) :
      HandsRefusalsOn (.feed chain chunk next)
  | finish {chain next} (h : ∀ chunks chain, HandsRefusalsOn (next chunks chain)) :
      HandsRefusalsOn (.finish chain next)
  | recall {next} (h : ∀ memory, HandsRefusalsOn (next memory)) : HandsRefusalsOn (.recall next)
  | remember {memory next} (h : HandsRefusalsOn next) : HandsRefusalsOn (.remember memory next)

/-- Directives with bodies that hand refusals on. -/
structure Directive.HandsRefusalsOn (d : Directive σ μ) : Prop where
  call : ∀ args, (d.call args).HandsRefusalsOn
  resume : ∀ args value, (d.resume args value).HandsRefusalsOn

/-- Directives that hand refusals on, with any filters. -/
def Setup.HandsRefusalsOn (setup : Setup σ μ) : Prop :=
  ∀ {name d}, setup.directives.directive? name = some d → d.HandsRefusalsOn

/-- What hands all errors on hands refusals on. -/
theorem Body.Propagates.handsRefusalsOn {body : Body σ μ} (h : body.Propagates) :
    body.HandsRefusalsOn := by
  have hresult {α : Type} {next : Except RenderError α → Body σ μ}
      (ok : ∀ a, (next (.ok a)).HandsRefusalsOn) (error : ∀ err, next (.error err) = .fail err)
      (result : Except RenderError α) : (next result).HandsRefusalsOn := by
    cases result with
    | ok a => exact ok a
    | error err =>
      rw [error]
      exact .fail err
  induction h with
  | done flow => exact .done flow
  | fail => exact .fail _
  | emit ok error ih => exact .emit ih error
  | skip h ih => exact .skip ih
  | restart ok error ih => exact .restart (hresult (fun _ => ih) error)
  | close ok error ih => exact .close (hresult (fun _ => ih) error)
  | set ok error ih => exact .set (hresult (fun _ => ih) error)
  | build ok error ih => exact .build (hresult ih error)
  | feed h ih => exact .feed ih
  | finish h ih => exact .finish ih
  | «recall» h ih => exact .recall ih
  | remember h ih => exact .remember ih

/-- **The built-in directives** hand refusals on. -/
theorem builtins_handRefusalsOn {name : String} {d : Directive σ μ}
    (h : Directive.builtins.directive? name = some d) : d.HandsRefusalsOn :=
  ⟨fun args => ((builtins_propagate h).call args).handsRefusalsOn,
    fun args value => ((builtins_propagate h).resume args value).handsRefusalsOn⟩

/-! ## Output

The state of a render with regard to its sink, stated by the calls that the sink has received: it
has taken everything (`Taking`), or it has refused the last chunk (`Refusing`) and an error says
so. These are what a body can leave; closing comes at the end of a run only. -/

section Output

variable [OutputSink κ] {first : κ} {r r' : Render σ κ μ}

/-- The sink of a render has taken all it has received since it was attached. -/
def Taking (first : κ) (r : Render σ κ μ) : Prop :=
  ∃ sink chunks, r.sink = some sink ∧ Receives first (SinkCall.takes chunks) sink

/-- The sink of a render has refused the last chunk it has received, with the reason that an error
gives. -/
def Refusing (first : κ) (err : RenderError) (r : Render σ κ μ) : Prop :=
  ∃ sink chunks chunk reason, r.sink = some sink ∧ err = .sink reason ∧
    Receives first (SinkCall.takes chunks ++ [.accept chunk (some reason)]) sink

/-- Where output leaves the sink: it has taken everything, but that an error may be its refusal of
the last chunk. -/
def Delivers {α : Type} (first : κ) : Except RenderError α → Render σ κ μ → Prop
  | .ok _, r => Taking first r
  | .error err, r => Taking first r ∨ Refusing first err r

/-- A chunk that is emitted is taken or refused by the sink. -/
theorem Taking.emit (h : Taking first r) {chunk : String} {outcome : Except RenderError Unit}
    (hemit : r.emit chunk = (outcome, r')) : Delivers first outcome r' := by
  obtain ⟨sink, chunks, hsink, hreceives⟩ := h
  have hnext := hreceives.accept chunk
  unfold Render.emit at hemit
  rw [hsink] at hemit
  dsimp only at hemit
  rcases haccept : OutputSink.accept sink chunk with ⟨sink', _ | reason⟩ <;>
    rw [haccept] at hnext hemit <;> cases hemit
  · exact ⟨sink', chunks ++ [chunk], rfl, SinkCall.takes_append chunks [chunk] ▸ hnext⟩
  · exact .inr ⟨sink', chunks, chunk, reason, rfl, rfl, hnext⟩

/-- Chunks in order: the sink takes them up to the first that it refuses. -/
theorem Taking.emitAll (h : Taking first r) {chunks : List String}
    {outcome : Except RenderError Unit} (hemit : emitAll chunks r = (outcome, r')) :
    Delivers first outcome r' := by
  induction chunks generalizing r with
  | nil =>
    cases hemit
    exact h
  | cons chunk rest ih =>
    rw [Render.emitAll] at hemit
    split at hemit
    · rename_i hchunk
      exact ih (h.emit hchunk) hemit
    · rename_i hchunk
      cases hemit
      exact h.emit hchunk

/-- **A body** that hands refusals on ends behind a chunk that was refused, with its error. -/
theorem Taking.perform [FilterStage σ] {setup : Setup σ μ} {fuel : Nat} {body : Body σ μ}
    {res : Except RenderError (Flow σ)} (h : Taking first r) (hbody : body.HandsRefusalsOn)
    (hperform : perform setup fuel body r = some (res, r')) : Delivers first res r' := by
  induction hbody generalizing r with
  | done flow =>
    cases hperform
    exact h
  | fail err =>
    cases hperform
    exact .inl h
  | @emit chunk next ok error ih =>
    rw [Render.perform] at hperform
    rcases hemit : r.emit chunk with ⟨err | ⟨⟩, r₁⟩ <;> rw [hemit] at hperform
    · dsimp only at hperform
      rw [error] at hperform
      cases hperform
      exact h.emit hemit
    · exact ih (h.emit hemit) hperform
  | skip _ ih => exact ih (r := r.skipBlock) h hperform
  | restart _ ih =>
    have hrestart : Taking first r.restartBlock.2 := by
      obtain ⟨blocks, skip, cursor, hframe⟩ := restartBlock_frame r
      rw [hframe]
      exact h
    exact ih _ hrestart hperform
  | close _ ih =>
    have hclose : Taking first r.closeCurrent.2 := by
      obtain ⟨blocks, skip, hframe⟩ := closeCurrent_frame r
      rw [hframe]
      exact h
    exact ih _ hclose hperform
  | @set path value _ _ ih =>
    have hset : Taking first (r.setWithin path value).2 := by
      obtain ⟨store, answers, hframe⟩ := setWithin_frame path value r
      rw [hframe]
      exact h
    exact ih _ hset hperform
  | build _ ih =>
    rw [Render.perform] at hperform
    split at hperform
    · exact ih _ (by exact h) hperform
    · exact ih _ h hperform
  | feed _ ih | finish _ ih =>
    rw [Render.perform] at hperform
    split at hperform
    · cases hperform
    · exact ih _ _ (by exact h) hperform
  | «recall» _ ih => exact ih _ h hperform
  | @remember memory _ _ ih => exact ih (r := { r with memory }) h hperform

end Output

/-! ## Runs

`Stands` has one constructor for each way in which a run can leave the sink, with the outcome it
belongs to. A run starts with a sink that has taken everything, keeps it so from turn to turn,
and its last turn decides which of the four it is. -/

/-- Whether a render has a sink and has not ended. -/
def Status.isUnderway : Status → Bool
  | .running | .suspended _ => true
  | .idle | .done | .failed => false

/-- How a run leaves a render with its sink. -/
inductive Stands [OutputSink κ] (setup : Setup σ μ) (first : κ) :
    Except RenderError Unit → Render σ κ μ → Prop where
  /-- the render goes on -/
  | going {r} (h : Taking first r) (hunderway : r.status.isUnderway = true) :
      Stands setup first (.ok ()) r
  /-- everything was taken, and the sink was closed behind the last instruction -/
  | done {r sink chunks} (hsink : r.sink = some sink)
      (hreceives : Receives first (SinkCall.takes chunks ++ [.close none]) sink)
      (hstatus : r.status = .done) (hcursor : setup.template.size ≤ r.cursor) :
      Stands setup first (.ok ()) r
  /-- the render has failed before the sink was closed -/
  | failed {r err} (h : Taking first r ∨ Refusing first err r) (hstatus : r.status = .failed) :
      Stands setup first (.error err) r
  /-- everything was taken, but closing the sink has failed -/
  | unclosed {r sink chunks reason} (hsink : r.sink = some sink)
      (hreceives : Receives first (SinkCall.takes chunks ++ [.close (some reason)]) sink)
      (hstatus : r.status = .failed) (hcursor : setup.template.size ≤ r.cursor) :
      Stands setup first (.error (.sink reason)) r

section Runs

variable [OutputSink κ] {setup : Setup σ μ} {first : κ} {r r' : Render σ κ μ} {fuel : Nat}

/-- Failing leaves the sink as it is, so it stands as its last call says. -/
theorem stands_fail {err : RenderError} (h : Taking first r ∨ Refusing first err r) :
    Stands setup first (.error err) (fail err r).2 := by
  obtain ⟨pipe, lines, hframe⟩ := fail_frame err r
  rw [hframe]
  exact .failed h rfl

/-- Blocks are opened and closed without a word to the sink. -/
theorem Taking.reach {d : Directive σ μ} {index : Nat} {res : Except RenderError Nat}
    (h : Taking first r) (hreach : reach d index r = (res, r')) : Taking first r' := by
  obtain ⟨blocks, skip, rfl⟩ := exists_of_reach hreach
  exact h

/-- Behind the last instruction everything is taken, and the sink is closed. -/
theorem Taking.complete (h : Taking first r) (hget : setup.template.get? r.cursor = none) :
    Stands setup first (complete r).1 (complete r).2 := by
  have hcursor : setup.template.size ≤ r.cursor := List.getElem?_eq_none_iff.mp hget
  obtain ⟨sink, chunks, hsink, hreceives⟩ := h
  have hnext := hreceives.close
  rw [Render.complete]
  dsimp only
  rw [hsink]
  dsimp only
  rcases hclose : OutputSink.close sink with ⟨sink', _ | reason⟩ <;> rw [hclose] at hnext
  · exact .done rfl hnext rfl hcursor
  · dsimp only
    obtain ⟨pipe, lines, hframe⟩ :=
      fail_frame (.sink reason) { r with status := .done, sink := some sink' }
    rw [hframe]
    exact .unclosed rfl hnext rfl hcursor

/-- A directive that is resumed hands refusals on, as it is one of the registry. -/
theorem resumption_handsRefusalsOn (hsetup : setup.HandsRefusalsOn) {index : Nat} {value : Value}
    {body : Body σ μ} (h : setup.resumption index value = .ok body) : body.HandsRefusalsOn := by
  unfold Setup.resumption at h
  split at h
  · split at h <;> cases h
    rename_i hdir
    exact (hsetup hdir).resume _ _
  · cases h

variable [FilterStage σ]

/-- A turn with which the run goes on. -/
theorem Taking.next (h : Taking first r) (hsetup : setup.HandsRefusalsOn)
    {task task' : Render.Task σ} (hturn : Turned setup fuel task r (.next task') r') :
    Taking first r' := by
  cases hturn with
  | literalSkipped | advanced | resolved | piped | draining | nothingToDrain => exact h
  | literalEmitted hget hskip hemit => exact Taking.emit (by exact h) hemit
  | passedBy hget hdir hreach hskip => exact Taking.reach (by exact h) hreach
  | called hget hdir hreach hskip hbody =>
    exact (Taking.reach (by exact h) hreach).perform ((hsetup hdir).call _) hbody
  | resumed hresume hbody => exact h.perform (resumption_handsRefusalsOn hsetup hresume) hbody
  | closed hpipe hread hemit =>
    have hemitted := Taking.emitAll (by exact h) hemit
    rw [dropPipe]
    split <;> exact hemitted

/-- A turn with which the run stops. -/
theorem Taking.stop (h : Taking first r) (hsetup : setup.HandsRefusalsOn) {task : Render.Task σ}
    {outcome : Except RenderError Unit} (hturn : Turned setup fuel task r (.stop outcome) r') :
    Stands setup first outcome r' := by
  cases hturn with
  | complete hget => exact h.complete hget
  | literalRefused hget hskip hemit => exact stands_fail (Taking.emit (by exact h) hemit)
  | unknown | consumed | resumeUnknown | drainFailed => exact stands_fail (.inl h)
  | unbalanced hget hdir hreach => exact stands_fail (.inl (Taking.reach (by exact h) hreach))
  | callFailed hget hdir hreach hskip hbody =>
    exact stands_fail ((Taking.reach (by exact h) hreach).perform ((hsetup hdir).call _) hbody)
  | suspended => exact .going h rfl
  | resumeFailed hresume hbody =>
    exact stands_fail (h.perform (resumption_handsRefusalsOn hsetup hresume) hbody)
  | drained hpipe hread hemit => exact .going (Taking.emitAll (by exact h) hemit) rfl
  | drainRefused hpipe hread hchunks hemit =>
    exact stands_fail (Taking.emitAll (by exact h) hemit)

/-- **A run** of a render whose sink has taken everything. -/
theorem Taking.run (h : Taking first r) (hsetup : setup.HandsRefusalsOn) {task : Render.Task σ}
    {outcome : Except RenderError Unit} (hrun : run setup fuel task r = some (outcome, r')) :
    Stands setup first outcome r' :=
  run_induction (I := fun _ => Taking first) (fun hturn h => h.next hsetup hturn)
    (fun hturn h => h.stop hsetup hturn) hrun h

end Runs

/-! ## Calls of the host

Between two calls the render is not started, or underway with a sink that has taken everything,
or finished. A call begins a run in the first two cases at most, and its outcome is that of the
run or of an emission that it makes itself. -/

/-- The sink that a call attaches. -/
def HostCall.attached? : HostCall κ → Option κ
  | .attach sink => some sink
  | _ => none

/-- The first sink that calls attach. -/
def firstSink? (calls : List (HostCall κ)) : Option κ := calls.findSome? HostCall.attached?

section Calls

variable [FilterStage σ] [OutputSink κ] {setup : Setup σ μ} {first : κ} {r r' : Render σ κ μ}
  {fuel : Nat} {call : HostCall κ} {outcome : Except RenderError Unit}

omit [FilterStage σ] [OutputSink κ] in
theorem Status.isUnderway_of_piping {status : Status} {index : Nat}
    (h : status.piping? = some index) : status.isUnderway = true := by
  cases status with
  | suspended wait => rfl
  | idle | running | done | failed => cases h

/-- Handing over what was waited for begins with a sink that has taken everything. -/
theorem HostCall.Begins.feed_taking {event : Pipe.Event} {task : Render.Task σ}
    (h : Begins setup fuel (.feed event) r task r') :
    r.status.isUnderway = true ∧ ∀ first : κ, Taking first r → Taking first r' := by
  cases h with
  | feed hpipe hpiping => exact ⟨Status.isUnderway_of_piping hpiping, fun _ => id⟩
  | @feedChunk _ _ _ passed _ _ hpipe hpass hemit hpiping =>
    refine ⟨?_, fun first h => Taking.emitAll (by exact h) hemit⟩
    obtain ⟨sink, rfl⟩ := exists_of_emitAll hemit
    exact Status.isUnderway_of_piping hpiping

/-- A run begins by attaching the first sink, or with a sink that has taken everything. -/
theorem HostCall.Begins.taking {tickets : List String} (hin : r.InOrder [] tickets)
    {task : Render.Task σ} (h : Begins setup fuel call r task r') :
    (∃ sink, call = .attach sink ∧ r.status = .idle ∧
      r' = { r with sink := some sink, status := .running }) ∨
    r.status.isUnderway = true ∧ ∀ first : κ, Taking first r → Taking first r' := by
  cases h with
  | @attach sink _ hidle => exact .inl ⟨sink, rfl, hidle, rfl⟩
  | advance hrunning => exact .inr ⟨by rw [hrunning]; rfl, fun _ => id⟩
  | pump hpiping => exact .inr ⟨Status.isUnderway_of_piping hpiping, fun _ => id⟩
  | @set _ _ _ store before _ _ _ _ _ _ _ hset hwake hsuspended hres =>
    rw [wake_of_not_mem (hin.woken_once hset).1] at hwake
    cases hwake
    obtain ⟨store', answers, hframe, -⟩ := wakeHosts_frame before { r with store }
    dsimp only at hsuspended ⊢
    rw [hframe] at hsuspended ⊢
    refine .inr ⟨?_, fun _ => id⟩
    rw [show r.status = _ from hsuspended]
    rfl
  | feed hpipe hpiping => exact .inr ⟨Status.isUnderway_of_piping hpiping, fun _ => id⟩
  | @feedChunk _ chunk _ _ _ _ hpipe hpass hemit hpiping =>
    have hfeed : Begins setup fuel (.feed (.chunk chunk)) r _ r' :=
      .feedChunk hpipe hpass hemit hpiping
    exact .inr hfeed.feed_taking
  | forward hwait hfeed =>
    obtain ⟨pipe, pipe', lines, -, rfl⟩ := Invariant.waitSide_frame hwait
    obtain ⟨hunderway, htaking⟩ := hfeed.feed_taking
    exact .inr ⟨hunderway, htaking⟩

omit [FilterStage σ] in
/-- Questions and what happens outside do not reach the sink. -/
theorem Stands.frame {store : Store Waiter} {pipe : Option (Pipe σ)} {lines : Lines}
    {answers : List (String × Value)} {clock : Instant} (h : Stands setup first outcome r) :
    Stands setup first outcome { r with store, pipe, lines, answers, clock } := by
  cases h with
  | going h hunderway => exact .going h hunderway
  | done hsink hreceives hstatus hcursor => exact .done hsink hreceives hstatus hcursor
  | failed h hstatus => exact .failed h hstatus
  | unclosed hsink hreceives hstatus hcursor => exact .unclosed hsink hreceives hstatus hcursor

/-- **A call** on a render that is underway. Where it fails the render, it returns the error. -/
theorem Taking.served (h : Taking first r) (hsetup : setup.HandsRefusalsOn) {tickets : List String}
    (hin : r.InOrder [] tickets) (hunderway : r.status.isUnderway = true)
    (hserved : HostCall.Served setup fuel call r outcome r') :
    ∃ outcome', Stands setup first outcome' r' ∧
      ∀ err, outcome' = .error err → outcome = .error err := by
  cases hserved with
  | quiet store answers => exact ⟨.ok (), .going h hunderway, nofun⟩
  | refused hrefused =>
    refine ⟨.ok (), ?_, nofun⟩
    obtain rfl | ⟨path, index, since, now, -, rfl⟩ := hrefused.kept
    · exact .going h hunderway
    · exact .going h rfl
  | ran hbegins hrun woken =>
    refine ⟨outcome, ?_, fun _ => id⟩
    obtain ⟨sink, -, hidle, -⟩ | ⟨-, htaking⟩ := hbegins.taking hin
    · rw [hidle] at hunderway
      cases hunderway
    · have hstands := (htaking first h).run hsetup hrun
      obtain ⟨store, answers, hframe, -⟩ := wakeHosts_frame woken _
      rw [hframe]
      exact hstands.frame
  | unfed hpiping hemit =>
    exact ⟨_, stands_fail (Taking.emitAll (by exact h) hemit), fun _ => id⟩

/-- A call on a render without a sink, unless it attaches one. -/
theorem HostCall.Served.idle {tickets : List String} (hin : r.InOrder [] tickets)
    (hidle : r.status = .idle) (hattached : call.attached? = none)
    (hserved : Served setup fuel call r outcome r') : r'.status = .idle ∧ r'.sink = r.sink := by
  cases hserved with
  | quiet store answers => exact ⟨hidle, rfl⟩
  | refused hrefused =>
    obtain rfl | ⟨path, index, since, now, hsuspended, rfl⟩ := hrefused.kept
    · exact ⟨hidle, rfl⟩
    · cases hidle.symm.trans hsuspended
  | ran hbegins hrun woken =>
    obtain ⟨sink, rfl, -, -⟩ | ⟨hunderway, -⟩ := hbegins.taking hin
    · cases hattached
    · rw [hidle] at hunderway
      cases hunderway
  | unfed hpiping hemit =>
    rw [hidle] at hpiping
    exact absurd rfl hpiping

end Calls

/-! ## Histories

Over many calls there is one more thing to keep: that the sink of the render is the one attached
first. A second attach changes nothing, since the render is not idle any more. `FailedBy` keeps
on record which call has failed the render, for the clause of the protocol about errors. -/

section Histories

variable [FilterStage σ] [OutputSink κ]

/-- A history in which the error of a call has failed the render. -/
inductive FailedBy (setup : Setup σ μ) (start : Render σ κ μ) (err : RenderError) :
    List (HostCall κ × Except RenderError Unit) → Render σ κ μ → Prop where
  | call {record r call fuel r'} (before : History setup start record r)
      (hlive : r.status.isFinished = false)
      (hcall : HostCall.run setup fuel call r = some (.error err, r'))
      (hfailed : r'.status = .failed) : FailedBy setup start err (record ++ [(call, .error err)]) r'
  | later {record r call fuel outcome r'} (before : FailedBy setup start err record r)
      (hcall : HostCall.run setup fuel call r = some (outcome, r')) :
      FailedBy setup start err (record ++ [(call, outcome)]) r'
  | outside {record r} (before : FailedBy setup start err record r) (move : OutsideMove) :
      FailedBy setup start err record (move.apply r)

/-- How a history leaves a render and the first sink that was attached, if one was. -/
def Attends (setup : Setup σ μ) (start : Render σ κ μ)
    (record : List (HostCall κ × Except RenderError Unit)) (r : Render σ κ μ) : Option κ → Prop
  | none => r.status = .idle ∧ r.sink = none
  | some first => ∃ outcome, Stands setup first outcome r ∧
      ∀ err, outcome = .error err → FailedBy setup start err record r

variable {setup : Setup σ μ} {start r r' : Render σ κ μ} {fuel : Nat} {first : κ}
  {call : HostCall κ} {outcome : Except RenderError Unit} {memory : μ} {lines : Lines}
  {clock : Instant} {record : List (HostCall κ × Except RenderError Unit)}

omit [FilterStage σ] in
/-- A render has failed exactly if its outcome was an error. -/
theorem Stands.failed_iff (h : Stands setup first outcome r) :
    r.status = .failed ↔ ∃ err, outcome = .error err := by
  cases h with
  | going h hunderway =>
    refine ⟨fun hfailed => ?_, nofun⟩
    rw [hfailed] at hunderway
    cases hunderway
  | done hsink hreceives hstatus hcursor =>
    rw [hstatus]
    exact ⟨nofun, nofun⟩
  | failed h hstatus => exact ⟨fun _ => ⟨_, rfl⟩, fun _ => hstatus⟩
  | unclosed hsink hreceives hstatus hcursor => exact ⟨fun _ => ⟨_, rfl⟩, fun _ => hstatus⟩

/-- What a call on a live render leaves, it has failed itself if it has failed. -/
theorem Attends.of_call (hhistory : History setup start record r)
    (hlive : r.status.isFinished = false) (hcall : call.run setup fuel r = some (outcome, r'))
    {outcome' : Except RenderError Unit} (hstands : Stands setup first outcome' r')
    (herr : ∀ err, outcome' = .error err → outcome = .error err) :
    Attends setup start (record ++ [(call, outcome)]) r' (some first) := by
  refine ⟨outcome', hstands, fun err heq => ?_⟩
  have hfailed := hstands.failed_iff.mpr ⟨err, heq⟩
  cases herr err heq
  exact .call hhistory hlive hcall hfailed

/-- A call on a render to which no sink was attached. -/
theorem Attends.first_call (hsetup : setup.HandsRefusalsOn)
    (hhistory : History setup (fresh memory lines clock) record r)
    (h : Attends setup (fresh memory lines clock) record r none) (hproceeds : call.proceeds = true)
    (hcall : call.run setup fuel r = some (outcome, r')) :
    Attends setup (fresh memory lines clock) (record ++ [(call, outcome)]) r' call.attached? := by
  obtain ⟨hidle, hnone⟩ := h
  rcases hattached : call.attached? with _ | sink
  · have hserved := HostCall.served hhistory.inOrder (by rw [hidle]; nofun) hproceeds hcall
    obtain ⟨hidle', hsink⟩ := hserved.idle hhistory.inOrder hidle hattached
    exact ⟨hidle', hsink.trans hnone⟩
  · cases call with
    | attach sink' =>
      cases hattached
      have hrun := hcall
      rw [HostCall.run, attach, hidle] at hrun
      have htaking : Taking sink { r with sink := some sink, status := .running } :=
        ⟨sink, [], rfl, .start⟩
      exact .of_call hhistory (by rw [hidle]; rfl) hcall (htaking.run hsetup hrun) fun _ => id
    | _ => cases hattached

/-- A call on a render to which a sink was attached. -/
theorem Attends.next_call (hsetup : setup.HandsRefusalsOn)
    (hhistory : History setup (fresh memory lines clock) record r)
    (h : Attends setup (fresh memory lines clock) record r (some first))
    (hproceeds : call.proceeds = true) (hcall : call.run setup fuel r = some (outcome, r')) :
    Attends setup (fresh memory lines clock) (record ++ [(call, outcome)]) r' (some first) := by
  obtain ⟨outcome₀, hstands, herr⟩ := h
  have hover (hfinished : r.status.isFinished = true) :
      Attends setup (fresh memory lines clock) (record ++ [(call, outcome)]) r' (some first) := by
    obtain ⟨store, answers, rfl⟩ :=
      HostCall.run_stuck hproceeds hfinished (hhistory.atRest hfinished).1 hcall
    exact ⟨outcome₀, hstands.frame, fun err heq => (herr err heq).later hcall⟩
  cases hstands with
  | going htaking hunderway =>
    have hlive : r.status.isFinished = false ∧ r.status ≠ .failed := by
      revert hunderway
      cases r.status <;> simp [Status.isUnderway, Status.isFinished]
    have hserved := HostCall.served hhistory.inOrder hlive.2 hproceeds hcall
    obtain ⟨outcome', hstands, herr'⟩ :=
      htaking.served hsetup hhistory.inOrder hunderway hserved
    exact .of_call hhistory hlive.1 hcall hstands herr'
  | done hsink hreceives hstatus hcursor => exact hover (by rw [hstatus]; rfl)
  | failed h hstatus => exact hover (by rw [hstatus]; rfl)
  | unclosed hsink hreceives hstatus hcursor => exact hover (by rw [hstatus]; rfl)

omit [FilterStage σ] [OutputSink κ] in
/-- A later call matters for the first sink only as long as there is none. -/
theorem firstSink?_append (calls : List (HostCall κ)) (call : HostCall κ) :
    firstSink? (calls ++ [call]) = (firstSink? calls).or call.attached? := by
  rw [firstSink?, List.findSome?_append, List.findSome?_singleton]
  rfl

/-- **Between all calls** the first sink that was attached is the one of the render, and stands as
the outcome says. -/
theorem History.attends (hsetup : setup.HandsRefusalsOn)
    (h : History setup (fresh memory lines clock) record r)
    (hproceeds : ∀ entry ∈ record, entry.1.proceeds = true) :
    Attends setup (fresh memory lines clock) record r (firstSink? (record.map (·.1))) := by
  induction h with
  | start => exact ⟨rfl, rfl⟩
  | call before hcall ih =>
    have hbefore := ih fun entry hentry => hproceeds entry (List.mem_append_left _ hentry)
    have hlast := hproceeds _ (List.mem_append_right _ List.mem_cons_self)
    rw [List.map_append, List.map_singleton, firstSink?_append]
    rcases hfirst : firstSink? _ with _ | first <;> rw [hfirst] at hbefore
    · exact hbefore.first_call hsetup before hlast hcall
    · exact hbefore.next_call hsetup before hlast hcall
  | outside before move ih =>
    have hbefore := ih hproceeds
    rcases hfirst : firstSink? _ with _ | first <;> rw [hfirst] at hbefore
    · obtain ⟨pipe, lines, clock, hframe, -⟩ := move.apply_frame _
      rw [hframe]
      exact hbefore
    · obtain ⟨outcome, hstands, herr⟩ := hbefore
      obtain ⟨pipe, lines, clock, hframe, -⟩ := move.apply_frame _
      refine ⟨outcome, ?_, fun err heq => (herr err heq).outside move⟩
      rw [hframe]
      exact hstands.frame

omit [FilterStage σ] in
theorem Stands.sink (h : Stands setup first outcome r) : ∃ sink, r.sink = some sink := by
  cases h with
  | going h => exact h.imp fun _ ⟨_, hsink, _⟩ => hsink
  | done hsink => exact ⟨_, hsink⟩
  | failed h =>
    obtain ⟨sink, _, hsink, -⟩ | ⟨sink, _, _, _, hsink, -⟩ := h <;> exact ⟨sink, hsink⟩
  | unclosed hsink => exact ⟨_, hsink⟩

/-- The error that has failed a render is on record. -/
theorem FailedBy.mem {err : RenderError} (h : FailedBy setup start err record r) :
    ∃ call, (call, .error err) ∈ record := by
  induction h with
  | call before hlive hcall hfailed => exact ⟨_, List.mem_append_right _ List.mem_cons_self⟩
  | later before hcall ih => exact ih.imp fun _ hmem => List.mem_append_left _ hmem
  | outside before move ih => exact ih

/-- **Behind an attach** a render has a sink, whatever has become of it. As long as every call has
gone well, it goes on or is done. -/
theorem History.attached (hsetup : setup.HandsRefusalsOn)
    (h : History setup (fresh memory lines clock) record r)
    (hproceeds : ∀ entry ∈ record, entry.1.proceeds = true)
    (hfirst : firstSink? (record.map (·.1)) = some first) :
    (∃ sink, r.sink = some sink) ∧
      ((∀ entry ∈ record, entry.2 = .ok ()) → r.status.isUnderway = true ∨ r.status = .done) := by
  have hattends := h.attends hsetup hproceeds
  rw [hfirst] at hattends
  obtain ⟨outcome, hstands, herr⟩ := hattends
  refine ⟨hstands.sink, fun hok => ?_⟩
  cases hstands with
  | going _ hunderway => exact .inl hunderway
  | done _ _ hstatus => exact .inr hstatus
  | failed | unclosed =>
    -- the error that the render has failed with would be on record
    obtain ⟨call, hmem⟩ := (herr _ rfl).mem
    cases hok _ hmem

/-! ## The protocol

The protocol is stated about the list of all calls that the sink has received. It follows from
the form of this list, chunks that are taken and one call more at most, which is how `Stands`
gives it. -/

/-- The calls that the sink of a render has received behind a history, and what they say about the
render. -/
structure SinkProtocol (setup : Setup σ μ) (start : Render σ κ μ)
    (record : List (HostCall κ × Except RenderError Unit)) (r : Render σ κ μ)
    (calls : List SinkCall) : Prop where
  /-- behind a chunk that was refused nothing comes, no chunk and no close -/
  refused_last : ∀ before chunk reason later,
    calls = before ++ .accept chunk (some reason) :: later → later = []
  /-- behind a close nothing comes, no chunk and no other close -/
  closed_last : ∀ before failure later, calls = before ++ .close failure :: later → later = []
  /-- the sink is closed behind the last instruction only -/
  closed_behind : ∀ failure, .close failure ∈ calls → setup.template.size ≤ r.cursor
  done_iff : r.status = .done ↔ .close none ∈ calls
  /-- a render that has failed has closed the sink at most if closing it was what failed -/
  failed : r.status = .failed → ∃ err, FailedBy setup start err record r ∧
    ∀ failure, .close failure ∈ calls → ∃ reason, failure = some reason ∧ err = .sink reason

/-- The protocol can be read off the call behind the chunks that are taken. -/
theorem SinkProtocol.of_tail {chunks : List String} {tail : List SinkCall}
    (htail : tail.length ≤ 1)
    (hbehind : ∀ failure, .close failure ∈ tail → setup.template.size ≤ r.cursor)
    (hdone : r.status = .done ↔ .close none ∈ tail)
    (hfailed : r.status = .failed → ∃ err, FailedBy setup start err record r ∧
      ∀ failure, .close failure ∈ tail → ∃ reason, failure = some reason ∧ err = .sink reason) :
    SinkProtocol setup start record r (SinkCall.takes chunks ++ tail) where
  refused_last _ _ _ _ := SinkCall.later_eq_nil htail nofun
  closed_last _ _ _ := SinkCall.later_eq_nil htail nofun
  closed_behind failure hmem := hbehind failure (SinkCall.close_mem.mp hmem)
  done_iff := hdone.trans SinkCall.close_mem.symm
  failed h := by
    obtain ⟨err, hby, hreason⟩ := hfailed h
    exact ⟨err, hby, fun failure hmem => hreason failure (SinkCall.close_mem.mp hmem)⟩

/-- **Wherever a run leaves the sink**, it has received what the protocol allows. -/
theorem Stands.protocol (h : Stands setup first outcome r)
    (herr : ∀ err, outcome = .error err → FailedBy setup start err record r) :
    ∃ sink calls, r.sink = some sink ∧ Receives first calls sink ∧
      SinkProtocol setup start record r calls := by
  cases h with
  | going h hunderway =>
    obtain ⟨sink, chunks, hsink, hreceives⟩ := h
    refine ⟨sink, SinkCall.takes chunks ++ [], hsink, ?_, .of_tail (by simp) (by simp) ?_ ?_⟩
    · rwa [List.append_nil]
    · refine ⟨fun hdone => ?_, nofun⟩
      rw [hdone] at hunderway
      cases hunderway
    · intro hfailed
      rw [hfailed] at hunderway
      cases hunderway
  | done hsink hreceives hstatus hcursor =>
    refine ⟨_, _, hsink, hreceives, .of_tail (by simp) (fun _ _ => hcursor) (by simp [hstatus]) ?_⟩
    rw [hstatus]
    exact nofun
  | failed h hstatus =>
    have hby := herr _ rfl
    have hdone : r.status ≠ .done := by
      rw [hstatus]
      exact nofun
    obtain ⟨sink, chunks, hsink, hreceives⟩ |
      ⟨sink, chunks, chunk, reason, hsink, -, hreceives⟩ := h
    · refine ⟨sink, SinkCall.takes chunks ++ [], hsink, ?_, .of_tail (by simp) (by simp) ?_ ?_⟩
      · rwa [List.append_nil]
      · simp [hdone]
      · exact fun _ => ⟨_, hby, by simp⟩
    · refine ⟨sink, _, hsink, hreceives, .of_tail (by simp) (by simp) ?_ ?_⟩
      · simp [hdone]
      · exact fun _ => ⟨_, hby, by simp⟩
  | unclosed hsink hreceives hstatus hcursor =>
    have hby := herr _ rfl
    refine ⟨_, _, hsink, hreceives, .of_tail (by simp) (fun _ _ => hcursor) ?_ ?_⟩
    · simp [hstatus]
    · exact fun _ => ⟨_, hby, by simp⟩

/-! ## Calls in progress

A call may never return, when a filter or a directive goes on for ever, and the protocol has to
hold then as well. `Turns` is a run as far as it has come. Of such a run the sink has taken
everything: whatever ends the output would have ended the run too. -/

/-- The turns that a run has taken so far. -/
inductive Turns (setup : Setup σ μ) (task : Render.Task σ) (r : Render σ κ μ) :
    Render.Task σ → Render σ κ μ → Prop where
  | start : Turns setup task r task r
  | next {task' r' task'' r''} (fuel : Nat) (before : Turns setup task r task' r')
      (hturn : turn setup fuel task' r' = some (.next task'', r'')) : Turns setup task r task'' r''

/-- A run that goes on has not ended the output, also one that never stops. -/
theorem Taking.turns (h : Taking first r) (hsetup : setup.HandsRefusalsOn)
    {task task' : Render.Task σ} (hturns : Turns setup task r task' r') : Taking first r' := by
  induction hturns with
  | start => exact h
  | next fuel before hturn ih => exact ih.next hsetup (turn_turned hturn)

/-- **Inside of a call** the first sink that was attached has taken everything. -/
theorem History.underway (hsetup : setup.HandsRefusalsOn)
    (h : History setup (fresh memory lines clock) record r)
    (hproceeds : ∀ entry ∈ record, entry.1.proceeds = true) {r₁ r₂ : Render σ κ μ}
    {task task' : Render.Task σ} (hbegins : call.Begins setup fuel r task r₁)
    (hturns : Turns setup task r₁ task' r₂) :
    ∃ first, firstSink? (record.map (·.1) ++ [call]) = some first ∧ Taking first r₂ := by
  have hattends := h.attends hsetup hproceeds
  rw [firstSink?_append]
  generalize firstSink? (record.map (·.1)) = first? at hattends ⊢
  obtain ⟨sink, rfl, hidle, rfl⟩ | ⟨hunderway, htaking⟩ := hbegins.taking h.inOrder
  · cases first? with
    | none =>
      have hstart : Taking sink { r with sink := some sink, status := .running } :=
        ⟨sink, [], rfl, .start⟩
      exact ⟨sink, rfl, hstart.turns hsetup hturns⟩
    | some first =>
      obtain ⟨outcome, hstands, -⟩ := hattends
      cases hstands with
      | going _ hunderway =>
        rw [hidle] at hunderway
        cases hunderway
      | done _ _ hstatus | failed _ hstatus | unclosed _ _ hstatus => cases hidle.symm.trans hstatus
  · cases first? with
    | none =>
      rw [hattends.1] at hunderway
      cases hunderway
    | some first =>
      obtain ⟨outcome, hstands, -⟩ := hattends
      cases hstands with
      | going h => exact ⟨first, rfl, (htaking first h).turns hsetup hturns⟩
      | done _ _ hstatus | failed _ hstatus | unclosed _ _ hstatus =>
        rw [hstatus] at hunderway
        cases hunderway

/-! ## The protocol of a render

Both halves together, for what is between calls and for what is inside of them. -/

/-- **The protocol of sinks.** Of every template, with directives that hand refusals on, any filters
and any sinks, whatever is called to let the render go on and whatever happens outside: only the
sink that was attached first receives anything, and what it has received follows the protocol. While
a run goes on, whether it stops or not, this sink has taken everything and was not closed. -/
theorem sink_protocol (hsetup : setup.HandsRefusalsOn)
    (h : History setup (fresh memory lines clock) record r)
    (hproceeds : ∀ entry ∈ record, entry.1.proceeds = true) :
    (match firstSink? (record.map (·.1)) with
      | none => r.sink = none ∧ r.status = .idle
      | some first => ∃ sink calls, r.sink = some sink ∧ Receives first calls sink ∧
          (∀ log : CallLog κ, log.calls sink = log.calls first ++ calls) ∧
          SinkProtocol setup (fresh memory lines clock) record r calls) ∧
    ∀ call fuel task r₁ task' r₂, HostCall.Begins setup fuel call r task r₁ →
      Turns setup task r₁ task' r₂ → ∃ first sink chunks,
        firstSink? (record.map (·.1) ++ [call]) = some first ∧ r₂.sink = some sink ∧
        Receives first (SinkCall.takes chunks) sink := by
  refine ⟨?_, ?_⟩
  · have hattends := h.attends hsetup hproceeds
    generalize firstSink? (record.map (·.1)) = first? at hattends ⊢
    cases first? with
    | none => exact ⟨hattends.2, hattends.1⟩
    | some first =>
      obtain ⟨outcome, hstands, herr⟩ := hattends
      obtain ⟨sink, calls, hsink, hreceives, hprotocol⟩ := hstands.protocol herr
      exact ⟨sink, calls, hsink, hreceives, hreceives.log, hprotocol⟩
  · intro call fuel task r₁ task' r₂ hbegins hturns
    obtain ⟨first, hfirst, sink, chunks, hsink, hreceives⟩ :=
      h.underway hsetup hproceeds hbegins hturns
    exact ⟨first, sink, chunks, hfirst, hsink, hreceives⟩

end Histories

/-- A text with a variable between two literals. -/
def greeting : Setup TextFilter Unit where
  template := ⟨[.literal "hello ", .directive "var" [.path ⟨["x"]⟩], .literal "!"]⟩
  directives := Directive.builtins
  filters := TextFilter.registry id

/-- A sink that cannot be closed is attached, and then another one. The render fails behind its last
instruction and moves no more; only the first sink has received anything. -/
theorem sink_protocol_unclosed : ∃ r : Render TextFilter (Tapped WriterSink) Unit,
    HostCall.runAll greeting 9
        [.attach ⟨⟨⟨[], none, some 0⟩, false⟩, []⟩, .attach ⟨⟨{}, true⟩, []⟩,
          .set ⟨["x"]⟩ (.str "you"), .pump] (fresh ()) =
      some ([.ok (), .ok (), .error (.sink "flush refused"), .ok ()], r) ∧
    ∃ sink record, r.sink = some sink ∧ SinkProtocol greeting (fresh ()) record r sink.calls ∧
      sink.calls = [.accept "hello " none, .accept "you" none, .accept "!" none,
        .close (some "flush refused")] := by
  have hrun : HostCall.runAll greeting 9
        [.attach ⟨⟨⟨[], none, some 0⟩, false⟩, []⟩, .attach ⟨⟨{}, true⟩, []⟩,
          .set ⟨["x"]⟩ (.str "you"), .pump]
        (fresh () : Render TextFilter (Tapped WriterSink) Unit) =
      some ([.ok (), .ok (), .error (.sink "flush refused"), .ok ()], _) := rfl
  obtain ⟨hfirst, -⟩ := sink_protocol builtins_handRefusalsOn (History.start.runAll hrun)
    (by simp [HostCall.proceeds])
  obtain ⟨sink, calls, hsink, -, hlog, hprotocol⟩ := hfirst
  obtain rfl : sink.calls = calls := hlog Tapped.log
  cases hsink
  exact ⟨_, hrun, _, _, rfl, hprotocol, rfl⟩

end StreamingTemplate

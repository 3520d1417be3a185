import StreamingTemplate.Proofs.Engine.Chronicle
import StreamingTemplate.Proofs.Engine.Recovery

/-!
# What an error says about the render

Whether a call was refused or has aborted the render, `RenderError.isRecoverable` tells by the error
alone. It is wrong in one case: a directive that hands on the error of a rejected write aborts the
render with an error that claims to be recoverable.

* `RejectsIn` — in a turn, the body of a directive comes to a write that is rejected;
* `Render.Turned.rejects` — a turn of directives that hand errors on stops with a recoverable error
  only in this way;
* `RejectedWithin` — a turn among those of a call has stopped so;
* `Told`, `HostCall.run_told` — what the error of a call tells about the render.

`error_told` puts this together, for calls and for drivers.
-/

namespace StreamingTemplate

open Render

variable {σ κ μ : Type} [FilterStage σ] [OutputSink κ] {setup : Setup σ μ}
  {r r' : Render σ κ μ} {fuel : Nat} {err : RenderError}

/-! ## Rejected writes

A body is followed through its steps to the write, in the render of that moment. So `RejectsIn`
can be false of a body that writes, and of one that fails with another error. -/

/-- In a turn, the body of a directive comes to a write that is rejected with an error. -/
inductive RejectsIn (setup : Setup σ μ) (t : TakenTurn σ κ μ) (err : RenderError) : Prop where
  /-- the body that it is called with -/
  | call {name args d frame reached fuel path value next r} (htask : t.task = .instruction)
      (hget : setup.template.get? t.before.cursor = some (.directive name args))
      (hdir : setup.directives.directive? name = some d)
      (hreach : reach d t.before.cursor { t.before with cursor := t.before.cursor + 1 } =
        (.ok frame, reached))
      (hsteps : BodySteps setup fuel (d.call args, reached) (.set path value next, r))
      (hrejected : (r.setWithin path value).1 = .error err)
  /-- the body that it is resumed with -/
  | resume {index found resumed fuel path value next r} (htask : t.task = .resume index found)
      (hresume : setup.resumption index found = .ok resumed)
      (hsteps : BodySteps setup fuel (resumed, t.before) (.set path value next, r))
      (hrejected : (r.setWithin path value).1 = .error err)

/-- One of some turns has stopped with an error, and it is that of a write which was rejected inside
the body of a directive in this turn. -/
def RejectedWithin (setup : Setup σ μ) (taken : List (TakenTurn σ κ μ)) (err : RenderError) :
    Prop :=
  ∃ t ∈ taken, t.result = .stop (.error err) ∧ RejectsIn setup t err

/-- **A turn that stops with an error** has come to a rejected write, or the error is one that ends
a render. There is one case for each place at which a turn can stop; only the two that run a body
can come to a write. -/
theorem Render.Turned.rejects (hsetup : setup.Propagates) {t : TakenTurn σ κ μ}
    (ht : Turned setup fuel t.task t.before t.result t.after)
    (hresult : t.result = .stop (.error err)) :
    err.isRecoverable = false ∨ RejectsIn setup t err := by
  obtain ⟨task, r, result, r'⟩ := t
  dsimp only at ht hresult
  subst hresult
  generalize houtcome : Except.error err = outcome at ht
  cases ht with
  | complete hget =>
    obtain ⟨reason, rfl⟩ := complete_sinkError houtcome.symm
    exact .inl rfl
  | suspended | drained => cases houtcome
  | unknown | consumed =>
    cases houtcome
    exact .inl rfl
  | literalRefused hget hskip hemit =>
    cases houtcome
    exact .inl (emit_error hemit)
  | unbalanced hget hdir hreach =>
    cases houtcome
    exact .inl (reach_error hreach)
  | callFailed hget hdir hreach hskip hbody =>
    cases houtcome
    refine (((hsetup.directives hdir).call _).failed hsetup hbody).imp_right ?_
    rintro ⟨path, value, next, r₁, hsteps, hrejected⟩
    exact .call rfl hget hdir hreach hsteps hrejected
  | resumeFailed hresume hbody =>
    cases houtcome
    obtain ⟨name, args, d, hdir, rfl⟩ := exists_of_resumption hresume
    refine (((hsetup.directives hdir).resume _ _).failed hsetup hbody).imp_right ?_
    rintro ⟨path, value, next, r₁, hsteps, hrejected⟩
    exact .resume rfl hresume hsteps hrejected
  | resumeUnknown hresume =>
    cases houtcome
    exact .inl (resumption_error hresume)
  | drainFailed hpipe hread =>
    cases houtcome
    obtain rfl := read_error hread
    exact .inl rfl
  | drainRefused hpipe hread hchunks hemit =>
    cases houtcome
    exact .inl (emitAll_error hemit)

/-! ## What an error tells

`Told` is about one call: whether the render has failed by it, what has become of it if it has
not, and what becomes of it later if it has. -/

/-- What the error of a call that has taken some turns tells about the render that it has left. -/
structure Told (setup : Setup σ μ) (taken : List (TakenTurn σ κ μ)) (r : Render σ κ μ)
    (err : RenderError) (r' : Render σ κ μ) : Prop where
  /-- the render has failed exactly if the error is not recoverable, unless it is the error of a
  write that was rejected inside of a body, in the last turn of the call -/
  told : (r'.status = .failed ↔ err.isRecoverable = false) ∨
    r'.status = .failed ∧ RejectedWithin setup taken err
  /-- a render that has not failed is as it was, and still waits for what it waited for -/
  waits : r'.status ≠ .failed → Refused r err r'
  /-- one that has failed never moves again -/
  stuck : r'.status = .failed → ∀ record r'', History setup r' record r'' →
    (∀ entry ∈ record, entry.1.proceeds = true) →
      ∃ store answers lines clock, r'' = { r' with store, answers, lines, clock }

/-- By the error of a call a render fails if it is not recoverable, or that of a rejected write. -/
theorem HostCall.aborted_by {memory : μ} {lines : Lines} {clock : Instant}
    {record : List (HostCall κ × Except RenderError Unit)} (hsetup : setup.Propagates)
    (h : History setup (fresh memory lines clock) record r) (hlive : r.status ≠ .failed)
    {call : HostCall κ} (hleaves : call.leavesBlocks = true)
    (hcall : call.run setup fuel r = some (.error err, r')) (hfailed : r'.status = .failed) :
    err.isRecoverable = false ∨ RejectedWithin setup (call.turns setup fuel r) err := by
  obtain ⟨t, hmem, hresult⟩ | ⟨reason, rfl⟩ | ⟨-, hlives⟩ := HostCall.error_cases hleaves hcall
  · have hsound := (soundInvariant setup κ).history h (.start setup)
    obtain ⟨-, fuel', ht⟩ := (soundInvariant setup κ).took_turns call hsound t hmem
    exact (ht.rejects hsetup hresult).imp_right fun hrejects => ⟨t, hmem, hresult, hrejects⟩
  · exact .inl rfl
  · exact absurd hfailed (hlives hlive)

theorem HostCall.run_told {memory : μ} {lines : Lines} {clock : Instant}
    {record : List (HostCall κ × Except RenderError Unit)} (hsetup : setup.Propagates)
    (h : History setup (fresh memory lines clock) record r) (hlive : r.status ≠ .failed)
    {call : HostCall κ} (hproceeds : call.proceeds = true)
    (hcall : call.run setup fuel r = some (.error err, r')) :
    Told setup (call.turns setup fuel r) r err r' := by
  -- the call was refused and nothing has changed, or it has aborted the render
  rcases HostCall.run_ended h.inOrder hlive hproceeds hcall with ⟨err', heq, hrefused⟩ | haborted
  · cases heq
    refine ⟨.inl ?_, fun _ => hrefused, fun hfailed => absurd hfailed hrefused.live⟩
    simp [hrefused.live, hrefused.recoverable]
  · obtain ⟨hfailed, hpipe⟩ : Aborted r' := haborted
    refine ⟨?_, fun hne => absurd hfailed hne, ?_⟩
    · rcases HostCall.aborted_by hsetup h hlive (leavesBlocks_of_proceeds hproceeds) hcall hfailed
        with hunrecoverable | hrejected
      · exact .inl (by simp [hfailed, hunrecoverable])
      · exact .inr ⟨hfailed, hrejected⟩
    · intro _ record r'' hlater hproceeds
      exact hlater.stuck (by rw [hfailed]; rfl) hpipe hproceeds

/-- **What an error says about the render.** Of every render that has not failed, whatever was
called before, with directives that hand on the errors of what they do: an error of a call that lets
the render go on is recoverable exactly if the render has not failed by it, unless it is the error
of a write that was rejected inside the body of a directive in a turn of this call; then the render
has failed with an error that claims to be recoverable. A render that has not failed is as it was,
and one that has failed never moves again. An error of a driver is that of one of its calls, behind
calls that went well. -/
theorem error_told (hsetup : setup.Propagates) {memory : μ} {lines : Lines} {clock : Instant}
    {record : List (HostCall κ × Except RenderError Unit)}
    (h : History setup (fresh memory lines clock) record r) (hlive : r.status ≠ .failed) :
    (∀ call fuel err r', HostCall.proceeds call = true →
      HostCall.run setup fuel call r = some (.error err, r') →
        Told setup (call.turns setup fuel r) r err r') ∧
    (∀ now fuel listening inbox d err, poll setup now fuel listening inbox r = some d →
      d.result = .returned (.error err) →
        ∃ record' r₁ call fuel', History setup (fresh memory lines clock) (record ++ record') r₁ ∧
          (∀ entry ∈ record', entry.2 = .ok ()) ∧
          HostCall.run setup fuel' call r₁ = some (.error err, d.render) ∧
          Told setup (call.turns setup fuel' r₁) r₁ err d.render) := by
  refine ⟨?_, ?_⟩
  · intro call fuel err r' hproceeds hcall
    exact HostCall.run_told hsetup h hlive hproceeds hcall
  · intro now fuel listening inbox d err hpoll herr
    obtain ⟨record', r₁, call, fuel', hhistory, hok, hlive₁, hproceeds, hcall⟩ :=
      poll_error h hpoll herr
    exact ⟨record', r₁, call, fuel', hhistory, hok, hcall,
      HostCall.run_told hsetup hhistory hlive₁ hproceeds hcall⟩

/-! ## A rejected write inside of a body

The exception occurs: a directive that hands the error of its write on is all that it takes. -/

/-- A directive that writes below a variable that is not there, and hands the error on. -/
def badWrite : Directive σ μ where
  call _ := .set ⟨["a", "b"]⟩ (.bool true) (Body.orFail fun _ => .done .advance)

/-- A text that waits for a variable and then comes to a bad write. -/
def badWriteSetup : Setup TextFilter Unit where
  template := ⟨[.directive "var" [.path ⟨["x"]⟩], .directive "bad" []]⟩
  directives := Directive.builtins.register "bad" badWrite
  filters := TextFilter.registry id

theorem badWrite_propagates : badWriteSetup.Propagates where
  directives {name d} h := by
    unfold badWriteSetup DirectiveRegistry.register at h
    dsimp only at h
    split at h
    · cases h
      exact ⟨fun _ => .set (.done _) fun _ => rfl, fun _ _ => .done _⟩
    · exact builtins_propagate h
  filters := textFilter_error

/-- While the render waits, a write of the host is refused, and the render waits on. Resumed, it
comes to a write that is rejected with the same error, and has failed. -/
theorem error_told_waiting : ∃ r r₁ : Render TextFilter Collector Unit,
    History badWriteSetup (fresh ()) [(.attach {}, .ok ())] r ∧
    r.status = .suspended (.variable ⟨["x"]⟩ 0 0) ∧
    Told badWriteSetup ((HostCall.set ⟨["a", "b"]⟩ (.bool true)).turns badWriteSetup 9 r) r
      (.malformedPath ⟨["a", "b"]⟩ (.unset "a")) r ∧
    Told badWriteSetup ((HostCall.set ⟨["x"]⟩ (.str "v")).turns badWriteSetup 9 r) r
      (.malformedPath ⟨["a", "b"]⟩ (.unset "a")) r₁ ∧
    r₁.status = .failed ∧
    RejectedWithin badWriteSetup ((HostCall.set ⟨["x"]⟩ (.str "v")).turns badWriteSetup 9 r)
      (.malformedPath ⟨["a", "b"]⟩ (.unset "a")) := by
  have hattach : HostCall.run badWriteSetup 9 (.attach {})
      (fresh () : Render TextFilter Collector Unit) = some (.ok (), _) := rfl
  have hhistory := History.start.call hattach
  obtain ⟨htold, -⟩ := error_told badWrite_propagates hhistory nofun
  have hrefused := htold (.set ⟨["a", "b"]⟩ (.bool true)) 9 _ _ rfl rfl
  have haborted := htold (.set ⟨["x"]⟩ (.str "v")) 9 _ _ rfl rfl
  refine ⟨_, _, hhistory, rfl, hrefused, haborted, rfl, ?_⟩
  rcases haborted.told with ⟨h, -⟩ | ⟨-, h⟩
  · cases h rfl
  · exact h

/-- A rejected write that is handed on ends the render with an error that claims to be recoverable.
-/
theorem badWrite_recoverable : ∃ err, ∃ r : Render TextFilter Collector Unit,
    HostCall.run
        ⟨⟨[.directive "bad" [], .literal "after"]⟩, DirectiveRegistry.empty.register "bad" badWrite,
          FilterRegistry.empty, {}⟩ 9 (.attach {}) (fresh ()) = some (.error err, r) ∧
      ¬(r.status = .failed ↔ err.isRecoverable = false) := by
  refine ⟨_, _, rfl, ?_⟩
  rintro ⟨h, -⟩
  cases h rfl

end StreamingTemplate

import StreamingTemplate.Engine.Drive
import StreamingTemplate.Proofs.Engine.Rested

/-!
# A driver is a host that writes in order

`setEach` is what a host does that takes queued writes one by one and calls `set` with each, until
one returns an error or the render is finished. Over the built-in directives and filters, without
streams and without a timeout, a driver does the same and nothing else (`poll_setEach`), and its
answer is told by the outcome, by the render and by whether a producer is left (`driveResult`).

`Drives` is a queue and a render through any number of drives, with producers that queue and leave
and time that passes in between. What has left the queue has been written, in its order and once,
and the next drive goes on with the rest: `driver_sequential`.
-/

namespace StreamingTemplate

/-- Whether a driver takes writes: not before the render is started, nor after it is finished. -/
def Status.takesWrites : Status → Bool
  | .running | .suspended _ => true
  | .idle | .done | .failed => false

namespace Render

variable {σ κ μ : Type} [FilterStage σ] [OutputSink κ]

/-- Applies writes one by one, up to and with the first that returns an error, or until the render
takes none. Beside the outcome stand the writes that are left. -/
def setEach (setup : Setup σ μ) (fuel : Nat) : List (Path × Value) → Render σ κ μ →
    Option (Except RenderError Unit × List (Path × Value) × Render σ κ μ)
  | [], r => some (.ok (), [], r)
  | (path, value) :: rest, r =>
    if r.status.takesWrites then
      match set setup fuel path value r with
      | none => none
      | some (.error err, r) => some (.error err, rest, r)
      | some (.ok (), r) => setEach setup fuel rest r
    else some (.ok (), (path, value) :: rest, r)

/-- What a driver answers behind the last write: it waits for more only if the render does and a
producer is left. -/
def driveResult (outcome : Except RenderError Unit) (senderOpen : Bool) (r : Render σ κ μ) :
    Drive :=
  match outcome with
  | .error err => .returned (.error err)
  | .ok () => if r.status.takesWrites && senderOpen then .pending else .returned (.ok ())

end Render

open Render

variable {σ κ μ : Type} [FilterStage σ] [OutputSink κ]

/-- The states of a queue and a render that is driven again and again with the same receiver. Beside
them stand the writes that producers have queued since. -/
inductive Drives (setup : Setup σ μ) (inbox₀ : Inbox) (r₀ : Render σ κ μ) :
    List (Path × Value) → Inbox → Render σ κ μ → Prop
  | start : Drives setup inbox₀ r₀ [] inbox₀ r₀
  | send {queued inbox r path value inbox'} (before : Drives setup inbox₀ r₀ queued inbox r)
      (hsend : inbox.send path value = (true, inbox')) :
      Drives setup inbox₀ r₀ (queued ++ [(path, value)]) inbox' r
  | closeSender {queued inbox r} (before : Drives setup inbox₀ r₀ queued inbox r) :
      Drives setup inbox₀ r₀ queued inbox.closeSender r
  | tick {queued inbox r} (before : Drives setup inbox₀ r₀ queued inbox r) (now : Instant) :
      Drives setup inbox₀ r₀ queued inbox { r with clock := now }
  | drive {queued inbox r now fuel d} (before : Drives setup inbox₀ r₀ queued inbox r)
      (hpoll : poll setup now fuel true inbox r = some d) :
      Drives setup inbox₀ r₀ queued d.inbox d.render

/-- One drive with some fuel answers and leaves what writing one by one does. A driver that has not
returned waits on an empty queue, and goes on listening. -/
structure DrivesTo (setup : Setup σ μ) (now : Instant) (fuel : Nat) (inbox : Inbox)
    (r : Render σ κ μ) (outcome : Except RenderError Unit) (left : List (Path × Value))
    (r' : Render σ κ μ) : Prop where
  each : setEach setup fuel inbox.commands r = some (outcome, left, r')
  drive : ∃ listening, poll setup now fuel true inbox r = some
      ⟨driveResult outcome inbox.senderOpen r', listening, { inbox with commands := left }, r'⟩ ∧
    (outcome = .ok () → r'.status.takesWrites = true → listening = inbox.senderOpen)
  dry : outcome = .ok () → r'.status.takesWrites = true → left = []

/-! ## Writes in order

The reference needs no queue but the list of writes. It stops where the render takes no more of
them, and says which are left. -/

section SetEach

variable {setup : Setup σ μ} {start r r' : Render σ κ μ} {fuel fuel' : Nat}
  {commands left : List (Path × Value)} {outcome : Except RenderError Unit}

/-- A render that takes no writes leaves all of them. -/
theorem Render.setEach_of_finished (h : r.status.takesWrites = false) :
    setEach setup fuel commands r = some (.ok (), commands, r) := by
  cases commands with
  | nil => rfl
  | cons command rest =>
    rw [setEach, if_neg]
    simp [h]

/-- More fuel changes nothing. -/
theorem Render.setEach_mono (hle : fuel ≤ fuel')
    (h : setEach setup fuel commands r = some (outcome, left, r')) :
    setEach setup fuel' commands r = some (outcome, left, r') := by
  induction commands generalizing r with
  | nil => exact h
  | cons command rest ih =>
    rw [setEach] at h ⊢
    split at h
    · rename_i htakes
      rw [if_pos htakes]
      split at h
      · cases h
      · rename_i hset
        rw [set_mono hle hset]
        exact h
      · rename_i hset
        rw [set_mono hle hset]
        exact ih h
    · rename_i htakes
      rw [if_neg htakes]
      exact h

/-- Writes that are taken one by one are calls of the host, in their order. -/
theorem History.setEach {record : List (HostCall κ × Except RenderError Unit)}
    (h : History setup start record r)
    (heach : Render.setEach setup fuel commands r = some (outcome, left, r')) :
    ∃ applied : List ((Path × Value) × Except RenderError Unit),
      commands = applied.map Prod.fst ++ left ∧
        History setup start (record ++ applied.map fun a => (.set a.1.1 a.1.2, a.2)) r' := by
  induction commands generalizing r record with
  | nil =>
    cases heach
    exact ⟨[], rfl, by simpa using h⟩
  | cons command rest ih =>
    obtain ⟨path, value⟩ := command
    rw [Render.setEach] at heach
    split at heach
    · split at heach
      · cases heach
      · rename_i err _ hset
        cases heach
        have hcall : HostCall.run setup fuel (.set path value) r = some (.error err, r') := hset
        exact ⟨[((path, value), .error err)], rfl, h.call hcall⟩
      · rename_i r₁ hset
        have hcall : HostCall.run setup fuel (.set path value) r = some (.ok (), r₁) := hset
        obtain ⟨applied, rfl, hlast⟩ := ih (h.call hcall) heach
        refine ⟨((path, value), .ok ()) :: applied, rfl, ?_⟩
        rwa [List.append_assoc] at hlast
    · cases heach
      exact ⟨[], rfl, by simpa using h⟩

end SetEach

/-! ## One drive

A drive asks in each round what to do next (`driveStep`). Without a pipe and without a deadline
that is to take the next write, to wait for one, or to notice that none can come any more; after
that it listens to nobody, and the next round ends it. -/

section Drive

variable {template : Template} {settings : RenderSettings} {r : Render TextFilter κ μ}
  {now : Instant} {listening : Bool} {inbox : Inbox} {setup : Setup TextFilter μ}

theorem Status.finished_or_idle (status : Status) :
    (status.isFinished || status = .idle) = !status.takesWrites := by
  cases status <;> rfl

omit [OutputSink κ] in
/-- A driver returns from a render that takes no writes. -/
theorem driveStep_finished (h : r.status.takesWrites = false) :
    driveStep setup now listening inbox r = (.return, r) := by
  unfold driveStep
  dsimp only
  rw [if_pos]
  rw [Status.finished_or_idle, h]
  rfl

omit [OutputSink κ] in
/-- What a driver does next with a render that waits for a variable and has no timeout. -/
theorem driveStep_waiting (now : Instant) (inbox : Inbox)
    (htakes : r.status.takesWrites = true) (hunpiped : r.status.piping? = none)
    (hdeadline : r.waitDeadline setup.settings = none) :
    driveStep setup now true inbox r =
      match inbox.commands with
      | (path, value) :: rest => (.command path value rest, r)
      | [] => if inbox.senderOpen then (.wait, r) else (.closed, r) := by
  unfold driveStep
  dsimp only
  rw [Status.finished_or_idle, htakes, hunpiped, hdeadline, if_neg (by simp)]
  rcases inbox.commands with _ | ⟨⟨path, value⟩, rest⟩
  · cases inbox.senderOpen <;> rfl
  · rfl

omit [OutputSink κ] in
/-- A driver that listens to nobody any more returns from a render without a pipe. -/
theorem driveStep_deaf (hunpiped : r.status.piping? = none) :
    driveStep setup now false inbox r = (.return, r) := by
  unfold driveStep
  dsimp only
  rw [hunpiped, if_pos]
  simp

theorem DrivesTo.mono {fuel fuel' : Nat} {left : List (Path × Value)} {r' : Render TextFilter κ μ}
    {outcome : Except RenderError Unit} (hle : fuel ≤ fuel')
    (h : DrivesTo setup now fuel inbox r outcome left r') :
    DrivesTo setup now fuel' inbox r outcome left r' where
  each := setEach_mono hle h.each
  drive := by
    obtain ⟨listening, hpoll, hlistening⟩ := h.drive
    exact ⟨listening, poll_mono hle hpoll, hlistening⟩
  dry := h.dry

/-- A finished render is left as it is, with everything that is queued. -/
theorem drivesTo_finished (h : r.status.takesWrites = false) :
    DrivesTo setup now 1 inbox r (.ok ()) inbox.commands r where
  each := setEach_of_finished h
  drive := by
    refine ⟨true, ?_, ?_⟩
    · rw [poll, driveStep_finished h]
      simp [driveResult, h]
    · intro _ htakes
      simp [h] at htakes
  dry _ htakes := by simp [h] at htakes

/-- A driver of a waiting render waits if nothing is queued, but returns once all producers are
gone. -/
theorem drivesTo_dry (htakes : r.status.takesWrites = true) (hunpiped : r.status.piping? = none)
    (hdeadline : r.waitDeadline setup.settings = none) (hempty : inbox.commands = []) :
    DrivesTo setup now 2 inbox r (.ok ()) [] r where
  each := by
    rw [hempty]
    rfl
  drive := by
    have hstep := driveStep_waiting now inbox htakes hunpiped hdeadline
    obtain ⟨commands, senderOpen, receiverOpen⟩ := inbox
    obtain rfl : commands = [] := hempty
    refine ⟨senderOpen, ?_, fun _ _ => rfl⟩
    rw [poll, hstep, driveResult, htakes]
    cases senderOpen with
    | true => rfl
    | false =>
      dsimp only
      rw [if_neg Bool.false_ne_true]
      dsimp only
      rw [poll, driveStep_deaf hunpiped]
      rfl
  dry _ _ := rfl

section Command

variable {fuel : Nat} {path : Path} {value : Value} {rest : List (Path × Value)}
  {r₁ : Render TextFilter κ μ} (hcommands : inbox.commands = (path, value) :: rest)
  (htakes : r.status.takesWrites = true) (hunpiped : r.status.piping? = none)
  (hdeadline : r.waitDeadline setup.settings = none)

include hcommands htakes hunpiped hdeadline

/-- A write that returns an error ends the drive with it. -/
theorem drivesTo_refused {err : RenderError}
    (hset : set setup fuel path value r = some (.error err, r₁)) :
    DrivesTo setup now (fuel + 1) inbox r (.error err) rest r₁ where
  each := by
    rw [hcommands, setEach, if_pos htakes, set_mono (by omega) hset]
  drive := by
    refine ⟨true, ?_, nofun⟩
    rw [poll, driveStep_waiting now inbox htakes hunpiped hdeadline, hcommands]
    dsimp only
    rw [hset]
    rfl
  dry := nofun

/-- Behind a write that went well the drive goes on with the rest. -/
theorem DrivesTo.behind {outcome : Except RenderError Unit} {left : List (Path × Value)}
    {r' : Render TextFilter κ μ} (hset : set setup fuel path value r = some (.ok (), r₁))
    (h : DrivesTo setup now fuel { inbox with commands := rest } r₁ outcome left r') :
    DrivesTo setup now (fuel + 1) inbox r outcome left r' where
  each := by
    rw [hcommands, setEach, if_pos htakes, set_mono (by omega) hset]
    exact setEach_mono (by omega) h.each
  drive := by
    obtain ⟨listening, hpoll, hlistening⟩ := h.drive
    refine ⟨listening, ?_, hlistening⟩
    rw [poll, driveStep_waiting now inbox htakes hunpiped hdeadline, hcommands]
    dsimp only
    rw [hset]
    exact hpoll
  dry := h.dry

end Command

/-- **A drive is a series of writes.** A driver answers, and what it leaves in the queue and of the
render is what writing one by one leaves. -/
theorem drivesTo (template : Template) (hsettings : settings.waitTimeoutMs = none) (now : Instant)
    (hfree : ∀ command ∈ inbox.commands, command.2.streamFree = true) (h : r.Rested) :
    ∃ fuel outcome left r',
      DrivesTo (Setup.builtin template settings) now fuel inbox r outcome left r' ∧ r'.Rested := by
  have hdeadline : ∀ r : Render TextFilter κ μ,
      r.waitDeadline (Setup.builtin template settings : Setup TextFilter μ).settings = none := by
    intro r
    simp [waitDeadline, Setup.builtin, RenderSettings.waitTimeout, hsettings]
  induction hcommands : inbox.commands generalizing inbox r with
  | nil =>
    cases htakes : r.status.takesWrites with
    | false => exact ⟨1, .ok (), inbox.commands, r, drivesTo_finished htakes, h⟩
    | true => exact ⟨2, .ok (), [], r, drivesTo_dry htakes h.unpiped (hdeadline r) hcommands, h⟩
  | cons command rest ih =>
    cases htakes : r.status.takesWrites with
    | false => exact ⟨1, .ok (), inbox.commands, r, drivesTo_finished htakes, h⟩
    | true =>
      obtain ⟨path, value⟩ := command
      rw [hcommands] at hfree
      obtain ⟨hvalue, hrest⟩ := List.forall_mem_cons.mp hfree
      have hreturns : ∃ fuel o, set (Setup.builtin template settings) fuel path value r = some o ∧
          o.2.Rested := set_rests h path hvalue
      -- a write can return an error by being refused or by ending the render, which is all one here
      obtain ⟨fuel, ⟨err | ⟨⟩, r₁⟩, hset, hrested⟩ := hreturns
      · exact ⟨fuel + 1, .error err, rest, r₁,
          drivesTo_refused hcommands htakes h.unpiped (hdeadline r) hset, hrested⟩
      · have hlater : ∃ fuel outcome left r', DrivesTo (Setup.builtin template settings) now fuel
            { inbox with commands := rest } r₁ outcome left r' ∧ r'.Rested := ih hrest hrested rfl
        obtain ⟨fuel', outcome, left, r', hdrive, hlast⟩ := hlater
        refine ⟨max fuel fuel' + 1, outcome, left, r', ?_, hlast⟩
        exact DrivesTo.behind hcommands htakes h.unpiped (hdeadline r)
          (set_mono (Nat.le_max_left _ _) hset) (hdrive.mono (Nat.le_max_right _ _))

end Drive

/-! ## Drives with the same receiver

The queue is an account of what was queued: what was written and what is left make up all of it,
in order (`Drives.applied`). Each drive moves the border between the two. -/

section Receiver

variable {template : Template} {settings : RenderSettings} {memory : μ} {lines : Lines}
  {clock : Instant} {record : List (HostCall κ × Except RenderError Unit)}
  {r₀ r : Render TextFilter κ μ} {inbox₀ inbox : Inbox} {queued : List (Path × Value)}

/-- What has left the queue has been written, in its order and once. -/
theorem Drives.applied (hsettings : settings.waitTimeoutMs = none)
    (hstart : History (Setup.builtin template settings) (fresh memory lines clock) record r₀)
    (hrecord : ∀ entry ∈ record, entry.1.streamFree = true)
    (h : Drives (Setup.builtin template settings) inbox₀ r₀ queued inbox r)
    (hfree : ∀ command ∈ inbox₀.commands ++ queued, command.2.streamFree = true) :
    ∃ applied : List ((Path × Value) × Except RenderError Unit),
      inbox₀.commands ++ queued = applied.map Prod.fst ++ inbox.commands ∧
        History (Setup.builtin template settings) (fresh memory lines clock)
          (record ++ applied.map fun a => (.set a.1.1 a.1.2, a.2)) r ∧ r.Rested := by
  induction h with
  | start => exact ⟨[], by simp, by simpa using hstart, hstart.rested hrecord⟩
  | send before hsend ih =>
    rename_i queued inbox r path value inbox'
    rw [← List.append_assoc] at hfree
    obtain ⟨applied, hqueue, hhistory, hrested⟩ :=
      ih fun command hmem => hfree command (List.mem_append_left _ hmem)
    refine ⟨applied, ?_, hhistory, hrested⟩
    rw [Inbox.send] at hsend
    split at hsend
    · cases hsend
      rw [← List.append_assoc, hqueue, List.append_assoc]
    · cases hsend
  | closeSender before ih => exact ih hfree
  | tick before now ih =>
    obtain ⟨applied, hqueue, hhistory, hrested⟩ := ih hfree
    exact ⟨applied, hqueue, hhistory.outside (.tick now), ⟨hrested.vars, hrested.pipe⟩,
      hrested.settled, hrested.unpiped⟩
  | drive before hpoll ih =>
    rename_i queued inbox r now fuel d
    obtain ⟨applied, hqueue, hhistory, hrested⟩ := ih hfree
    rw [hqueue] at hfree
    obtain ⟨fuel', outcome, left, r', hdrive, hlast⟩ := drivesTo template hsettings now
      (fun command hmem => hfree command (List.mem_append_right _ hmem)) hrested
    obtain ⟨listening, hpoll', -⟩ := hdrive.drive
    -- the drive that was made and the one that is known to answer are the same, given fuel for both
    obtain rfl := Option.some.inj ((poll_mono (Nat.le_max_left fuel fuel') hpoll).symm.trans
      (poll_mono (Nat.le_max_right fuel fuel') hpoll'))
    obtain ⟨later, hlater, hhistory'⟩ := hhistory.setEach hdrive.each
    refine ⟨applied ++ later, ?_, ?_, hlast⟩
    · rw [hqueue, hlater, List.map_append, List.append_assoc]
    · rwa [List.map_append, ← List.append_assoc]

/-- **The driver is the host that writes in order.** Of every render over the built-in directives
and filters that has been given no stream and has no timeout, whatever was called before, and every
queue of writes, however often it was driven since: what has left the queue has been written by
calls of `set`, once and in the order of arrival. The next drive returns or waits, and answers and
leaves what writing the rest one by one does, up to and with the first write that returns an error
or finishes the render. A render that takes no writes keeps the whole queue. If the queue runs dry,
the render waits for a variable, and the driver waits while a producer is left and returns
otherwise. -/
theorem driver_sequential (hsettings : settings.waitTimeoutMs = none)
    (hstart : History (Setup.builtin template settings) (fresh memory lines clock) record r₀)
    (hrecord : ∀ entry ∈ record, entry.1.streamFree = true)
    (h : Drives (Setup.builtin template settings) inbox₀ r₀ queued inbox r)
    (hfree : ∀ command ∈ inbox₀.commands ++ queued, command.2.streamFree = true) (now : Instant) :
    (∃ applied : List ((Path × Value) × Except RenderError Unit),
      inbox₀.commands ++ queued = applied.map Prod.fst ++ inbox.commands ∧
        History (Setup.builtin template settings) (fresh memory lines clock)
          (record ++ applied.map fun a => (.set a.1.1 a.1.2, a.2)) r) ∧
    ∃ enough outcome left r',
      (∀ fuel ≥ enough,
        DrivesTo (Setup.builtin template settings) now fuel inbox r outcome left r') ∧
      (r.status.takesWrites = false → outcome = .ok () ∧ left = inbox.commands ∧ r' = r) ∧
      (outcome = .ok () → r'.status.takesWrites = true →
        left = [] ∧ ∃ path index since, r'.status = .suspended (.variable path index since)) := by
  obtain ⟨applied, hqueue, hhistory, hrested⟩ := h.applied hsettings hstart hrecord hfree
  have hleft : ∀ command ∈ inbox.commands, command.2.streamFree = true := by
    intro command hmem
    refine hfree command ?_
    rw [hqueue]
    exact List.mem_append_right _ hmem
  obtain ⟨enough, outcome, left, r', hdrive, hlast⟩ :=
    drivesTo template hsettings now hleft hrested
  refine ⟨⟨applied, hqueue, hhistory⟩, enough, outcome, left, r', fun fuel hle => hdrive.mono hle,
    ?_, ?_⟩
  · intro hfinished
    obtain ⟨rfl, rfl, rfl⟩ : outcome = .ok () ∧ left = inbox.commands ∧ r' = r := by
      have heach := hdrive.each
      rw [setEach_of_finished hfinished] at heach
      cases heach
      exact ⟨rfl, rfl, rfl⟩
    exact ⟨rfl, rfl, rfl⟩
  · intro hok htakes
    have hlive : r'.status.isFinished = false ∧ r'.status ≠ .idle := by
      have := Status.finished_or_idle r'.status
      rw [htakes] at this
      simpa using this
    exact ⟨hdrive.dry hok htakes, hlast.waits hlive.1 hlive.2⟩

end Receiver

/-- A template that shows two variables. -/
def twoVariables : Setup TextFilter Unit :=
  Setup.builtin ⟨[.directive "var" [.path ⟨["x"]⟩], .directive "var" [.path ⟨["y"]⟩]]⟩

/-- A render of it that waits for the first one. -/
def waitingForX : Render TextFilter Collector Unit where
  store := { parked := [("x", .engine)] }
  cursor := 1
  sink := some {}
  status := .suspended (.variable ⟨["x"]⟩ 0 0)
  lines := { handles := { nextChain := 1 } }
  memory := ()

/-- A write that is rejected, the two variables, and a write too many. -/
def fourWrites : List (Path × Value) :=
  [(⟨["a", "b"]⟩, .null), (⟨["x"]⟩, .str "v"), (⟨["y"]⟩, .str "w"), (⟨["z"]⟩, .null)]

/-- Two of the writes are queued, and two more come later. The first drive ends with the error of
the first write. The next one goes on with the second write, and leaves the last one, which comes
behind the end of the render. -/
theorem driver_sequential_rejected :
    History twoVariables (fresh ()) [(.attach {}, .ok ())] waitingForX ∧
    Drives twoVariables ⟨fourWrites.take 2, true, true⟩ waitingForX (fourWrites.drop 2)
      ⟨fourWrites.drop 1, true, true⟩ waitingForX ∧
    ∃ fuel r', DrivesTo twoVariables 0 fuel ⟨fourWrites.drop 1, true, true⟩ waitingForX
      (.ok ()) (fourWrites.drop 3) r' ∧ r'.status = .done := by
  have hattach : HostCall.run twoVariables 9 (.attach {}) (fresh ()) =
      some (.ok (), waitingForX) := rfl
  have hhistory := History.start.call hattach
  have hsend : Drives twoVariables ⟨fourWrites.take 2, true, true⟩ waitingForX (fourWrites.drop 2)
      ⟨fourWrites, true, true⟩ waitingForX := (Drives.start.send rfl).send rfl
  have hpoll : poll twoVariables 0 2 true ⟨fourWrites, true, true⟩ waitingForX =
      some ⟨.returned (.error (.malformedPath ⟨["a", "b"]⟩ (.unset "a"))), true,
        ⟨fourWrites.drop 1, true, true⟩, waitingForX⟩ := rfl
  have hdrives := hsend.drive hpoll
  obtain ⟨-, enough, outcome, left, r', hdrive, -, -⟩ :=
    driver_sequential rfl hhistory (by simp [HostCall.streamFree]) hdrives
      (by simp [fourWrites, Value.streamFree]) 0
  have heach : setEach twoVariables 20 (fourWrites.drop 1) waitingForX =
      some (.ok (), fourWrites.drop 3, _) := rfl
  have hlast := hdrive (max enough 20) (Nat.le_max_left _ _)
  have hsame := hlast.each.symm.trans (setEach_mono (Nat.le_max_right enough 20) heach)
  cases hsame
  exact ⟨hhistory, hdrives, _, _, hlast, rfl⟩

end StreamingTemplate

import StreamingTemplate.CommandLine.Session
import StreamingTemplate.Proofs.Engine.Driving
import StreamingTemplate.Proofs.Engine.SinkProtocol

/-!
# The delays of a script do not matter

The program plays a script to a driver that waits, resumes and may be through before the script is.
What comes of it is what a host gets that attaches a sink and then writes the steps in their order:
it depends on the order of the steps, and not on when they are played or which of them are there
together.

That host is `writeInOrder`. It knows nothing of queues, moments and drivers, and tells by itself
what has come of it: the first error of the attach or of a write ends it, a render that is done ends
it well, and if there is nothing left to write before that, the render did not finish.

* `Answers` — with enough fuel an operation comes to an answer;
* `setEach_stops`, `setEach_goesOn` — writing in order, in two parts;
* `answers_poll`, `answers_moment` — one poll, and one moment of a script, are such a part;
* `answers_play` — and so are moments one after the other, by induction over them: behind each the
  render still waits, or what is left of the script changes nothing any more;
* `GoesWell.setInOrder` — the verdict of the program on such writes is what the host says, because a
  render that was started and has met no error waits or is done.

`queued_timeline` says when a step is queued.
-/

namespace StreamingTemplate

/-- With enough fuel an operation comes to an answer. -/
def Answers {α : Type} (op : Nat → Option α) (a : α) : Prop :=
  ∃ enough, ∀ fuel ≥ enough, op fuel = some a

namespace Answers

variable {α β : Type} {op : Nat → Option α} {a : α}

/-- Operations one after the other come to an answer if each does, with the larger of their
fuels. -/
theorem bind {next : α → Nat → Option β} {b : β} (h : Answers op a) (hnext : Answers (next a) b) :
    Answers (fun fuel => (op fuel).bind fun a => next a fuel) b := by
  obtain ⟨enough, hop⟩ := h
  obtain ⟨enough', hnext⟩ := hnext
  refine ⟨max enough enough', fun fuel hfuel => ?_⟩
  dsimp only
  rw [hop fuel (Nat.le_trans (Nat.le_max_left _ _) hfuel), Option.bind_some]
  exact hnext fuel (Nat.le_trans (Nat.le_max_right _ _) hfuel)

theorem map (f : α → β) (h : Answers op a) : Answers (fun fuel => (op fuel).map f) (f a) := by
  obtain ⟨enough, hop⟩ := h
  exact ⟨enough, fun fuel hfuel => congrArg (Option.map f) (hop fuel hfuel)⟩

/-- An operation that more fuel does not change comes to what it answers with some fuel. -/
theorem of_mono {fuel : Nat}
    (hmono : ∀ {fuel fuel' a}, fuel ≤ fuel' → op fuel = some a → op fuel' = some a)
    (h : op fuel = some a) : Answers op a :=
  ⟨fuel, fun _ hle => hmono hle h⟩

/-- An operation comes to one answer: both are what it says with the larger of the two fuels. -/
theorem unique {a' : α} (h : Answers op a) (h' : Answers op a') : a = a' := by
  obtain ⟨enough, hop⟩ := h
  obtain ⟨enough', hop'⟩ := h'
  exact Option.some.inj ((hop _ (Nat.le_max_left enough enough')).symm.trans
    (hop' _ (Nat.le_max_right enough enough')))

end Answers

/-! ## Values of a script

A script is written in JSON, so no value that it writes has a stream in it. Renders of the
program are therefore plain ones, for which every call returns. -/

namespace Value

/-- An object that is built by insertions holds no stream if no field does. -/
theorem streamFree_ofList {fields : List (String × Value)} (h : streamFreeFields fields = true) :
    streamFreeFields (Fields.ofList fields) = true := by
  have hfold : ∀ start, streamFreeFields start = true →
      streamFreeFields (fields.foldl (fun acc f => Fields.insert f.1 f.2 acc) start) = true := by
    induction fields with
    | nil => exact fun start hstart => hstart
    | cons field rest ih =>
      rw [streamFreeFields, Bool.and_eq_true] at h
      exact fun start hstart => ih h.2 _ (streamFreeFields_insert h.1 hstart)
  exact hfold [] rfl

mutual

/-- The value of a JSON value has no stream in it. -/
theorem streamFree_ofJson : ∀ v : Json, (ofJson v).streamFree = true
  | .null | .bool _ | .number _ | .string _ => rfl
  | .array items => streamFree_itemsOfJson 0 items
  | .object fields => streamFree_ofList (streamFree_fieldsOfJson fields)

theorem streamFree_itemsOfJson (position : Nat) :
    ∀ items : List Json, streamFreeFields (itemsOfJson position items) = true
  | [] => rfl
  | v :: rest => by
    rw [itemsOfJson, streamFreeFields, streamFree_ofJson v, streamFree_itemsOfJson _ rest]
    rfl

theorem streamFree_fieldsOfJson :
    ∀ fields : List (String × Json), streamFreeFields (fieldsOfJson fields) = true
  | [] => rfl
  | (k, v) :: rest => by
    rw [fieldsOfJson, streamFreeFields, streamFree_ofJson v, streamFree_fieldsOfJson rest]
    rfl

end

end Value

/-! ## Writing in two parts

A poll writes what is queued at its time, and the rest of the script comes in later polls.
`setEach` on a list in two parts says how these add up, by where the first part has stopped. -/

namespace Render

variable {σ κ μ : Type} [FilterStage σ] [OutputSink κ] {setup : Setup σ μ} {fuel : Nat}
  {first left : List (Path × Value)} {outcome : Except RenderError Unit} {r r' : Render σ κ μ}

/-- Where the first part stops, nothing more is written. By induction over the writes of the
first part: the one that stops it is there, and what is left is followed by the second part. -/
theorem setEach_stops (h : setEach setup fuel first r = some (outcome, left, r'))
    (hstops : outcome = .ok () → r'.status.takesWrites = false) (second : List (Path × Value)) :
    setEach setup fuel (first ++ second) r = some (outcome, left ++ second, r') := by
  induction first generalizing r with
  | nil =>
    cases h
    exact setEach_of_finished (hstops rfl)
  | cons command rest ih =>
    rw [List.cons_append, setEach]
    rw [setEach] at h
    split at h
    · rename_i htakes
      rw [if_pos htakes]
      split at h
      · cases h
      · cases h
        rfl
      · exact ih h
    · rename_i htakes
      rw [if_neg htakes]
      cases h
      rfl

/-- Behind a first part that went well the second is written, if the render still takes writes. -/
theorem setEach_goesOn (h : setEach setup fuel first r = some (.ok (), left, r'))
    (htakes : r'.status.takesWrites = true) (second : List (Path × Value)) :
    setEach setup fuel (first ++ second) r = setEach setup fuel second r' := by
  induction first generalizing r with
  | nil =>
    cases h
    rfl
  | cons command rest ih =>
    rw [List.cons_append, setEach]
    rw [setEach] at h
    split at h
    · rename_i htaking
      rw [if_pos htaking]
      split at h
      · cases h
      · cases h
      · exact ih h
    · rename_i hfinished
      cases h
      exact absurd htakes hfinished

end Render

open Render

namespace CommandLine

/-! ## The host that writes in order

The reference. It attaches a sink to a new render, writes step after step, and says at the end
what has come of it, without any of the notions of the program: no queue, no time, no verdict.
What it has to be compared with is the verdict that the program gives, so the lemmas follow the
render through the writes and show that both stop at the same one (`GoesWell.setInOrder`). -/

/-- What becomes of a render that is written to step by step. The first error ends it, and so does
the last instruction; a render that is not done behind the last write did not finish. -/
def setInOrder (setup : Setup TextFilter Unit) (fuel : Nat) :
    List (Path × Value) → Session → Option (Except RunError Unit × Session)
  | [], session => some (if session.status = .done then .ok () else .error .unfinished, session)
  | (path, value) :: rest, session =>
    if session.status = .done then some (.ok (), session)
    else match session.set setup fuel path value with
      | none => none
      | some (.error err, session) => some (.error (.render err), session)
      | some (.ok (), session) => setInOrder setup fuel rest session

/-- What becomes of a template, with the built-in directives and filters, when a sink that never
fails is attached to a new render of it and writes are made step by step. -/
def writeInOrder (template : Template) (settings : RenderSettings) (writes : List (Path × Value))
    (fuel : Nat) : Option (Except RunError Unit × Session) :=
  let start : Session := fresh () {} 1
  (start.attach (.builtin template settings) fuel
    { flushEachChunk := settings.flushEachChunk }).bind fun
    | (.error err, session) => some (.error (.render err), session)
    | (.ok (), session) => setInOrder (.builtin template settings) fuel writes session

section InOrder

variable {setup : Setup TextFilter Unit} {template : Template} {settings : RenderSettings}
  {fuel fuel' : Nat} {writes : List (Path × Value)} {session session' : Session}
  {ending : Except RunError Unit × Session}

/-- The host that writes in order says the same with more fuel, -/
theorem setInOrder_mono (hle : fuel ≤ fuel')
    (h : setInOrder setup fuel writes session = some ending) :
    setInOrder setup fuel' writes session = some ending := by
  induction writes generalizing session with
  | nil => exact h
  | cons write rest ih =>
    rw [setInOrder] at h ⊢
    split at h
    · rename_i hdone
      rwa [if_pos hdone]
    · rename_i hgoes
      rw [if_neg hgoes]
      split at h
      · cases h
      · rename_i hset
        rw [set_mono hle hset]
        exact h
      · rename_i hset
        rw [set_mono hle hset]
        exact ih h

/-- also if attaching the sink is counted in. -/
theorem writeInOrder_mono (hle : fuel ≤ fuel')
    (h : writeInOrder template settings writes fuel = some ending) :
    writeInOrder template settings writes fuel' = some ending := by
  obtain ⟨⟨attached, session⟩, hattach, h⟩ := Option.bind_eq_some_iff.mp h
  have hcall : HostCall.run (.builtin template settings) fuel (.attach _) _ = _ := hattach
  refine Option.bind_eq_some_iff.mpr ⟨(attached, session), ?_, ?_⟩
  · exact HostCall.run_mono hle hcall
  · cases attached with
    | error err => exact h
    | ok => exact setInOrder_mono hle h

/-- A host has attached a sink and written, and all of it has gone well. -/
def GoesWell (template : Template) (settings : RenderSettings) (session : Session) : Prop :=
  ∃ record first, History (.builtin template settings) (fresh () {} 1) record session ∧
    (∀ entry ∈ record, entry.1.proceeds = true ∧ entry.2 = .ok ()) ∧
    firstSink? (record.map (·.1)) = some first

/-- Behind calls that went well, and one that may have gone wrong, there is a sink. -/
theorem goesWell_call {record : List (HostCall WriterSink × Except RenderError Unit)}
    {first : WriterSink} (h : History (.builtin template settings) (fresh () {} 1) record session)
    (hrecord : ∀ entry ∈ record, entry.1.proceeds = true ∧ entry.2 = .ok ())
    {call : HostCall WriterSink} (hproceeds : call.proceeds = true)
    (hfirst : (firstSink? (record.map (·.1))).or call.attached? = some first)
    {outcome : Except RenderError Unit}
    (hcall : call.run (.builtin template settings) fuel session = some (outcome, session')) :
    (∃ sink, session'.sink = some sink) ∧
      (outcome = .ok () → GoesWell template settings session') := by
  have hlast := h.call hcall
  have hfirst : firstSink? ((record ++ [(call, outcome)]).map (·.1)) = some first := by
    rwa [List.map_append, List.map_singleton, firstSink?_append]
  refine ⟨(hlast.attached builtins_handRefusalsOn ?_ hfirst).1, ?_⟩
  · simp only [List.forall_mem_append, List.forall_mem_singleton]
    exact ⟨fun entry hentry => (hrecord entry hentry).1, hproceeds⟩
  · rintro rfl
    refine ⟨_, first, hlast, ?_, hfirst⟩
    simp only [List.forall_mem_append, List.forall_mem_singleton]
    exact ⟨hrecord, hproceeds, trivial⟩

/-- Attaching a sink to a new render is such a call. -/
theorem goesWell_attach {sink : WriterSink} {outcome : Except RenderError Unit}
    (h : attach (.builtin template settings) fuel sink (fresh () {} 1) = some (outcome, session)) :
    (∃ sink, session.sink = some sink) ∧
      (outcome = .ok () → GoesWell template settings session) := by
  have hcall : HostCall.run (.builtin template settings) fuel (.attach sink) _ = _ := h
  exact goesWell_call .start nofun rfl rfl hcall

namespace GoesWell

theorem set (h : GoesWell template settings session) {path : Path} {value : Value}
    {outcome : Except RenderError Unit}
    (hset : session.set (.builtin template settings) fuel path value = some (outcome, session')) :
    (∃ sink, session'.sink = some sink) ∧
      (outcome = .ok () → GoesWell template settings session') := by
  obtain ⟨record, first, hhistory, hrecord, hfirst⟩ := h
  have hcall : HostCall.run (.builtin template settings) fuel (.set path value) _ = _ := hset
  exact goesWell_call hhistory hrecord rfl (by rw [hfirst]; rfl) hcall

/-- A render that was started and has met no error has a sink, and takes writes or is done. -/
theorem stands (h : GoesWell template settings session) :
    (∃ sink, session.sink = some sink) ∧
      (session.status.takesWrites = true ∨ session.status = .done) := by
  obtain ⟨record, first, hhistory, hrecord, hfirst⟩ := h
  obtain ⟨hsink, hstatus⟩ := hhistory.attached builtins_handRefusalsOn
    (fun entry hentry => (hrecord entry hentry).1) hfirst
  refine ⟨hsink, (hstatus fun entry hentry => (hrecord entry hentry).2).imp_left fun h => ?_⟩
  cases hlive : session.status <;> rw [hlive] at h <;> first | rfl | cases h

/-- **The verdict of the program** on writes that are made in order is what the host says that makes
them. The two stop at the same write: the program as soon as the render takes none any more, the
host as soon as it is done. -/
theorem setInOrder (h : GoesWell template settings session) {outcome : Except RenderError Unit}
    {left : List (Path × Value)}
    (heach : session.setEach (.builtin template settings) fuel writes =
      some (outcome, left, session')) :
    setInOrder (.builtin template settings) fuel writes session =
        some (verdict outcome session', session') ∧
      ∃ sink, session'.sink = some sink := by
  induction writes generalizing session with
  | nil =>
    cases heach
    exact ⟨rfl, h.stands.1⟩
  | cons write rest ih =>
    obtain ⟨path, value⟩ := write
    obtain ⟨hsink, htakes | hdone⟩ := h.stands
    · have hgoes : session.status ≠ .done := by
        intro hdone
        simp [hdone, Status.takesWrites] at htakes
      rw [CommandLine.setInOrder, if_neg hgoes]
      rw [setEach, if_pos htakes] at heach
      split at heach
      · cases heach
      · rename_i hset
        cases heach
        rw [hset]
        exact ⟨rfl, (h.set hset).1⟩
      · rename_i hset
        rw [hset]
        exact ih ((h.set hset).2 rfl) heach
    · rw [setEach_of_finished (by rw [hdone]; rfl)] at heach
      cases heach
      rw [CommandLine.setInOrder, if_pos hdone, verdict, if_pos hdone]
      exact ⟨rfl, hsink⟩

theorem answers (h : GoesWell template settings session) {outcome : Except RenderError Unit}
    {left : List (Path × Value)}
    (heach : Answers (session.setEach (.builtin template settings) · writes)
      (outcome, left, session')) :
    Answers (CommandLine.setInOrder (.builtin template settings) · writes session)
        (verdict outcome session', session') ∧
      ∃ sink, session'.sink = some sink := by
  obtain ⟨enough, heach⟩ := heach
  exact ⟨⟨enough, fun fuel hfuel => (h.setInOrder (heach fuel hfuel)).1⟩,
    (h.setInOrder (heach enough (Nat.le_refl _))).2⟩

end GoesWell

end InOrder

/-! ## One poll and one moment

The queue of a poll is written as far as the render takes writes, and this is `setEach` on the
queue. What the driver returns then is looked at as the program does it (`Progress.behind`): the
run has ended, or the render waits for what the script still brings. -/

/-- The writes of a script, in their order. -/
def Job.writes (job : Job) : List (Path × Value) :=
  job.script.map fun step => (step.path, Value.ofJson step.value)

theorem Job.streamFree_writes (job : Job) : ∀ write ∈ job.writes, write.2.streamFree = true := by
  intro write hwrite
  obtain ⟨step, -, rfl⟩ := List.mem_map.mp hwrite
  exact Value.streamFree_ofJson step.value

/-- The progress behind some writes. -/
def Progress.behind (outcome : Except RenderError Unit) (senderOpen : Bool) (session : Session) :
    Progress :=
  match driveResult outcome senderOpen session with
  | .pending => .waiting session
  | .returned outcome => .ended (verdict outcome session) session

/-- Behind the last moment nothing is waited for, so the run has ended. -/
theorem Progress.behind_closed (outcome : Except RenderError Unit) (session : Session) :
    Progress.behind outcome false session = .ended (verdict outcome session) session := by
  cases outcome with
  | error err => rfl
  | ok => simp [Progress.behind, driveResult]

/-- It has ended too if the render takes no more writes, -/
theorem Progress.behind_stopped {outcome : Except RenderError Unit} {session : Session}
    (h : outcome = .ok () → session.status.takesWrites = false) (senderOpen : Bool) :
    Progress.behind outcome senderOpen session = .ended (verdict outcome session) session := by
  cases outcome with
  | error err => rfl
  | ok => simp [Progress.behind, driveResult, h rfl]

/-- and goes on if it does and more may come. -/
theorem Progress.behind_waiting {session : Session} (h : session.status.takesWrites = true) :
    Progress.behind (.ok ()) true session = .waiting session := by
  simp [Progress.behind, driveResult, h]

section Playing

variable {job : Job} {session session' : Session} {outcome : Except RenderError Unit}
  {left : List (Path × Value)}

/-- Writing nothing changes nothing. -/
theorem answers_nothing (session : Session) :
    Answers (session.setEach job.setup · []) (.ok (), [], session) :=
  ⟨0, fun _ _ => rfl⟩

/-- Writes in order come to an answer. -/
theorem answers_setEach (htimeout : job.settings.render.waitTimeoutMs = none)
    (hrested : session.Rested) {writes : List (Path × Value)}
    (hfree : ∀ write ∈ writes, write.2.streamFree = true) :
    ∃ outcome left session',
      Answers (session.setEach job.setup · writes) (outcome, left, session') := by
  obtain ⟨enough, outcome, left, session', hdrive, -⟩ :=
    drivesTo job.template htimeout 0
      (show ∀ write ∈ ({ commands := writes } : Inbox).commands, _ from hfree) hrested
  exact ⟨outcome, left, session', enough, fun fuel hfuel => (hdrive.mono hfuel).each⟩

/-- **A poll** writes what is queued, in order. -/
theorem answers_poll (htimeout : job.settings.render.waitTimeoutMs = none)
    (hrested : session.Rested) (inbox : Inbox)
    (hfree : ∀ write ∈ inbox.commands, write.2.streamFree = true)
    (heach : Answers (session.setEach job.setup · inbox.commands) (outcome, left, session'))
    (time : Nat) :
    Answers (job.poll · time inbox session)
        (Progress.behind outcome inbox.senderOpen session') ∧ session'.Rested := by
  obtain ⟨enough, outcome', left', session'', hdrive, hlast⟩ :=
    drivesTo job.template htimeout (time * 1000000 : Nat) hfree hrested
  have hsame := heach.unique ⟨enough, fun fuel hfuel => (hdrive.mono hfuel).each⟩
  cases hsame
  refine ⟨⟨enough, fun fuel hfuel => ?_⟩, hlast⟩
  obtain ⟨listening, hpoll, -⟩ := (hdrive.mono hfuel).drive
  have hpoll : session.poll job.setup (time * 1000000 : Nat) fuel true inbox = _ := hpoll
  change job.poll fuel time inbox session = _
  rw [Job.poll, hpoll]
  rfl

/-- **A moment** of a script writes what it brings, in order. -/
theorem answers_moment (htimeout : job.settings.render.waitTimeoutMs = none)
    (hrested : session.Rested) (htakes : session.status.takesWrites = true) (m : Moment)
    (last : Bool) (hfree : ∀ write ∈ m.writes, write.2.streamFree = true)
    (heach : Answers (session.setEach job.setup · m.writes) (outcome, left, session')) :
    Answers (job.moment · m last (.waiting session)) (Progress.behind outcome (!last) session') ∧
      session'.Rested := by
  have hpassed := (answers_poll htimeout hrested {} nofun (answers_nothing session) m.time).1
  rw [Progress.behind_waiting htakes] at hpassed
  obtain ⟨hwritten, hlast⟩ := answers_poll htimeout hrested
    { commands := m.writes, senderOpen := !last } hfree heach m.time
  exact ⟨hpassed.bind hwritten, hlast⟩

/-- A run that has ended is not changed by the moments that are left. -/
theorem play_ended (fuel : Nat) (moments : List Moment) (result : Except RunError Unit) :
    job.play fuel moments (.ended result session) = some (.ended result session) := by
  induction moments with
  | nil => rfl
  | cons m rest ih =>
    cases rest with
    | nil => rfl
    | cons next rest => exact ih

/-- Where a first part goes well, the second comes to what both of them come to. -/
theorem answers_goesOn {first second : List (Path × Value)} {session₁ : Session}
    {left₁ : List (Path × Value)}
    (hfirst : Answers (session.setEach job.setup · first) (.ok (), left₁, session₁))
    (htakes : session₁.status.takesWrites = true)
    (heach : Answers (session.setEach job.setup · (first ++ second)) (outcome, left, session')) :
    Answers (session₁.setEach job.setup · second) (outcome, left, session') := by
  obtain ⟨enough₁, hfuel₁⟩ := hfirst
  obtain ⟨enough, hfuel⟩ := heach
  refine ⟨max enough enough₁, fun fuel hle => ?_⟩
  have hfirst := hfuel₁ fuel (Nat.le_trans (Nat.le_max_right _ _) hle)
  have heach := hfuel fuel (Nat.le_trans (Nat.le_max_left _ _) hle)
  exact (setEach_goesOn hfirst htakes second).symm.trans heach

/-- Where it stops, both of them come to what it comes to. -/
theorem answers_stops {first : List (Path × Value)}
    (hfirst : Answers (session.setEach job.setup · first) (outcome, left, session'))
    (hstops : outcome = .ok () → session'.status.takesWrites = false)
    (second : List (Path × Value)) :
    Answers (session.setEach job.setup · (first ++ second))
      (outcome, left ++ second, session') := by
  obtain ⟨enough, hfuel⟩ := hfirst
  exact ⟨enough, fun fuel hle => setEach_stops (hfuel fuel hle) hstops second⟩

/-- **A script** that is played to a waiting render comes to what writing its steps in order comes
to, whatever comes when and together. -/
theorem answers_play (htimeout : job.settings.render.waitTimeoutMs = none) {moments : List Moment}
    (hrested : session.Rested) (htakes : session.status.takesWrites = true)
    (hfree : ∀ write ∈ moments.flatMap Moment.writes, write.2.streamFree = true)
    (heach : Answers (session.setEach job.setup · (moments.flatMap Moment.writes))
      (outcome, left, session')) :
    Answers (job.play · moments (.waiting session))
      (.ended (verdict outcome session') session') := by
  induction moments generalizing session with
  | nil =>
    obtain ⟨rfl, rfl, rfl⟩ : outcome = .ok () ∧ left = [] ∧ session' = session := by
      cases heach.unique (answers_nothing session)
      exact ⟨rfl, rfl, rfl⟩
    have hpoll := (answers_poll htimeout hrested { senderOpen := false } nofun heach 0).1
    rwa [Progress.behind_closed] at hpoll
  | cons m rest ih =>
    rw [List.flatMap_cons] at hfree heach
    have hfirst : ∀ write ∈ m.writes, write.2.streamFree = true :=
      fun write hwrite => hfree write (List.mem_append_left _ hwrite)
    obtain ⟨outcome₁, left₁, session₁, heach₁⟩ := answers_setEach htimeout hrested hfirst
    obtain ⟨hmoment, hrested₁⟩ :=
      answers_moment htimeout hrested htakes m rest.isEmpty hfirst heach₁
    by_cases hgoesOn : outcome₁ = .ok () ∧ session₁.status.takesWrites = true
    · -- the render still waits, and the rest of the script is played to it
      obtain ⟨rfl, htakes₁⟩ := hgoesOn
      have hrest := answers_goesOn heach₁ htakes₁ heach
      have hplay := ih hrested₁ htakes₁
        (fun write hwrite => hfree write (List.mem_append_right _ hwrite)) hrest
      cases rest with
      | nil =>
        cases hrest.unique (answers_nothing session₁)
        rwa [List.isEmpty_nil, Bool.not_true, Progress.behind_closed] at hmoment
      | cons next rest =>
        rw [List.isEmpty_cons, Bool.not_false, Progress.behind_waiting htakes₁] at hmoment
        exact hmoment.bind hplay
    · -- nothing more is written
      have hstops : outcome₁ = .ok () → session₁.status.takesWrites = false := by
        intro hok
        simpa [hok] using hgoesOn
      cases heach.unique (answers_stops heach₁ hstops _)
      rw [Progress.behind_stopped hstops] at hmoment
      cases rest with
      | nil => exact hmoment
      | cons next rest =>
        exact hmoment.bind ⟨0, fun fuel _ => play_ended fuel (next :: rest) _⟩

/-- **A run.** However the writes of a script are spread over moments, the run comes to what writing
them in order comes to. -/
theorem answers_moments (htimeout : job.settings.render.waitTimeoutMs = none) :
    ∃ result session sink,
      Answers (writeInOrder job.template job.settings.render job.writes) (result, session) ∧
      session.sink = some sink ∧
      ∀ moments : List Moment, moments.flatMap Moment.writes = job.writes →
        Answers (fun fuel => (job.start fuel).bind (job.play fuel moments))
          (.ended result session) := by
  have hidle : job.session.Rested := ⟨⟨rfl, rfl⟩, nofun, rfl⟩
  obtain ⟨enough, ⟨attached, session⟩, hattach, hrested⟩ :
      ∃ fuel o, (HostCall.attach job.sink).run job.setup fuel job.session = some o ∧ o.2.Rested :=
    HostCall.rests rfl hidle
  obtain ⟨hsink, hgoesWell⟩ := goesWell_attach hattach
  have hattach : Answers (job.session.attach job.setup · job.sink) (attached, session) :=
    ⟨enough, fun fuel hfuel => HostCall.run_mono hfuel hattach⟩
  rcases attached with err | ⟨⟩
  · obtain ⟨sink, hsink⟩ := hsink
    have hfailed : Answers job.start (.ended (.error (.render err)) session) :=
      hattach.bind ⟨0, fun _ _ => rfl⟩
    exact ⟨_, _, sink, hattach.bind ⟨0, fun _ _ => rfl⟩, hsink,
      fun moments _ => hfailed.bind ⟨0, fun fuel _ => play_ended fuel moments _⟩⟩
  · have hstart : Answers job.start (Progress.behind (.ok ()) true session) :=
      hattach.bind (answers_poll htimeout hrested {} nofun (answers_nothing session) 0).1
    obtain ⟨outcome, left, session', heach⟩ :=
      answers_setEach htimeout hrested job.streamFree_writes
    obtain ⟨hinOrder, sink, hsink⟩ := (hgoesWell rfl).answers heach
    refine ⟨verdict outcome session', session', sink, hattach.bind hinOrder, hsink, ?_⟩
    intro moments hmoments
    cases htakes : session.status.takesWrites with
    | true =>
      rw [Progress.behind_waiting htakes] at hstart
      rw [← hmoments] at heach
      exact hstart.bind
        (answers_play htimeout hrested htakes (hmoments ▸ job.streamFree_writes) heach)
    | false =>
      -- the render is finished, and takes nothing of the script
      rw [Progress.behind_stopped fun _ => htakes] at hstart
      cases heach.unique ⟨0, fun fuel _ => setEach_of_finished htakes⟩
      exact hstart.bind ⟨0, fun fuel _ => play_ended fuel moments _⟩

end Playing

/-! ## When steps are queued

Moments are made of steps that are due at one time. A step is due no earlier than the steps
before it, so its time is the largest delay up to its own (`schedule`), and the order of the
script is kept. -/

/-- The writes of a moment with their time. -/
def Moment.queued (m : Moment) : List (Nat × (Path × Value)) := m.writes.map (m.time, ·)

/-- The writes of steps that happen from a time on, each with the time at which it is queued. -/
def schedule (start : Nat) : List DataStep → List (Nat × (Path × Value))
  | [] => []
  | step :: rest =>
    (max start step.afterMs, (step.path, Value.ofJson step.value)) ::
      schedule (max start step.afterMs) rest

/-- The moments of a script queue what the schedule says, at the times it says. -/
theorem queued_timeline (start : Nat) (script : List DataStep) :
    (timeline start script).flatMap Moment.queued = schedule start script := by
  induction script generalizing start with
  | nil => rfl
  | cons step rest ih =>
    have hrest := ih (max start step.afterMs)
    rw [timeline, schedule, ← hrest]
    rcases timeline (max start step.afterMs) rest with _ | ⟨m, ms⟩
    · rfl
    · by_cases htime : m.time = max start step.afterMs
      · simp [htime, Moment.queued]
      · simp [htime, Moment.queued]

theorem snd_schedule (start : Nat) (script : List DataStep) :
    (schedule start script).map Prod.snd =
      script.map fun step => (step.path, Value.ofJson step.value) := by
  induction script generalizing start with
  | nil => rfl
  | cons step rest ih => exact congrArg (_ :: ·) (ih _)

/-- The moments of a script bring its writes in their order. -/
theorem writes_timeline (job : Job) :
    (timeline 0 job.script).flatMap Moment.writes = job.writes := by
  have hsnd : ∀ m : Moment, m.queued.map Prod.snd = m.writes := by
    intro m
    simp [Moment.queued, Function.comp_def]
  rw [Job.writes, ← snd_schedule 0, ← queued_timeline, List.map_flatMap]
  simp only [hsnd]

/-- The time of a step is the largest of the delays up to it. -/
theorem schedule_getElem? {script : List DataStep} {k : Nat} {step : DataStep}
    (h : script[k]? = some step) (start : Nat) :
    (schedule start script)[k]? =
      some (((script.take (k + 1)).map DataStep.afterMs).foldl max start,
        (step.path, Value.ofJson step.value)) := by
  induction script generalizing start k with
  | nil => cases h
  | cons first rest ih =>
    cases k with
    | zero =>
      obtain rfl := Option.some.inj h
      rfl
    | succ k => exact ih h _

theorem max?_eq_foldl {times : List Nat} (h : times ≠ []) :
    times.max? = some (times.foldl max 0) := by
  cases times with
  | nil => exact absurd rfl h
  | cons time rest => rw [List.max?_cons', List.foldl_cons, Nat.zero_max]

/-! ## The program

The parts are put together: what a run comes to does not depend on the moments, and the text that
the program prints is what the sink of the render has got. -/

/-- **The delays of a script do not matter.** Without a timeout, a run writes what a host writes
that attaches a sink and then writes the steps of the script in their order, and ends as that host
does: with the first error, well if the render is done, and otherwise with a render that did not
finish. So does every run of the same template with the same settings and a script of the same
writes, and every other way of spreading the writes over moments. The steps are queued in the order
of the script, each at the largest of the times up to its own. -/
theorem delays_irrelevant {job : Job} (htimeout : job.settings.render.waitTimeoutMs = none) :
    (∃ result session sink,
      Answers (writeInOrder job.template job.settings.render job.writes) (result, session) ∧
      session.sink = some sink ∧
      (∀ job' : Job, job'.template = job.template → job'.settings = job.settings →
        job'.writes = job.writes → Answers job'.run (result, sink.device.text)) ∧
      ∀ moments : List Moment, moments.flatMap Moment.writes = job.writes →
        Answers (fun fuel => (job.start fuel).bind (job.play fuel moments))
          (.ended result session)) ∧
    ((timeline 0 job.script).flatMap Moment.queued).length = job.script.length ∧
    ∀ k step, job.script[k]? = some step →
      ∃ time, ((job.script.take (k + 1)).map DataStep.afterMs).max? = some time ∧
        ((timeline 0 job.script).flatMap Moment.queued)[k]? =
          some (time, (step.path, Value.ofJson step.value)) := by
  refine ⟨?runs, ?length, ?queued⟩
  case runs =>
    obtain ⟨result, session, sink, hinOrder, hsink, hmoments⟩ := answers_moments htimeout
    refine ⟨result, session, sink, hinOrder, hsink, fun job' htemplate hsettings hwrites => ?_,
      hmoments⟩
    have htimeout' : job'.settings.render.waitTimeoutMs = none := hsettings ▸ htimeout
    obtain ⟨result', session', -, hinOrder', -, hmoments'⟩ := answers_moments htimeout'
    rw [htemplate, hsettings, hwrites] at hinOrder'
    cases hinOrder.unique hinOrder'
    obtain ⟨enough, hplayed⟩ := hmoments' _ (writes_timeline job')
    refine ⟨enough, fun fuel hfuel => ?_⟩
    have hrun : job'.run fuel = ((job'.start fuel).bind
        (job'.play fuel (timeline 0 job'.script))).map fun p => (p.result, p.text) := by
      rw [Job.run, Option.map_bind]
      rfl
    have hended : (job'.start fuel).bind (job'.play fuel (timeline 0 job'.script)) =
        some (.ended result session) := hplayed fuel hfuel
    rw [hrun, hended, Option.map_some, Progress.result, Progress.text, Progress.session, hsink]
  case length =>
    have hlength := congrArg List.length (snd_schedule 0 job.script)
    rwa [List.length_map, List.length_map, ← queued_timeline] at hlength
  case queued =>
    intro k step hstep
    have hsome : (job.script.take (k + 1)).map DataStep.afterMs ≠ [] := by
      rw [ne_eq, List.map_eq_nil_iff, List.take_eq_nil_iff]
      rintro (hzero | hnil)
      · cases hzero
      · rw [hnil] at hstep
        cases hstep
    refine ⟨_, max?_eq_foldl hsome, ?_⟩
    rw [queued_timeline]
    exact schedule_getElem? hstep 0

/-- A job that shows two variables. -/
def Job.showing (script : List DataStep) : Job where
  settings := {}
  template := ⟨[.directive "var" [.path ⟨["x"]⟩], .literal "-", .directive "var" [.path ⟨["y"]⟩]]⟩
  script

/-- Both variables, written at two times. -/
def bothSteps (first second : Nat) : List DataStep :=
  [⟨first, ⟨["x"]⟩, .string "a"⟩, ⟨second, ⟨["y"]⟩, .string "b"⟩]

/-- A script whose times are not in order queues its second step with the first, and its run
finishes with the same text as one with other delays. One that ends behind its first step does not
finish, and one whose second step writes below a text ends with that error; both have written the
text up to there. -/
theorem delays_irrelevant_unsorted :
    (Job.showing []).settings.render.waitTimeoutMs = none ∧
    Answers (Job.showing (bothSteps 30 10)).run (.ok (), "a-b") ∧
    Answers (Job.showing (bothSteps 0 5)).run (.ok (), "a-b") ∧
    ((timeline 0 (bothSteps 30 10)).flatMap Moment.queued)[1]? =
      some (30, (⟨["y"]⟩, .str "b")) ∧
    Answers (Job.showing ((bothSteps 30 10).take 1)).run (.error .unfinished, "a-") ∧
    Answers (Job.showing [⟨5, ⟨["x"]⟩, .string "a"⟩, ⟨1, ⟨["x", "z"]⟩, .null⟩]).run
      (.error (.render (.malformedPath ⟨["x", "z"]⟩ (.holds "x" .string))), "a-") := by
  -- what the host comes to that writes in order, every run of the same writes comes to
  have hruns (script : List DataStep) {script' : List DataStep} {result : Except RunError Unit}
      {text : String}
      (hhost : (writeInOrder (Job.showing script).template {} (Job.showing script).writes 20).map
        (fun (result, session) => (result, session.sink.map (·.device.text))) =
          some (result, some text))
      (hwrites : (Job.showing script').writes = (Job.showing script).writes) :
      Answers (Job.showing script').run (result, text) := by
    obtain ⟨⟨_, session, sink, hinOrder, hsink, hall, -⟩, -⟩ :=
      delays_irrelevant (show (Job.showing script).settings.render.waitTimeoutMs = none from rfl)
    obtain ⟨ending, hending, hresult⟩ := Option.map_eq_some_iff.mp hhost
    cases hinOrder.unique (.of_mono writeInOrder_mono hending)
    dsimp only at hresult
    rw [hsink] at hresult
    cases hresult
    exact hall _ rfl rfl hwrites
  obtain ⟨-, -, hqueued⟩ := delays_irrelevant
    (show (Job.showing (bothSteps 30 10)).settings.render.waitTimeoutMs = none from rfl)
  obtain ⟨time, hlargest, htime⟩ := hqueued 1 _ rfl
  obtain rfl : 30 = time := Option.some.inj hlargest
  exact ⟨rfl, hruns (bothSteps 30 10) rfl rfl, hruns (bothSteps 30 10) rfl rfl, htime,
    hruns ((bothSteps 30 10).take 1) rfl rfl, hruns _ rfl rfl⟩

end CommandLine

end StreamingTemplate

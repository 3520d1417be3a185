import StreamingTemplate.Sink

/-!
# Calls on a sink

What a sink has received is a list of calls, each with the reason if it has failed. The state of a
sink does not have to show it: `Receives` says which calls lead from one state to another, and
`CallLog` is a record of them for the sinks that keep one, as every sink does once it is tapped
(`Tapped`).
-/

namespace StreamingTemplate

variable {κ : Type} [OutputSink κ]

/-! ## Lists of calls

The sink that a render writes to takes chunks until one is refused or the end is reached. A list
of calls of this form is `takes chunks ++ tail`, with one call at most in the tail. -/

/-- A call on a sink, with the reason if it has failed. -/
inductive SinkCall where
  | accept (chunk : String) (failure : Option String)
  | close (failure : Option String)
  deriving DecidableEq, Repr

/-- Chunks that are taken. -/
def SinkCall.takes (chunks : List String) : List SinkCall := chunks.map (.accept · none)

theorem SinkCall.takes_append (first second : List String) :
    takes (first ++ second) = takes first ++ takes second := List.map_append

/-- Behind chunks that are taken there is one call at most. -/
theorem SinkCall.later_eq_nil {chunks : List String} {tail before later : List SinkCall}
    {call : SinkCall} (htail : tail.length ≤ 1) (hcall : ∀ chunk, call ≠ .accept chunk none)
    (h : takes chunks ++ tail = before ++ call :: later) : later = [] := by
  induction chunks generalizing before with
  | nil =>
    have hlength := congrArg List.length (show tail = before ++ call :: later from h)
    rw [List.length_append, List.length_cons] at hlength
    exact List.length_eq_zero_iff.mp (by omega)
  | cons chunk rest ih =>
    cases before with
    | nil => exact absurd (List.cons.inj h).1.symm (hcall chunk)
    | cons first before => exact ih (List.cons.inj h).2

/-- Chunks that are taken close nothing, so a close is in the tail. -/
theorem SinkCall.close_mem {chunks : List String} {tail : List SinkCall} {failure : Option String} :
    .close failure ∈ takes chunks ++ tail ↔ .close failure ∈ tail := by
  simp [takes]

/-! ## What sinks receive

Sinks are a parameter: what a call does to one, and whether it fails, is the sink's own affair.
The calls a sink has received are therefore a relation between its first state and its present
one. -/

/-- The calls that lead a sink from one state to another, in order. -/
inductive Receives (first : κ) : List SinkCall → κ → Prop where
  | start : Receives first [] first
  | accept {calls sink} (before : Receives first calls sink) (chunk : String) :
      Receives first (calls ++ [.accept chunk (OutputSink.accept sink chunk).2])
        (OutputSink.accept sink chunk).1
  | close {calls sink} (before : Receives first calls sink) :
      Receives first (calls ++ [.close (OutputSink.close sink).2]) (OutputSink.close sink).1

/-- A record that sinks keep of the calls they receive. -/
structure CallLog (κ : Type) [OutputSink κ] where
  calls : κ → List SinkCall
  accept : ∀ sink chunk, calls (OutputSink.accept sink chunk).1 =
    calls sink ++ [.accept chunk (OutputSink.accept sink chunk).2]
  close : ∀ sink, calls (OutputSink.close sink).1 =
    calls sink ++ [.close (OutputSink.close sink).2]

/-- A record shows the calls that were received. -/
theorem Receives.log {first sink : κ} {calls : List SinkCall}
    (h : Receives first calls sink) (log : CallLog κ) :
    log.calls sink = log.calls first ++ calls := by
  induction h with
  | start => exact (List.append_nil _).symm
  | accept before chunk ih => rw [log.accept, ih, List.append_assoc]
  | close before ih => rw [log.close, ih, List.append_assoc]

/-- A sink together with a record of its calls. -/
structure Tapped (κ : Type) where
  sink : κ
  calls : List SinkCall := []
  deriving DecidableEq, Repr

/-- A tapped sink answers like the sink. -/
instance : OutputSink (Tapped κ) where
  accept s chunk :=
    let (sink, failure) := OutputSink.accept s.sink chunk
    (⟨sink, s.calls ++ [.accept chunk failure]⟩, failure)
  close s :=
    let (sink, failure) := OutputSink.close s.sink
    (⟨sink, s.calls ++ [.close failure]⟩, failure)

/-- Every sink can be tapped. -/
def Tapped.log : CallLog (Tapped κ) where
  calls := Tapped.calls
  accept _ _ := rfl
  close _ := rfl

end StreamingTemplate

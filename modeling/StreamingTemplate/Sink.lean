/-!
# Output sinks

A render pushes chunks into a sink, strictly in the order in which they are emitted, and closes it
once when it is complete. Taking a chunk and closing can both fail, with a text that says why; what
the sink has taken before stays taken.

Three sinks are provided. A `Collector` keeps the chunks and remembers being closed; a `ChunkLog`
only keeps them. A `WriterSink` writes to a `Device`, the log of calls on something that takes text;
it can flush after every chunk, and flushes when it is closed.
-/

namespace StreamingTemplate

/-- The behaviour of a sink with states of type `κ`. A failure comes with its reason. -/
class OutputSink (κ : Type) where
  /-- takes a chunk -/
  accept : κ → String → κ × Option String
  /-- ends the output -/
  close : κ → κ × Option String

/-! ## Collecting -/

/-- A sink that keeps what it takes. -/
structure Collector where
  chunks : List String := []
  closed : Bool := false
  deriving DecidableEq, Repr, Inhabited

instance : OutputSink Collector where
  accept c chunk := ({ c with chunks := c.chunks ++ [chunk] }, none)
  close c := ({ c with closed := true }, none)

/-- A sink that keeps what it takes and does nothing when it is closed. -/
structure ChunkLog where
  chunks : List String := []
  deriving DecidableEq, Repr, Inhabited

instance : OutputSink ChunkLog where
  accept c chunk := (⟨c.chunks ++ [chunk]⟩, none)
  close c := (c, none)

/-- A sink of one of two kinds. -/
instance {κ ν : Type} [OutputSink κ] [OutputSink ν] : OutputSink (κ ⊕ ν) where
  accept
    | .inl s, chunk => let (s, failure) := OutputSink.accept s chunk; (.inl s, failure)
    | .inr s, chunk => let (s, failure) := OutputSink.accept s chunk; (.inr s, failure)
  close
    | .inl s => let (s, failure) := OutputSink.close s; (.inl s, failure)
    | .inr s => let (s, failure) := OutputSink.close s; (.inr s, failure)

/-! ## Writing -/

/-- A call on a device. -/
inductive DeviceCall where
  | write (text : String)
  | flush
  deriving DecidableEq, Repr

/-- Something that takes text. After as many writes or flushes as it has in stock it refuses, and a
refused call leaves no trace; without a stock it never refuses. -/
structure Device where
  /-- the calls so far, in order -/
  calls : List DeviceCall := []
  writesLeft : Option Nat := none
  flushesLeft : Option Nat := none
  deriving DecidableEq, Repr, Inhabited

namespace Device

/-- Writes a text; the empty text needs no call. -/
def write (d : Device) (text : String) : Device × Option String :=
  if text.isEmpty then (d, none)
  else match d.writesLeft with
    | some 0 => (d, some "write refused")
    | left =>
      ({ d with calls := d.calls ++ [.write text], writesLeft := left.map (· - 1) }, none)

def flush (d : Device) : Device × Option String :=
  match d.flushesLeft with
  | some 0 => (d, some "flush refused")
  | left => ({ d with calls := d.calls ++ [.flush], flushesLeft := left.map (· - 1) }, none)

/-- Everything written so far. -/
def text (d : Device) : String :=
  String.join (d.calls.filterMap fun
    | .write t => some t
    | .flush => none)

end Device

/-- A sink that writes to a device. -/
structure WriterSink where
  device : Device := {}
  /-- whether every chunk is flushed -/
  flushEachChunk : Bool := false
  deriving DecidableEq, Repr, Inhabited

instance : OutputSink WriterSink where
  accept w chunk :=
    match w.device.write chunk with
    | (device, some reason) => ({ w with device }, some reason)
    | (device, none) =>
      if w.flushEachChunk then
        let (device, failure) := device.flush
        ({ w with device }, failure)
      else ({ w with device }, none)
  close w :=
    let (device, failure) := w.device.flush
    ({ w with device }, failure)

end StreamingTemplate

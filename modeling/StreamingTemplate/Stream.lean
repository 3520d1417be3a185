import StreamingTemplate.Value.Basic

/-!
# Streams

A stream is a queue of text chunks between a writer outside the render and the one reader that pipes
it. All streams live in one table, and a value of a variable names a stream by its number. The
reading end can be taken only once; when the reader gives it up, writing fails.
-/

namespace StreamingTemplate

/-- Where the reading end of a stream is. -/
inductive ReadingEnd where
  /-- still with the value -/
  | available
  /-- taken by a pipe -/
  | taken
  /-- given up -/
  | dropped
  deriving DecidableEq, Repr

/-- The state of a stream. -/
structure StreamState where
  /-- chunks written and not yet read -/
  queue : List String := []
  /-- whether the writer may still write -/
  writerOpen : Bool := true
  reader : ReadingEnd := .available
  deriving DecidableEq, Repr, Inhabited

/-- All streams, by number. -/
structure Streams where
  table : List StreamState := []
  deriving DecidableEq, Repr, Inhabited

namespace Streams

/-- The state of a stream; a stream that was never created has ended. -/
def state (s : Streams) (id : StreamId) : StreamState :=
  s.table[id]?.getD { writerOpen := false, reader := .dropped }

/-- Changes the state of a stream. -/
def update (s : Streams) (id : StreamId) (f : StreamState → StreamState) : Streams :=
  ⟨s.table.modify id f⟩

/-- A new stream: its number, and the table with it. -/
def create (s : Streams) : StreamId × Streams := (s.table.length, ⟨s.table ++ [{ queue := [] }]⟩)

/-- Writes a chunk; whether it can still be read. -/
def write (s : Streams) (id : StreamId) (chunk : String) : Bool × Streams :=
  if (s.state id).reader = .dropped then (false, s)
  else (true, s.update id fun st => { st with queue := st.queue ++ [chunk] })

/-- Ends a stream: nothing more is written. -/
def endWriting (s : Streams) (id : StreamId) : Streams :=
  s.update id fun st => { st with writerOpen := false }

/-- Takes the reading end, unless it is gone. -/
def takeReader? (s : Streams) (id : StreamId) : Option Streams :=
  if (s.state id).reader = .available then some (s.update id fun st => { st with reader := .taken })
  else none

/-- Gives the reading end up; what is queued is lost. -/
def dropReader (s : Streams) (id : StreamId) : Streams :=
  s.update id fun st => { st with reader := .dropped, queue := [] }

/-- Reads everything that is queued. -/
def readAll (s : Streams) (id : StreamId) : List String × Streams :=
  ((s.state id).queue, s.update id fun st => { st with queue := [] })

/-- Reads one chunk, if one is queued. -/
def read? (s : Streams) (id : StreamId) : Option (String × Streams) :=
  match (s.state id).queue with
  | [] => none
  | chunk :: rest => some (chunk, s.update id fun st => { st with queue := rest })

end Streams

end StreamingTemplate

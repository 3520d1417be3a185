/-!
# Filter stages and their handles

A filter stage is a state machine on text: it takes chunks, and is told once that its input is over.
What it does is a list of actions. Output inside a call is `push` and `finish`. Output at any other
time goes through a *handle*: whoever holds the handle of a stage can produce in its name, also a
stage of the same chain while it runs, and long after the call that made it available.

Handles are kept in named slots of one table, `Handles`, that all chains share. A stage says under
which names its handle is kept when it is wired into a chain; a slot holds one handle, so a newer
one drops the older one. A chain of which no slot holds a handle can produce nothing on its own any
more.
-/

namespace StreamingTemplate

/-! ## Output and actions of a stage -/

/-- What a stage has produced and not yet handed on. -/
structure Output where
  /-- the chunks, in order -/
  chunks : List String := []
  /-- whether the stage has signalled its end -/
  ended : Bool := false
  deriving DecidableEq, Repr, Inhabited

namespace Output

def push (out : Output) (chunk : String) : Output := { out with chunks := out.chunks ++ [chunk] }

def finish (out : Output) : Output := { out with ended := true }

/-- Nothing produced, no end signalled. -/
def isEmpty (out : Output) : Bool := out.chunks.isEmpty && !out.ended

/-- The output followed by later output. -/
def absorb (out later : Output) : Output := ⟨out.chunks ++ later.chunks, out.ended || later.ended⟩

end Output

/-- What is sent through a handle. -/
inductive LateOutput where
  | chunk (text : String)
  | finish
  deriving DecidableEq, Repr

/-- Adds late output to output. -/
def Output.deliver (out : Output) : LateOutput → Output
  | .chunk text => out.push text
  | .finish => out.finish

/-- An action of a running stage. -/
inductive StageAction where
  /-- produce a chunk -/
  | push (chunk : String)
  /-- signal the end -/
  | finish
  /-- send through the handle in a slot; nothing happens if the slot is empty -/
  | send (slot : String) (output : LateOutput)
  /-- drop the handle in a slot -/
  | release (slot : String)
  /-- keep the handle of one slot in another one too -/
  | copy (source target : String)
  deriving DecidableEq, Repr

/-- The behaviour of a filter stage with states of type `σ`. -/
class FilterStage (σ : Type) where
  /-- takes one chunk of input -/
  accept : σ → String → σ × List StageAction
  /-- takes the end of the input -/
  finish : σ → σ × List StageAction
  /-- the slots that keep the handle of the stage when it is wired into a chain -/
  slots : σ → List String

/-- A stage of one of two kinds. -/
instance {σ τ : Type} [FilterStage σ] [FilterStage τ] : FilterStage (σ ⊕ τ) where
  accept
    | .inl s, chunk => let (s, acts) := FilterStage.accept s chunk; (.inl s, acts)
    | .inr t, chunk => let (t, acts) := FilterStage.accept t chunk; (.inr t, acts)
  finish
    | .inl s => let (s, acts) := FilterStage.finish s; (.inl s, acts)
    | .inr t => let (t, acts) := FilterStage.finish t; (.inr t, acts)
  slots
    | .inl s => FilterStage.slots s
    | .inr t => FilterStage.slots t

/-! ## Handles -/

/-- The handle of one stage. -/
structure Handle where
  /-- the number of the chain -/
  chain : Nat
  /-- the position of the stage in the chain -/
  link : Nat
  deriving DecidableEq, Repr

/-- The handles in use, by slot, and the number of the next chain. -/
structure Handles where
  slots : List (String × Handle) := []
  nextChain : Nat := 0
  deriving DecidableEq, Repr, Inhabited

namespace Handles

/-- The handle in a slot. -/
def get? (h : Handles) (slot : String) : Option Handle :=
  (h.slots.find? (·.1 == slot)).map (·.2)

/-- Keeps a handle in a slot; an older one there is dropped. -/
def put (h : Handles) (slot : String) (handle : Handle) : Handles :=
  { h with slots := h.slots.filter (·.1 != slot) ++ [(slot, handle)] }

/-- Drops the handle in a slot. -/
def release (h : Handles) (slot : String) : Handles :=
  { h with slots := h.slots.filter (·.1 != slot) }

/-- Keeps the handle of one slot in another one too. -/
def copy (h : Handles) (source target : String) : Handles :=
  match h.get? source with
  | some handle => h.put target handle
  | none => h

/-- Whether some slot holds a handle of the chain. -/
def live (h : Handles) (chain : Nat) : Bool := h.slots.any (·.2.chain == chain)

/-- Keeps one handle in several slots. -/
def putAll (h : Handles) (handle : Handle) (slots : List String) : Handles :=
  slots.foldl (fun h slot => h.put slot handle) h

end Handles

end StreamingTemplate

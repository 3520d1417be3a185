/-!
# Open blocks

The stack of open blocks, each known by the index of the directive that opened it, and whether the
render is skipping. Skipping starts at a depth and ends as soon as a close leaves the depth below
it.
-/

namespace StreamingTemplate

/-- The open blocks, innermost first. -/
structure BlockStack where
  frames : List Nat := []
  deriving DecidableEq, Repr, Inhabited

namespace BlockStack

/-- Opens a block. -/
def push (b : BlockStack) (index : Nat) : BlockStack := ⟨index :: b.frames⟩

/-- Closes the innermost block: the index that opened it, and the blocks around it. -/
def pop? (b : BlockStack) : Option (Nat × BlockStack) :=
  match b.frames with
  | [] => none
  | index :: rest => some (index, ⟨rest⟩)

/-- The number of open blocks. -/
def depth (b : BlockStack) : Nat := b.frames.length

@[simp] theorem depth_push (b : BlockStack) (index : Nat) :
    (b.push index).depth = b.depth + 1 := rfl

@[simp] theorem pop?_push (b : BlockStack) (index : Nat) :
    (b.push index).pop? = some (index, b) := rfl

end BlockStack

/-- Whether output is being suppressed, and since which depth. -/
inductive SkipState where
  | notSkipping
  | since (depth : Nat)
  deriving DecidableEq, Repr, Inhabited

namespace SkipState

def isSkipping : SkipState → Bool
  | .notSkipping => false
  | .since _ => true

/-- The depth since which output is suppressed. -/
def depth? : SkipState → Option Nat
  | .notSkipping => none
  | .since depth => some depth

/-- The state after a close that leaves `depth` open blocks. -/
def afterClose (depth : Nat) : SkipState → SkipState
  | .notSkipping => .notSkipping
  | .since d => if depth < d then .notSkipping else .since d

end SkipState

end StreamingTemplate

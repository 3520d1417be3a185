/-!
# Paths to variables

A path addresses a variable inside nested objects by its segments. A text is a path by being split
at every dot, so `item.id` has two segments and the empty text has one empty segment; a path can
also be given by its segments, which may then be none or hold dots themselves.
-/

namespace StreamingTemplate

/-- A path to a variable. -/
structure Path where
  /-- the keys to follow, outermost first -/
  segments : List String
  deriving DecidableEq, Repr, Inhabited

namespace Path

/-- The pieces of a text between its dots; there is one more of them than there are dots. -/
def splitDots : List Char → List (List Char)
  | [] => [[]]
  | c :: rest =>
    if c = '.' then [] :: splitDots rest
    else match splitDots rest with
      | piece :: pieces => (c :: piece) :: pieces
      | [] => [[c]]

/-- The path that a text stands for. -/
def parse (s : String) : Path := ⟨(splitDots s.toList).map String.ofList⟩

/-- The segments joined by dots. -/
def text (p : Path) : String := String.intercalate "." p.segments

/-- The first segment, under which waits on the path are kept. -/
def root? (p : Path) : Option String := p.segments.head?

/-- The key of waits on the path; a path without segments waits under the empty key. -/
def waitKey (p : Path) : String := p.root?.getD ""

def isEmpty (p : Path) : Bool := p.segments.isEmpty

end Path

end StreamingTemplate

import StreamingTemplate.Value.Basic

/-!
# Variables and the waits parked on them

The store maps paths to values and keeps the waits of those whose path does not resolve yet. A wait
is parked under the first segment of its path. A successful write wakes everyone parked under the
first segment of the written path, in the order in which they came; whoever is still without a value
parks again. A write never creates the objects on the way to its path, and a rejected one changes
nothing.
-/

namespace StreamingTemplate

/-- The variables, and the waits of type `W` parked on them. -/
structure Store (W : Type) where
  /-- the variables -/
  vars : List (String × Value) := []
  /-- the parked waits with their keys, in order of arrival -/
  parked : List (String × W) := []

namespace Store

variable {W : Type}

/-! ## Looking up -/

/-- The value at a path below an object with the given fields. -/
def lookup (fields : List (String × Value)) : List String → Option Value
  | [] => none
  | [last] => Fields.find? last fields
  | segment :: rest =>
    match Fields.find? segment fields with
    | some (.object inner) => lookup inner rest
    | _ => none

/-- The value at a path: every segment but the last leads to an object, and the last is set. -/
def resolve (s : Store W) (p : Path) : Option Value := lookup s.vars p.segments

/-! ## Writing -/

/-- The fields after writing a value at a path. -/
def write (fields : List (String × Value)) (value : Value) :
    List String → Except PathFault (List (String × Value))
  | [] => .error .empty
  | [last] => .ok (Fields.insert last value fields)
  | segment :: rest =>
    match Fields.find? segment fields with
    | none => .error (.unset segment)
    | some (.object inner) =>
      match write inner value rest with
      | .ok inner' => .ok (Fields.insert segment (.object inner') fields)
      | .error fault => .error fault
    | some other => .error (.holds segment other.kind)

/-- Parks a wait on a path. -/
def subscribe (s : Store W) (p : Path) (wait : W) : Store W :=
  { s with parked := s.parked ++ [(p.waitKey, wait)] }

/-- Writes a value, and wakes the waits under the first segment of the path. -/
def set (s : Store W) (p : Path) (value : Value) : Except RenderError (Store W × List W) :=
  match write s.vars value p.segments with
  | .error fault => .error (.malformedPath p fault)
  | .ok vars =>
    .ok ({ vars, parked := s.parked.filter (·.1 != p.waitKey) },
      (s.parked.filter (·.1 == p.waitKey)).map (·.2))

/-- The number of parked waits. -/
def pending (s : Store W) : Nat := s.parked.length

end Store

end StreamingTemplate

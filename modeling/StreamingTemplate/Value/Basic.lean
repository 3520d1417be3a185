import StreamingTemplate.Error
import StreamingTemplate.Json.Print

/-!
# Values of variables

A variable holds a scalar, an object, or a stream. An object is a list of fields with distinct keys,
in the order of their first insertion; that order shows nowhere, since equality looks fields up by
key and every text sorts them. A stream is known by its number alone: what it carries lives outside
the value.

The conversions to and from JSON are here too. An array becomes an object with the keys `0`, `1`, …,
so that a path can address its items.
-/

namespace StreamingTemplate

/-- The number of a stream. -/
abbrev StreamId := Nat

/-- A value. -/
inductive Value where
  | null
  | bool (b : Bool)
  | num (x : Binary64)
  | str (s : String)
  | object (fields : List (String × Value))
  | stream (id : StreamId)
  deriving Repr, Inhabited

/-! ## Fields -/

namespace Fields

variable {α : Type}

/-- The value of the first field with a key. -/
def find? (key : String) : List (String × α) → Option α
  | [] => none
  | (k, v) :: rest => if k = key then some v else find? key rest

/-- Puts a value under a key: in place of the one there, or at the end. -/
def insert (key : String) (value : α) : List (String × α) → List (String × α)
  | [] => [(key, value)]
  | (k, v) :: rest => if k = key then (k, value) :: rest else (k, v) :: insert key value rest

/-- The fields of a list in which later values replace earlier ones. -/
def ofList (fields : List (String × α)) : List (String × α) :=
  fields.foldl (fun acc f => insert f.1 f.2 acc) []

@[simp] theorem find?_nil (key : String) : find? key ([] : List (String × α)) = none := rfl

theorem find?_insert_self (key : String) (value : α) (fields : List (String × α)) :
    find? key (insert key value fields) = some value := by
  induction fields with
  | nil => simp [insert, find?]
  | cons f rest ih =>
    by_cases h : f.1 = key <;> simp [insert, find?, h, ih]

theorem find?_insert_of_ne {key other : String} (h : other ≠ key) (value : α)
    (fields : List (String × α)) :
    find? other (insert key value fields) = find? other fields := by
  induction fields with
  | nil => simp [insert, find?, h.symm]
  | cons f rest ih =>
    by_cases hk : f.1 = key
    · simp [insert, find?, hk, h.symm]
    · simp [insert, find?, hk, ih]

end Fields

namespace Value

/-! ## Kinds, truth and equality -/

/-- What a value is. -/
def kind : Value → ValueKind
  | .null => .null
  | .bool _ => .bool
  | .num _ => .number
  | .str _ => .string
  | .object _ => .object
  | .stream _ => .stream

/-- Whether a condition on the value holds: null, false, zero, NaN and the empty text are false. -/
def isTruthy : Value → Bool
  | .null => false
  | .bool b => b
  | .num x => !x.isZero && !x.isNaN
  | .str s => !s.isEmpty
  | .object _ | .stream _ => true

/-- The fields of an object. -/
def fields? : Value → Option (List (String × Value))
  | .object fields => some fields
  | _ => none

mutual

/-- Equality of values: numbers compare as numbers, objects as maps, streams by their number. -/
def same : Value → Value → Bool
  | .null, .null => true
  | .bool a, .bool b => a == b
  | .num x, .num y => x.numEq y
  | .str s, .str t => s == t
  | .object fs, .object gs => fs.length == gs.length && within gs fs
  | .stream i, .stream j => i == j
  | _, _ => false

/-- Whether each of the fields has an equal one among `others`. -/
def within (others : List (String × Value)) : List (String × Value) → Bool
  | [] => true
  | (k, v) :: rest =>
    (match Fields.find? k others with
      | some w => same v w
      | none => false) && within others rest

end

/-! ## JSON -/

mutual

/-- The JSON of a value: whole numbers below `10 ^ 15` are integers, numbers that are not finite and
streams are null, fields are sorted by key. -/
def toJson : Value → Json
  | .null | .stream _ => .null
  | .bool b => .bool b
  | .num x =>
    match x.wholeBelow Binary64.wholeLimit with
    | some n => .number (.integer n)
    | none => if x.isFinite then .number (.float x) else .null
  | .str s => .string s
  | .object fields => .object (Json.sortFields (fieldsToJson fields))

/-- `toJson` on the values of fields. -/
def fieldsToJson : List (String × Value) → List (String × Json)
  | [] => []
  | (k, v) :: rest => (k, toJson v) :: fieldsToJson rest

end

mutual

/-- The value of a JSON value: all numbers are binary64 numbers, an array is an object keyed by
position, and of repeated fields the last counts. -/
def ofJson : Json → Value
  | .null => .null
  | .bool b => .bool b
  | .number n => .num n.toBinary64
  | .string s => .str s
  | .array items => .object (itemsOfJson 0 items)
  | .object fields => .object (Fields.ofList (fieldsOfJson fields))

/-- `ofJson` on the items of an array, keyed from a position on. -/
def itemsOfJson (position : Nat) : List Json → List (String × Value)
  | [] => []
  | v :: rest => (toString position, ofJson v) :: itemsOfJson (position + 1) rest

/-- `ofJson` on the values of fields. -/
def fieldsOfJson : List (String × Json) → List (String × Value)
  | [] => []
  | (k, v) :: rest => (k, ofJson v) :: fieldsOfJson rest

end

/-! ## Text -/

/-- The text of a value for readers; an object is written as JSON. -/
def text : Value → String
  | .null => "null"
  | .bool b => if b then "true" else "false"
  | .num x => x.display
  | .str s => s
  | v@(.object _) => v.toJson.text
  | .stream _ => "[stream]"

end Value

end StreamingTemplate

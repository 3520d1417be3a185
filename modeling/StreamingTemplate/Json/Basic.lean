import StreamingTemplate.Binary64.Round

/-!
# JSON values

A JSON value with the fields of its objects in the order in which they are written. A number is an
integer or a binary64 number, since the two print differently.

`canonical` gives the value an unordered reading: at every level the fields are sorted by key, and
of two fields with one key the later counts. It is what a value means when nothing says otherwise;
the readers of templates look at the fields as written, because there a repeated field is a mistake.
-/

namespace StreamingTemplate

/-- A number in JSON. -/
inductive Json.Number where
  /-- a number written without fraction and exponent, in the range of 64-bit integers -/
  | integer (n : Int)
  | float (x : Binary64)
  deriving DecidableEq, Repr

/-- The number as a binary64 number. -/
def Json.Number.toBinary64 : Json.Number → Binary64
  | .integer n => .ofInt n
  | .float x => x

/-- A JSON value. -/
inductive Json where
  | null
  | bool (b : Bool)
  | number (n : Json.Number)
  | string (s : String)
  | array (items : List Json)
  | object (fields : List (String × Json))
  deriving Repr, Inhabited

namespace Json

/-! ## Fields -/

/-- The value of the first field with a key. -/
def field? (key : String) : List (String × Json) → Option Json
  | [] => none
  | (k, v) :: rest => if k = key then some v else field? key rest

/-- The field of an object; `none` for other values. -/
def get? (key : String) : Json → Option Json
  | .object fields => field? key fields
  | _ => none

/-- Puts a field into fields sorted by key, in place of one with the same key. -/
def insertField {α : Type} (key : String) (value : α) : List (String × α) → List (String × α)
  | [] => [(key, value)]
  | (k, v) :: rest =>
    if key < k then (key, value) :: (k, v) :: rest
    else if k = key then (key, value) :: rest
    else (k, v) :: insertField key value rest

/-- Sorts fields by key; the later of two fields with one key counts. -/
def sortFields {α : Type} (fields : List (String × α)) : List (String × α) :=
  fields.foldl (fun sorted f => insertField f.1 f.2 sorted) []

/-! ## Canonical form -/

mutual

/-- The value with the fields of every object sorted and free of repetitions. -/
def canonical : Json → Json
  | .null => .null
  | .bool b => .bool b
  | .number n => .number n
  | .string s => .string s
  | .array items => .array (canonicalItems items)
  | .object fields => .object (sortFields (canonicalFields fields))

/-- `canonical` on the items of an array. -/
def canonicalItems : List Json → List Json
  | [] => []
  | v :: rest => canonical v :: canonicalItems rest

/-- `canonical` on the values of fields. -/
def canonicalFields : List (String × Json) → List (String × Json)
  | [] => []
  | (k, v) :: rest => (k, canonical v) :: canonicalFields rest

end

/-! ## Readings of a value -/

/-- The text of a string value. -/
def string? : Json → Option String
  | .string s => some s
  | _ => none

/-- The truth value of a boolean. -/
def bool? : Json → Option Bool
  | .bool b => some b
  | _ => none

/-- The items of an array. -/
def items? : Json → Option (List Json)
  | .array items => some items
  | _ => none

/-- The number of a numeric value. -/
def number? : Json → Option Number
  | .number n => some n
  | _ => none

/-- The value of a number that is a natural number below `2 ^ 64`. -/
def nat? : Json → Option Nat
  | .number (.integer n) => if 0 ≤ n ∧ n < 18446744073709551616 then some n.toNat else none
  | _ => none

end Json

end StreamingTemplate

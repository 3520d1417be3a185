import StreamingTemplate.Binary64.Text

/-!
# Setting values

What a configuration source says is a tree of tables, arrays and scalars. A setting asks for a
scalar of a certain type and takes any that stands for one: a number for a boolean, a word such as
`yes` for a boolean or a number, any scalar for a text.

Sources are merged one key at a time. A key is an expression (`engine.wait_timeout_ms`, `list[2]`)
that leads into the tree; tables are merged into tables, everything else replaces what is there, and
keys do not distinguish case.
-/

namespace StreamingTemplate

/-- A node of a configuration. -/
inductive SettingValue where
  | null
  | bool (b : Bool)
  | int (n : Int)
  | float (x : Binary64)
  | string (s : String)
  | array (items : List SettingValue)
  | table (fields : List (String × SettingValue))
  deriving Repr, Inhabited

namespace SettingValue

/-! ## Scalars -/

/-- Lower case of a key or word; besides the ASCII letters, the Kelvin sign has an ASCII lower case.
-/
def lower (s : String) : String :=
  String.ofList (s.toList.map fun c => if c.toNat == 0x212A then 'k' else c.toLower)

/-- The words that stand for true. -/
def trueWords : List String := ["true", "on", "yes"]

/-- The words that stand for false. -/
def falseWords : List String := ["false", "off", "no"]

/-- One past the largest 64-bit word. -/
def wordLimit : Nat := 18446744073709551616

/-- An unsigned decimal below `2 ^ 64`; a plus sign may stand in front. -/
def parseNat? (s : String) : Option Nat :=
  let cs := match s.toList with
    | '+' :: r => r
    | r => r
  if cs.isEmpty || !cs.all Char.isDigit then none
  else
    let n := Binary64.digitsValue cs
    if n < wordLimit then some n else none

/-- A signed decimal of 64 bits. -/
def parseInt? (s : String) : Option Int :=
  let (negative, cs) := match s.toList with
    | '-' :: r => (true, r)
    | '+' :: r => (false, r)
    | r => (false, r)
  if cs.isEmpty || !cs.all Char.isDigit then none
  else
    let n : Int := Binary64.digitsValue cs
    let n := if negative then -n else n
    if -9223372036854775808 ≤ n ∧ n < 9223372036854775808 then some n else none

/-- A number rounded to a natural number, halves away from zero, and held to 64 bits. -/
def roundToNat (x : Binary64) : Nat :=
  if x.isNaN || x.negative then 0
  else if x.isInfinite then wordLimit - 1
  else
    let (num, den) := x.magnitude
    min ((2 * num + den) / (2 * den)) (wordLimit - 1)

/-- The text of a number: its shortest digits, in place. -/
def floatText (x : Binary64) : String :=
  if x.isNaN then "NaN"
  else if x.isInfinite then x.signText ++ "inf"
  else if x.isZero then x.signText ++ "0"
  else x.signText ++ x.shortest.text Binary64.displayLayout

/-- The natural number below `2 ^ 64` that a scalar stands for. -/
def nat? : SettingValue → Option Nat
  | .bool b => some (if b then 1 else 0)
  | .int n => if 0 ≤ n then some n.toNat else none
  | .float x => some (roundToNat x)
  | .string s =>
    if lower s ∈ trueWords then some 1
    else if lower s ∈ falseWords then some 0
    else parseNat? s
  | _ => none

/-- The boolean that a scalar stands for. -/
def bool? : SettingValue → Option Bool
  | .bool b => some b
  | .int n => some (n != 0)
  | .float x => some (!x.isZero)
  | .string s =>
    if lower s ∈ "1" :: trueWords then some true
    else if lower s ∈ "0" :: falseWords then some false
    else none
  | _ => none

/-- The text that a scalar stands for. -/
def text? : SettingValue → Option String
  | .bool b => some (if b then "true" else "false")
  | .int n => some (toString n)
  | .float x => some (floatText x)
  | .string s => some s
  | _ => none

/-! ## Fields -/

/-- The value under a key. -/
def find? (key : String) : List (String × SettingValue) → Option SettingValue
  | [] => none
  | (k, v) :: rest => if k = key then some v else find? key rest

/-- Puts a value under a key, in place of the one there or at the end. -/
def put (key : String) (value : SettingValue) :
    List (String × SettingValue) → List (String × SettingValue)
  | [] => [(key, value)]
  | (k, v) :: rest => if k = key then (k, value) :: rest else (k, v) :: put key value rest

/-- The fields of a table; no other value has fields. -/
def fields : SettingValue → List (String × SettingValue)
  | .table fs => fs
  | _ => []

/-- The items of an array; no other value has items. -/
def items : SettingValue → List SettingValue
  | .array vs => vs
  | _ => []

/-- Whether the value is a table. -/
def isTable : SettingValue → Bool
  | .table _ => true
  | _ => false

/-! ## Merging -/

mutual

/-- The node with a value under a key: a table is merged into the table there, anything else
replaces what is there. A node that is no table becomes one. -/
def merge (node : SettingValue) (key : String) : SettingValue → SettingValue
  | .table incoming =>
    let target := (find? (lower key) node.fields).getD (.table [])
    .table (put (lower key) (mergeAll target incoming) node.fields)
  | value => .table (put (lower key) value node.fields)

/-- The node with all fields of a table. -/
def mergeAll (node : SettingValue) : List (String × SettingValue) → SettingValue
  | [] => node
  | (k, v) :: rest => mergeAll (merge node k v) rest

end

/-! ## Key expressions -/

/-- A step of a key expression. -/
inductive Step where
  | key (name : String)
  | index (n : Nat)
  deriving DecidableEq, Repr

/-- The characters of a name in a key expression. -/
def isNameChar (c : Char) : Bool := c.isAlphanum || c == '_' || c == '-' || c == ' '

/-- The steps after the first name. The fuel is the length of the text. -/
def steps? : Nat → List Char → Option (List Step)
  | _, [] => some []
  | 0, _ => none
  | fuel + 1, '.' :: rest =>
    match rest.takeWhile isNameChar with
    | [] => none
    | name => (steps? fuel (rest.dropWhile isNameChar)).map (.key (String.ofList name) :: ·)
  | fuel + 1, '[' :: rest =>
    let digits := (rest.dropWhile (·.isWhitespace)).takeWhile Char.isDigit
    let after :=
      ((rest.dropWhile (·.isWhitespace)).dropWhile Char.isDigit).dropWhile (·.isWhitespace)
    match digits, after with
    | [], _ => none
    | ds, ']' :: after => (steps? fuel after).map (.index (Binary64.digitsValue ds) :: ·)
    | _, _ => none
  | _, _ => none

/-- The steps of a key; a key that is no expression is one name. -/
def keySteps (key : String) : List Step :=
  let cs := key.toList
  match cs.takeWhile isNameChar with
  | [] => [.key key]
  | name =>
    match steps? cs.length (cs.dropWhile isNameChar) with
    | some steps => .key (String.ofList name) :: steps
    | none => [.key key]

/-- The items with one of them changed; missing ones before it are null. -/
def changeItem (f : SettingValue → SettingValue) : Nat → List SettingValue → List SettingValue
  | 0, [] => [f .null]
  | 0, v :: rest => f v :: rest
  | n + 1, [] => .null :: changeItem f n []
  | n + 1, v :: rest => v :: changeItem f n rest

/-- The node with a value at the end of steps; whatever is in the way gives way. -/
def setAt (value : SettingValue) : List Step → SettingValue → SettingValue
  | [], node => node
  | [.key name], node => merge node name value
  | .key name :: rest, node =>
    .table (put name (setAt value rest ((find? name node.fields).getD .null)) node.fields)
  | [.index n], node => .array (changeItem (fun _ => value) n node.items)
  | .index n :: rest, node => .array (changeItem (setAt value rest) n node.items)

/-- The node with the fields of a source, each under its key expression. -/
def addSource (node : SettingValue) (source : List (String × SettingValue)) : SettingValue :=
  source.foldl (fun node f => setAt f.2 (keySteps f.1) node) node

end SettingValue

end StreamingTemplate

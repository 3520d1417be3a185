import StreamingTemplate.Json.Basic

/-!
# The grammar of JSON text

`Syntax` is the tree that the grammar of JSON assigns to a text, before anyone asks what its numbers
and strings denote. Blanks are the four characters of the standard, numbers have no leading zero and
digits on both sides of the point, strings hold no raw control character, and nothing but blanks may
follow the document.

The reader of a value is `parseValue`. Every step of it consumes a character, so the length of the
text is fuel enough, and `parse?` hands it that much.
-/

namespace StreamingTemplate.Json

/-- What one place of a string literal holds. -/
inductive StringPiece where
  /-- a character, written as itself or by a short escape -/
  | char (c : Char)
  /-- a code unit of 16 bits, written by its four digits -/
  | unit (u : Nat)
  deriving DecidableEq, Repr

/-- A number as written. -/
structure NumberText where
  /-- whether a minus sign stands in front -/
  negative : Bool
  /-- the digits before the point -/
  whole : List Char
  /-- the digits behind the point, none without a point -/
  fraction : List Char
  /-- the exponent: whether it is negative, and its digits -/
  exponent : Option (Bool × List Char)
  deriving Repr

/-- The tree of a JSON text. -/
inductive Syntax where
  | null
  | bool (b : Bool)
  | number (n : NumberText)
  | string (pieces : List StringPiece)
  | array (items : List Syntax)
  | object (fields : List (List StringPiece × Syntax))
  deriving Repr, Inhabited

namespace Syntax

/-! ## Tokens -/

/-- The blanks of JSON. -/
def isBlank (c : Char) : Bool := c == ' ' || c == '\n' || c == '\t' || c == '\r'

/-- The text after its leading blanks. -/
def skipBlanks (cs : List Char) : List Char := cs.dropWhile isBlank

/-- The value of a hexadecimal digit. -/
def hexDigit? (c : Char) : Option Nat :=
  if '0' ≤ c ∧ c ≤ '9' then some (c.toNat - 48)
  else if 'a' ≤ c ∧ c ≤ 'f' then some (c.toNat - 87)
  else if 'A' ≤ c ∧ c ≤ 'F' then some (c.toNat - 55)
  else none

/-- The value of four hexadecimal digits. -/
def hexUnit? (a b c d : Char) : Option Nat := do
  let a ← hexDigit? a
  let b ← hexDigit? b
  let c ← hexDigit? c
  let d ← hexDigit? d
  return ((a * 16 + b) * 16 + c) * 16 + d

/-- The character that a short escape stands for. -/
def shortEscape? : Char → Option Char
  | '"' => some '"'
  | '\\' => some '\\'
  | '/' => some '/'
  | 'b' => some '\x08'
  | 'f' => some '\x0c'
  | 'n' => some '\n'
  | 'r' => some '\r'
  | 't' => some '\t'
  | _ => none

/-- The pieces of a string literal up to its closing quote, and the text behind it. -/
def stringBody? : List Char → Option (List StringPiece × List Char)
  | [] => none
  | '"' :: rest => some ([], rest)
  | '\\' :: 'u' :: a :: b :: c :: d :: rest => do
    let u ← hexUnit? a b c d
    let (pieces, rest) ← stringBody? rest
    return (.unit u :: pieces, rest)
  | '\\' :: e :: rest => do
    let c ← shortEscape? e
    let (pieces, rest) ← stringBody? rest
    return (.char c :: pieces, rest)
  | c :: rest =>
    if c.toNat < 32 || c == '\\' then none
    else do
      let (pieces, rest) ← stringBody? rest
      return (.char c :: pieces, rest)

/-- At least one digit, and the text behind the digits. -/
def digits? (cs : List Char) : Option (List Char × List Char) :=
  match cs.takeWhile Char.isDigit with
  | [] => none
  | ds => some (ds, cs.dropWhile Char.isDigit)

/-- The digits before the point: a zero stands alone. -/
def whole? (cs : List Char) : Option (List Char × List Char) := do
  let (ds, rest) ← digits? cs
  match ds with
  | '0' :: _ :: _ => none
  | _ => return (ds, rest)

/-- The digits behind the point, if there is a point. -/
def fraction? : List Char → Option (List Char × List Char)
  | '.' :: rest => digits? rest
  | rest => some ([], rest)

/-- The exponent, if there is one. -/
def exponent? (cs : List Char) : Option (Option (Bool × List Char) × List Char) :=
  match cs with
  | c :: rest =>
    if c == 'e' || c == 'E' then do
      let (negative, rest) := match rest with
        | '-' :: r => (true, r)
        | '+' :: r => (false, r)
        | r => (false, r)
      let (ds, rest) ← digits? rest
      return (some (negative, ds), rest)
    else some (none, cs)
  | [] => some (none, [])

/-- A number, and the text behind it. -/
def number? (cs : List Char) : Option (NumberText × List Char) := do
  let (negative, cs) := match cs with
    | '-' :: r => (true, r)
    | r => (false, r)
  let (whole, cs) ← whole? cs
  let (fraction, cs) ← fraction? cs
  let (exponent, cs) ← exponent? cs
  return (⟨negative, whole, fraction, exponent⟩, cs)

/-! ## Values -/

mutual

/-- A value after optional blanks, and the text behind it. -/
def parseValue : Nat → List Char → Option (Syntax × List Char)
  | 0, _ => none
  | fuel + 1, cs =>
    match skipBlanks cs with
    | 'n' :: 'u' :: 'l' :: 'l' :: rest => some (.null, rest)
    | 't' :: 'r' :: 'u' :: 'e' :: rest => some (.bool true, rest)
    | 'f' :: 'a' :: 'l' :: 's' :: 'e' :: rest => some (.bool false, rest)
    | '"' :: rest => (stringBody? rest).map fun (pieces, rest) => (.string pieces, rest)
    | '[' :: rest =>
      match skipBlanks rest with
      | ']' :: rest => some (.array [], rest)
      | rest => (parseItems fuel rest).map fun (items, rest) => (.array items, rest)
    | '{' :: rest =>
      match skipBlanks rest with
      | '}' :: rest => some (.object [], rest)
      | rest => (parseFields fuel rest).map fun (fields, rest) => (.object fields, rest)
    | rest => (number? rest).map fun (n, rest) => (.number n, rest)

/-- The items of an array, at least one, up to the closing bracket. -/
def parseItems : Nat → List Char → Option (List Syntax × List Char)
  | 0, _ => none
  | fuel + 1, cs =>
    match parseValue fuel cs with
    | none => none
    | some (v, rest) =>
      match skipBlanks rest with
      | ']' :: rest => some ([v], rest)
      | ',' :: rest => (parseItems fuel rest).map fun (items, rest) => (v :: items, rest)
      | _ => none

/-- The fields of an object, at least one, up to the closing brace. -/
def parseFields : Nat → List Char → Option (List (List StringPiece × Syntax) × List Char)
  | 0, _ => none
  | fuel + 1, cs =>
    match skipBlanks cs with
    | '"' :: rest =>
      match stringBody? rest with
      | none => none
      | some (key, rest) =>
        match skipBlanks rest with
        | ':' :: rest =>
          match parseValue fuel rest with
          | none => none
          | some (v, rest) =>
            match skipBlanks rest with
            | '}' :: rest => some ([(key, v)], rest)
            | ',' :: rest =>
              (parseFields fuel rest).map fun (fields, rest) => ((key, v) :: fields, rest)
            | _ => none
        | _ => none
    | _ => none

end

/-- The tree of a whole document. -/
def parse? (source : String) : Option Syntax :=
  let cs := source.toList
  match parseValue (cs.length + 1) cs with
  | some (tree, rest) => if (skipBlanks rest).isEmpty then some tree else none
  | none => none

end Syntax

end StreamingTemplate.Json

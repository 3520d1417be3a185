import StreamingTemplate.Json.Basic
import StreamingTemplate.Binary64.Text

/-!
# JSON as text

The compact text of a value: no blanks, fields in the order of the value. In strings only the quote,
the backslash and the control characters below the blank are escaped, five of the latter by a
letter. A binary64 number that is not finite has no JSON text and is written `null`.
-/

namespace StreamingTemplate.Json

/-- A hexadecimal digit in lower case. -/
def hexDigit (n : Nat) : Char := if n < 10 then Char.ofNat (48 + n) else Char.ofNat (87 + n)

/-- A character inside a string literal. -/
def escapeChar (c : Char) : List Char :=
  if c == '"' then ['\\', '"']
  else if c == '\\' then ['\\', '\\']
  else if c.toNat < 32 then
    if c == '\x08' then ['\\', 'b']
    else if c == '\x0c' then ['\\', 'f']
    else if c == '\n' then ['\\', 'n']
    else if c == '\r' then ['\\', 'r']
    else if c == '\t' then ['\\', 't']
    else ['\\', 'u', '0', '0', hexDigit (c.toNat / 16), hexDigit (c.toNat % 16)]
  else [c]

/-- A string literal. -/
def quote (s : String) : String :=
  "\"" ++ String.ofList (s.toList.flatMap escapeChar) ++ "\""

/-- A number. -/
def Number.text : Number → String
  | .integer n => toString n
  | .float x => if x.isFinite then x.json else "null"

mutual

/-- The compact text of a value. -/
def text : Json → String
  | .null => "null"
  | .bool b => if b then "true" else "false"
  | .number n => n.text
  | .string s => quote s
  | .array items => "[" ++ itemsText items ++ "]"
  | .object fields => "\x7b" ++ fieldsText fields ++ "\x7d"

/-- The items of an array, separated by commas. -/
def itemsText : List Json → String
  | [] => ""
  | [v] => text v
  | v :: rest => text v ++ "," ++ itemsText rest

/-- The fields of an object, separated by commas. -/
def fieldsText : List (String × Json) → String
  | [] => ""
  | [(k, v)] => quote k ++ ":" ++ text v
  | (k, v) :: rest => quote k ++ ":" ++ text v ++ "," ++ fieldsText rest

end

end StreamingTemplate.Json

import StreamingTemplate.Settings.Value
import StreamingTemplate.Json.Syntax

/-!
# TOML documents

`Toml.parse?` reads a TOML document into a table. The scalars come first, then values and keys, and
last the rules by which headers and dotted keys build up the tree: a table is defined once, a table
that came about only as a step to another one can still be defined, a table built by dotted keys
cannot, and nothing extends an inline table or an array.
-/

namespace StreamingTemplate.Toml

open Json.Syntax (hexDigit?)

/-! ## Characters -/

/-- Blanks within a line. -/
def isBlank (c : Char) : Bool := c == ' ' || c == '\t'

/-- Control characters, which no line may hold. -/
def isControl (c : Char) : Bool := (c.toNat < 32 && c != '\t') || c.toNat == 127

def skipBlanks (cs : List Char) : List Char := cs.dropWhile isBlank

/-- The text behind a line end. -/
def newline? : List Char → Option (List Char)
  | '\n' :: rest => some rest
  | '\r' :: '\n' :: rest => some rest
  | _ => none

/-- The rest of a line that may only hold blanks and a comment: the text from the line end on. -/
def lineRest? (cs : List Char) : Option (List Char) :=
  let rest := match skipBlanks cs with
    | '#' :: rest => rest.dropWhile fun c => !isControl c
    | rest => rest
  match rest with
  | [] => some []
  | rest => if (newline? rest).isSome then some rest else none

/-- The text after blanks, line ends and comments. The fuel is the length of the text. -/
def skipLines : Nat → List Char → Option (List Char)
  | 0, cs => some cs
  | fuel + 1, cs =>
    match skipBlanks cs with
    | [] => some []
    | '#' :: rest => do
      let rest ← lineRest? ('#' :: rest)
      match newline? rest with
      | some rest => skipLines fuel rest
      | none => some rest
    | rest =>
      match newline? rest with
      | some rest => skipLines fuel rest
      | none => some rest

/-! ## Strings -/

/-- The character with a code, if there is one. -/
def scalar? (n : Nat) : Option Char :=
  if n < 0xD800 ∨ (0xE000 ≤ n ∧ n < 0x110000) then some (Char.ofNat n) else none

/-- The value of hexadecimal digits. -/
def hexValue? (cs : List Char) : Option Nat :=
  cs.foldlM (fun n c => (hexDigit? c).map (n * 16 + ·)) 0

/-- The character of an escape after its backslash, and the text behind it. -/
def escape? : List Char → Option (Char × List Char)
  | 'b' :: r => some ('\x08', r)
  | 't' :: r => some ('\t', r)
  | 'n' :: r => some ('\n', r)
  | 'f' :: r => some ('\x0c', r)
  | 'r' :: r => some ('\r', r)
  | '"' :: r => some ('"', r)
  | '\\' :: r => some ('\\', r)
  | 'u' :: r =>
    if r.length < 4 then none
    else do return (← scalar? (← hexValue? (r.take 4)), r.drop 4)
  | 'U' :: r =>
    if r.length < 8 then none
    else do return (← scalar? (← hexValue? (r.take 8)), r.drop 8)
  | _ => none

/-- The rest of a basic string on one line. The fuel is the length of the text. -/
def basic? : Nat → List Char → Option (List Char × List Char)
  | 0, _ => none
  | fuel + 1, cs =>
    match cs with
    | '"' :: rest => some ([], rest)
    | '\\' :: rest => do
      let (c, rest) ← escape? rest
      let (s, rest) ← basic? fuel rest
      return (c :: s, rest)
    | c :: rest =>
      if isControl c then none
      else do
        let (s, rest) ← basic? fuel rest
        return (c :: s, rest)
    | [] => none

/-- The rest of a literal string on one line. -/
def literal? (cs : List Char) : Option (List Char × List Char) :=
  match cs.dropWhile fun c => c != '\'' && !isControl c with
  | '\'' :: rest => some (cs.takeWhile fun c => c != '\'' && !isControl c, rest)
  | _ => none

/-- Where a string of many lines closes: up to two quotes in front of the closing three belong to
it. The result is what belongs to the string and the text behind. -/
def close? (quote : Char) (cs : List Char) : Option (List Char × List Char) :=
  let quotes := cs.takeWhile (· == quote)
  if quotes.length < 3 then none
  else
    let inside := min (quotes.length - 3) 2
    some (List.replicate inside quote, cs.drop (inside + 3))

/-- The text behind a backslash that ends its line: blanks and line ends are skipped. -/
def joinLines? (cs : List Char) : Option (List Char) := do
  let rest ← newline? (skipBlanks cs)
  return rest.dropWhile fun c => isBlank c || c == '\n' || c == '\r'

/-- The rest of a string of many lines; only between double quotes does the backslash escape. -/
def multiline? (quote : Char) : Nat → List Char → Option (List Char × List Char)
  | 0, _ => none
  | fuel + 1, cs =>
    match close? quote cs with
    | some found => some found
    | none =>
      match cs with
      | [] => none
      | '\r' :: '\n' :: rest => do
        let (s, rest) ← multiline? quote fuel rest
        return ('\n' :: s, rest)
      | c :: rest =>
        if c == '\\' && quote == '"' then
          match joinLines? rest with
          | some rest => multiline? quote fuel rest
          | none => do
            let (e, rest) ← escape? rest
            let (s, rest) ← multiline? quote fuel rest
            return (e :: s, rest)
        else if isControl c && c != '\n' then none
        else do
          let (s, rest) ← multiline? quote fuel rest
          return (c :: s, rest)

/-- The text behind the line end that may follow the opening of a string of many lines. -/
def firstLine (cs : List Char) : List Char := (newline? cs).getD cs

/-- A string. -/
def string? (cs : List Char) : Option (String × List Char) :=
  let fuel := cs.length + 1
  let found := match cs with
    | '"' :: '"' :: '"' :: rest => multiline? '"' fuel (firstLine rest)
    | '\'' :: '\'' :: '\'' :: rest => multiline? '\'' fuel (firstLine rest)
    | '"' :: rest => basic? fuel rest
    | '\'' :: rest => literal? rest
    | _ => none
  found.map fun (s, rest) => (String.ofList s, rest)

/-! ## Numbers -/

/-- Digits with single underscores between them, without the underscores. -/
def plainDigits? (isDigit : Char → Bool) (cs : List Char) : Option (List Char) :=
  let groups := cs.splitOn '_'
  if groups.all fun g => !g.isEmpty && g.all isDigit then some groups.flatten else none

/-- A sign and the rest. -/
def splitSign : List Char → Bool × List Char
  | '-' :: r => (true, r)
  | '+' :: r => (false, r)
  | r => (false, r)

/-- The digits of a decimal integer, which do not start with a zero. -/
def decimalDigits? (cs : List Char) : Option (List Char) := do
  let ds ← plainDigits? Char.isDigit cs
  match ds with
  | '0' :: _ :: _ => none
  | _ => return ds

/-- An integer of 64 bits in base 16, 8 or 2. -/
def prefixedInt? (base : Nat) (isDigit : Char → Bool) (cs : List Char) : Option Int := do
  let ds ← plainDigits? isDigit cs
  let n := ds.foldl (fun n c => n * base + (hexDigit? c).getD 0) 0
  if n < 9223372036854775808 then return (n : Int) else none

/-- An integer. -/
def integer? : List Char → Option Int
  | '0' :: 'x' :: r => prefixedInt? 16 (fun c => (hexDigit? c).isSome) r
  | '0' :: 'o' :: r => prefixedInt? 8 (fun c => '0' ≤ c && c ≤ '7') r
  | '0' :: 'b' :: r => prefixedInt? 2 (fun c => c == '0' || c == '1') r
  | cs => do
    let (negative, cs) := splitSign cs
    let ds ← decimalDigits? cs
    let n : Int := Binary64.digitsValue ds
    let n := if negative then -n else n
    if -9223372036854775808 ≤ n ∧ n < 9223372036854775808 then return n else none

/-- A number with a fraction or an exponent, or one of the words for numbers that are not finite. -/
def float? (cs : List Char) : Option Binary64 := do
  let (negative, cs) := splitSign cs
  if cs == "inf".toList then return .infinity negative
  else if cs == "nan".toList then return { Binary64.nan with negative }
  else
    let whole := cs.takeWhile fun c => c.isDigit || c == '_'
    let rest := cs.dropWhile fun c => c.isDigit || c == '_'
    let wholeDigits ← decimalDigits? whole
    let (part, rest) ← match rest with
      | '.' :: r =>
        (plainDigits? Char.isDigit (r.takeWhile fun c => c.isDigit || c == '_')).map
          fun ds => (ds, r.dropWhile fun c => c.isDigit || c == '_')
      | r => some ([], r)
    let shift : Int := -(part.length : Int)
    let exponent : Int ← match rest with
      | [] => if part.isEmpty then none else some 0
      | c :: r =>
        if c == 'e' || c == 'E' then
          let (down, r) := splitSign r
          (plainDigits? Char.isDigit r).map fun ds =>
            if down then -(Binary64.digitsValue ds : Int) else (Binary64.digitsValue ds : Int)
        else none
    let x := Binary64.ofDecimal negative (Binary64.digitsValue (wholeDigits ++ part))
      (shift + exponent)
    if x = .infinity false then none else return x

/-! ## Dates and times -/

/-- The value of exactly `count` digits, and the text behind them. -/
def fixedDigits? (count : Nat) (cs : List Char) : Option (Nat × List Char) :=
  let ds := cs.take count
  if ds.length = count ∧ ds.all Char.isDigit then some (Binary64.digitsValue ds, cs.drop count)
  else none

/-- A number padded with zeros. -/
def padded (count n : Nat) : String :=
  let ds := Nat.toDigits 10 n
  String.ofList (List.replicate (count - ds.length) '0' ++ ds)

/-- The number of days of a month. -/
def daysIn (year month : Nat) : Nat :=
  if month == 2 then
    if (year % 4 == 0 && year % 100 != 0) || year % 400 == 0 then 29 else 28
  else if month == 4 || month == 6 || month == 9 || month == 11 then 30
  else 31

/-- A date, as its normal text. -/
def date? (cs : List Char) : Option (String × List Char) := do
  let (y, cs) ← fixedDigits? 4 cs
  let '-' :: cs := cs | none
  let (m, cs) ← fixedDigits? 2 cs
  let '-' :: cs := cs | none
  let (d, cs) ← fixedDigits? 2 cs
  guard (1 ≤ m && m ≤ 12 && 1 ≤ d && d ≤ daysIn y m)
  return (padded 4 y ++ "-" ++ padded 2 m ++ "-" ++ padded 2 d, cs)

/-- A time of day, as its normal text: nine places of a second at most, without ending zeros. -/
def time? (cs : List Char) : Option (String × List Char) := do
  let (h, cs) ← fixedDigits? 2 cs
  let ':' :: cs := cs | none
  let (m, cs) ← fixedDigits? 2 cs
  let ':' :: cs := cs | none
  let (s, cs) ← fixedDigits? 2 cs
  guard (h ≤ 23 && m ≤ 59 && s ≤ 60)
  let text := padded 2 h ++ ":" ++ padded 2 m ++ ":" ++ padded 2 s
  match cs with
  | '.' :: r =>
    let ds := r.takeWhile Char.isDigit
    guard (!ds.isEmpty)
    let kept := ((ds.take 9).reverse.dropWhile (· == '0')).reverse
    return (if kept.isEmpty then text else text ++ "." ++ String.ofList kept,
      r.dropWhile Char.isDigit)
  | r => return (text, r)

/-- The offset of a time, as its normal text. -/
def offset? (cs : List Char) : Option String := do
  match cs with
  | [] => return ""
  | ['Z'] | ['z'] => return "Z"
  | sign :: r =>
    guard (sign == '+' || sign == '-')
    let (h, r) ← fixedDigits? 2 r
    let ':' :: r := r | none
    let (m, r) ← fixedDigits? 2 r
    guard (r.isEmpty && h ≤ 23 && m ≤ 59)
    return String.ofList [sign] ++ padded 2 h ++ ":" ++ padded 2 m

/-- A date, a time, or both, as its normal text. -/
def datetime? (cs : List Char) : Option String :=
  match date? cs with
  | some (day, []) => some day
  | some (day, c :: r) => do
    guard (c == 'T' || c == 't' || c == ' ')
    let (time, r) ← time? r
    return day ++ "T" ++ time ++ (← offset? r)
  | none => do
    let (time, r) ← time? cs
    guard r.isEmpty
    return time

/-! ## Values -/

/-- The characters of a scalar that is not a string. -/
def isTokenChar (c : Char) : Bool :=
  c.isAlphanum || c == '+' || c == '-' || c == '_' || c == '.' || c == ':'

/-- A scalar that is not a string; a date and a time may be separated by a blank. -/
def scalarToken? (cs : List Char) : Option (SettingValue × List Char) :=
  let token := cs.takeWhile isTokenChar
  let rest := cs.dropWhile isTokenChar
  let (token, rest) := match date? token, rest with
    | some (_, []), ' ' :: d :: r =>
      if d.isDigit then
        (token ++ ' ' :: (d :: r).takeWhile isTokenChar, (d :: r).dropWhile isTokenChar)
      else (token, rest)
    | _, _ => (token, rest)
  let value :=
    if token == "true".toList then some (.bool true)
    else if token == "false".toList then some (.bool false)
    else
      ((integer? token).map .int).or
        (((float? token).map .float).or ((datetime? token).map .string))
  value.map fun v => (v, rest)

/-- A part of a key. -/
def keyPart? (cs : List Char) : Option (String × List Char) :=
  match cs with
  | '"' :: rest => (basic? (cs.length + 1) rest).map fun (s, rest) => (String.ofList s, rest)
  | '\'' :: rest => (literal? rest).map fun (s, rest) => (String.ofList s, rest)
  | cs =>
    let isBare := fun c : Char => c.isAlphanum || c == '_' || c == '-'
    match cs.takeWhile isBare with
    | [] => none
    | name => some (String.ofList name, cs.dropWhile isBare)

/-- A key with dots, and the text behind it and its blanks. The fuel is the length of the text. -/
def key? : Nat → List Char → Option (List String × List Char)
  | 0, _ => none
  | fuel + 1, cs => do
    let (part, rest) ← keyPart? (skipBlanks cs)
    match skipBlanks rest with
    | '.' :: rest =>
      let (more, rest) ← key? fuel rest
      return (part :: more, rest)
    | rest => return ([part], rest)

/-- Fields with a value put at the end of a dotted key; `none` if the key is taken. In `opened` are
the keys of the tables that dotted keys of the same inline table have built, `walked` leads to the
fields. -/
def putDotted? (value : SettingValue) (opened : List (List String)) (walked : List String) :
    List String → List (String × SettingValue) → Option (List (String × SettingValue))
  | [], _ => none
  | [last], fields =>
    if (SettingValue.find? last fields).isSome then none
    else some (SettingValue.put last value fields)
  | part :: rest, fields =>
    let walked := walked ++ [part]
    match SettingValue.find? part fields with
    | none => do
      return SettingValue.put part (.table (← putDotted? value opened walked rest [])) fields
    | some (.table inner) =>
      if walked ∈ opened then do
        return SettingValue.put part (.table (← putDotted? value opened walked rest inner)) fields
      else none
    | some _ => none

/-- The proper beginnings of a key that is not empty. -/
def properPrefixes (key : List String) : List (List String) :=
  (List.range key.length).tail.map key.take

mutual

/-- A value, and the text behind it. -/
def value? : Nat → List Char → Option (SettingValue × List Char)
  | 0, _ => none
  | fuel + 1, cs =>
    match cs with
    | '[' :: rest => (array? fuel rest).map fun (vs, rest) => (.array vs, rest)
    | '\x7b' :: rest =>
      match skipBlanks rest with
      | '\x7d' :: rest => some (.table [], rest)
      | rest => (inline? fuel [] [] rest).map fun (fs, rest) => (.table fs, rest)
    | '"' :: _ | '\'' :: _ => (string? cs).map fun (s, rest) => (.string s, rest)
    | cs => scalarToken? cs

/-- The rest of an array; a comma may follow its last item. -/
def array? : Nat → List Char → Option (List SettingValue × List Char)
  | 0, _ => none
  | fuel + 1, cs =>
    match skipLines cs.length cs with
    | some (']' :: rest) => some ([], rest)
    | some rest =>
      match value? fuel rest with
      | none => none
      | some (v, rest) =>
        match skipLines rest.length rest with
        | some (']' :: rest) => some ([v], rest)
        | some (',' :: rest) => (array? fuel rest).map fun (vs, rest) => (v :: vs, rest)
        | _ => none
    | none => none

/-- The rest of an inline table that is not empty, with the fields so far. -/
def inline? : Nat → List (List String) → List (String × SettingValue) → List Char →
    Option (List (String × SettingValue) × List Char)
  | 0, _, _, _ => none
  | fuel + 1, opened, fields, cs =>
    match key? (cs.length + 1) cs with
    | some (key, '=' :: rest) =>
      match value? fuel (skipBlanks rest) with
      | none => none
      | some (v, rest) =>
        match putDotted? v opened [] key fields with
        | none => none
        | some fields =>
          match skipBlanks rest with
          | '\x7d' :: rest => some (fields, rest)
          | ',' :: rest => inline? fuel (opened ++ properPrefixes key) fields rest
          | _ => none
    | _ => none

end

/-! ## The tree of a document -/

/-- How a table came about. -/
inductive Origin where
  /-- by its own header -/
  | header
  /-- as a step of the header of another table -/
  | step
  /-- by dotted keys -/
  | dotted
  deriving DecidableEq, Repr

/-- A node of a document. -/
inductive Node where
  | value (v : SettingValue)
  | table (origin : Origin) (fields : List (String × Node))
  /-- an array of tables, the latest first -/
  | tables (items : List (Origin × List (String × Node)))
  deriving Inhabited

namespace Node

/-- The node under a key. -/
def find? (key : String) : List (String × Node) → Option Node
  | [] => none
  | (k, v) :: rest => if k = key then some v else find? key rest

/-- Puts a node under a key, in place of the one there or at the end. -/
def put (key : String) (value : Node) : List (String × Node) → List (String × Node)
  | [] => [(key, value)]
  | (k, v) :: rest => if k = key then (k, value) :: rest else (k, v) :: put key value rest

/-- What is done with the table at the end of a path. -/
abbrev Change := Origin → List (String × Node) → Option (List (String × Node))

/-- Changes the table at the end of a path. Missing tables on the way come about by `how`; on the
way of dotted keys no table with a header of its own may lie. -/
def change (how : Origin) (f : Change) (origin : Origin) :
    List String → List (String × Node) → Option (List (String × Node))
  | [], fields => f origin fields
  | key :: rest, fields =>
    match find? key fields with
    | none => do return put key (.table how (← change how f how rest [])) fields
    | some (.table o inner) =>
      if how = .dotted ∧ o = .header then none
      else do return put key (.table o (← change how f o rest inner)) fields
    | some (.tables ((o, inner) :: items)) => do
      return put key (.tables ((o, ← change how f o rest inner) :: items)) fields
    | some _ => none

/-- Puts a value under the last part of a dotted key below the current table. -/
def putValue (key : List String) (v : SettingValue) : Change := fun _ fields =>
  change .dotted
    (fun o fields =>
      match key.getLast? with
      | none => none
      | some last =>
        if (o == .dotted) == key.dropLast.isEmpty ∨ (find? last fields).isSome then none
        else some (put last (.value v) fields))
    .header key.dropLast fields

/-- Defines the table of a header. -/
def define (last : String) : Change := fun _ fields =>
  match find? last fields with
  | none => some (put last (.table .header []) fields)
  | some (.table .step inner) => some (put last (.table .header inner) fields)
  | some _ => none

/-- Adds a table to an array of tables. -/
def append (last : String) : Change := fun _ fields =>
  match find? last fields with
  | none => some (put last (.tables [(.header, [])]) fields)
  | some (.tables items) => some (put last (.tables ((.header, []) :: items)) fields)
  | some _ => none

mutual

/-- The value of a node. -/
def toValue : Node → SettingValue
  | .value v => v
  | .table _ fields => .table (fieldsToValue fields)
  | .tables items => .array (itemsToValue items).reverse

/-- `toValue` on fields. -/
def fieldsToValue : List (String × Node) → List (String × SettingValue)
  | [] => []
  | (k, v) :: rest => (k, toValue v) :: fieldsToValue rest

/-- `toValue` on the tables of an array. -/
def itemsToValue : List (Origin × List (String × Node)) → List SettingValue
  | [] => []
  | (_, fields) :: rest => .table (fieldsToValue fields) :: itemsToValue rest

end

end Node

/-- The lines of a document, below the table at `current`. -/
def lines? : Nat → List String → List (String × Node) → List Char → Option (List (String × Node))
  | 0, _, _, _ => none
  | fuel + 1, current, root, cs => do
    match ← skipLines cs.length cs with
    | [] => return root
    | '[' :: '[' :: rest =>
      let (key, rest) ← key? (rest.length + 1) rest
      let ']' :: ']' :: rest := rest | none
      let rest ← lineRest? rest
      let root ← Node.change .step (Node.append (key.getLastD "")) .header key.dropLast root
      lines? fuel key root rest
    | '[' :: rest =>
      let (key, rest) ← key? (rest.length + 1) rest
      let ']' :: rest := rest | none
      let rest ← lineRest? rest
      let root ← Node.change .step (Node.define (key.getLastD "")) .header key.dropLast root
      lines? fuel key root rest
    | rest =>
      let (key, rest) ← key? (rest.length + 1) rest
      let '=' :: rest := rest | none
      let (v, rest) ← value? (rest.length + 1) (skipBlanks rest)
      let rest ← lineRest? rest
      let root ← Node.change .step (Node.putValue key v) .header current root
      lines? fuel current root rest

/-- The table of a document. -/
def parse? (source : String) : Option (List (String × SettingValue)) :=
  let cs := source.toList
  (lines? (cs.length + 1) [] [] cs).map Node.fieldsToValue

end StreamingTemplate.Toml

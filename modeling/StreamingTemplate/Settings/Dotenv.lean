/-!
# Environment files

An environment file holds lines `NAME=value`, with an optional `export`, comments, and values in
quotes that may span lines. `$NAME` and `${NAME}` stand for the value of an environment variable, or
of one set further up in the file. A malformed line ends the file; what stands above it counts.

`load` gives the environment with the variables of a file that were not set before.
-/

namespace StreamingTemplate.Dotenv

/-- Environment variables. -/
abbrev Env := List (String × String)

/-! ## Lines -/

/-- Where a scan for the end of a line stands. -/
inductive Scan where
  | plain
  /-- after a blank, where a comment may start -/
  | blank
  /-- after a backslash -/
  | escape
  | single
  | singleEscape
  | double
  | doubleEscape
  deriving DecidableEq, Repr

/-- Outside of quotes, a character leads on from any state but a comment. -/
def Scan.outside (c : Char) : Scan :=
  if c == '\\' then .escape
  else if c == '"' then .double
  else if c == '\'' then .single
  else .plain

/-- The state after a character; `none` at the start of a comment. -/
def Scan.next (c : Char) : Scan → Option Scan
  | .blank => if c == '#' then none else some (outside c)
  | .escape => some .plain
  | .plain =>
    if c.isWhitespace && c != '\n' && c != '\r' then some .blank else some (outside c)
  | .double => some (if c == '\\' then .doubleEscape else if c == '"' then .plain else .double)
  | .doubleEscape => some .double
  | .single => some (if c == '\\' then .singleEscape else if c == '\'' then .plain else .single)
  | .singleEscape => some .single

/-- The state after a text, and what of it stands before a comment. -/
def Scan.run (s : Scan) : List Char → List Char × Option Scan
  | [] => ([], some s)
  | c :: rest =>
    match s.next c with
    | none => ([], none)
    | some s =>
      let (kept, last) := run s rest
      (c :: kept, last)

/-- The physical lines of a text, each with its line end. -/
def physical : List Char → List (List Char)
  | [] => []
  | c :: rest =>
    if c == '\n' then [c] :: physical rest
    else match physical rest with
      | [] => [[c]]
      | line :: lines => (c :: line) :: lines

/-- A text without its line end. -/
def withoutEnd (cs : List Char) : List Char :=
  match cs.reverse with
  | '\n' :: '\r' :: r => r.reverse
  | '\n' :: r => r.reverse
  | _ => cs

/-- The logical lines: physical lines are joined while quotes are open. A text that ends in the
middle of a line gives `none` at its end. -/
def logical (state : Scan) (held : List Char) : List (List Char) → List (Option (List Char))
  | [] => if held.isEmpty then [] else [none]
  | line :: lines =>
    if (held ++ line).dropWhile (·.isWhitespace) |>.head? |> (· == some '#') then
      some [] :: logical .plain [] lines
    else
      match state.run line with
      | (kept, none) => some (held ++ kept) :: logical .plain [] lines
      | (_, some .plain) => some (withoutEnd (held ++ line)) :: logical .plain [] lines
      | (_, some state) => logical state (held ++ line) lines

/-! ## Values -/

/-- What a value may refer to. -/
structure Names where
  /-- the environment -/
  env : Env
  /-- the variables set further up -/
  above : Env

/-- What a name stands for; an unknown one for nothing. -/
def Names.value (names : Names) (name : List Char) : List Char :=
  let key := String.ofList name
  (((names.env.lookup key).or (names.above.lookup key)).getD "").toList

/-- How a character is read. -/
inductive Mode where
  | bare
  /-- behind a blank: only a comment may follow -/
  | spent
  /-- in double or no quotes, behind a backslash -/
  | escape (quoted : Bool)
  | single
  | double
  /-- in a name behind `$` -/
  | name (quoted : Bool) (name : List Char)
  /-- in a name in braces -/
  | braced (quoted : Bool) (name : List Char)
  deriving DecidableEq, Repr

/-- The mode outside of names and escapes. -/
def Mode.base (quoted : Bool) : Mode := if quoted then .double else .bare

/-- The value that the characters behind the equals sign stand for. -/
def value? (names : Names) : Mode → List Char → Option (List Char)
  | .single, [] | .double, [] | .braced _ _, [] | .name true _, [] | .escape true, [] => none
  | .name false name, [] => some (names.value name)
  | _, [] => some []
  | .spent, c :: rest =>
    if c == ' ' || c == '\t' then value? names .spent rest
    else if c == '#' then some []
    else none
  | .escape quoted, c :: rest =>
    if c ∈ ['\\', '\'', '"', '$', ' '] then (value? names (.base quoted) rest).map (c :: ·)
    else if c == 'n' then (value? names (.base quoted) rest).map ('\n' :: ·)
    else none
  | .single, c :: rest =>
    if c == '\'' then value? names .bare rest else (value? names .single rest).map (c :: ·)
  | .name quoted name, c :: rest =>
    if c.isAlphanum then value? names (.name quoted (name ++ [c])) rest
    else if c == '\x7b' && name.isEmpty then value? names (.braced quoted []) rest
    else if c == '$' then (value? names (.name quoted []) rest).map (names.value name ++ ·)
    else (value? names (.base quoted) rest).map fun r => names.value name ++ c :: r
  | .braced quoted name, c :: rest =>
    if c == '\x7d' then (value? names (.base quoted) rest).map (names.value name ++ ·)
    else value? names (.braced quoted (name ++ [c])) rest
  | .double, c :: rest =>
    if c == '$' then value? names (.name true []) rest
    else if c == '"' then value? names .bare rest
    else if c == '\\' then value? names (.escape true) rest
    else (value? names .double rest).map (c :: ·)
  | .bare, c :: rest =>
    if c == '$' then value? names (.name false []) rest
    else if c == '\'' then value? names .single rest
    else if c == '"' then value? names .double rest
    else if c == '\\' then value? names (.escape false) rest
    else if c == ' ' || c == '\t' then value? names .spent rest
    else (value? names .bare rest).map (c :: ·)

/-- A name, and the text behind it. -/
def key? (cs : List Char) : Option (String × List Char) :=
  match cs with
  | c :: _ =>
    if c.isAlpha || c == '_' then
      let inName := fun c : Char => c.isAlphanum || c == '_' || c == '.'
      some (String.ofList (cs.takeWhile inName), cs.dropWhile inName)
    else none
  | [] => none

def skipWhite (cs : List Char) : List Char := cs.dropWhile (·.isWhitespace)

/-- The name that a line sets, and the text behind the equals sign. A name `export` may stand in
front of it. -/
def assigned? (cs : List Char) : Option (String × List Char) := do
  let (key, rest) ← key? cs
  match skipWhite rest with
  | '=' :: rest => return (key, rest)
  | rest =>
    guard (key == "export")
    let (key, rest) ← key? rest
    let '=' :: rest := skipWhite rest | none
    return (key, rest)

/-- The name and the value of a line: `none` if it is malformed, `some none` if it sets nothing. -/
def line? (names : Names) (cs : List Char) : Option (Option (String × String)) := do
  let cs := skipWhite (cs.reverse.dropWhile (·.isWhitespace)).reverse
  if cs.isEmpty || cs.head? == some '#' then return none
  let (key, rest) ← assigned? cs
  let rest := skipWhite rest
  if rest.isEmpty || rest.head? == some '#' then return some (key, "")
  return some (key, String.ofList (← value? names .bare rest))

/-! ## Files -/

/-- The environment after the lines of a file. A variable that is set keeps its value. -/
def apply (names : Names) : List (Option (List Char)) → Env
  | [] => names.env
  | none :: _ => names.env
  | some cs :: rest =>
    match line? names cs with
    | none => names.env
    | some none => apply names rest
    | some (some (key, value)) =>
      apply
        { env := if (names.env.lookup key).isSome then names.env else names.env ++ [(key, value)]
          above := (key, value) :: names.above } rest

/-- The environment with the variables of a file that were not set before. -/
def load (source : String) (env : Env) : Env :=
  apply { env, above := [] } (logical .plain [] (physical source.toList))

end StreamingTemplate.Dotenv

import StreamingTemplate.Engine.Render
import StreamingTemplate.Json.Read
import StreamingTemplate.Settings.Dotenv
import StreamingTemplate.Settings.Toml

/-!
# Loading the settings

The settings come from four sources, later ones winning: the defaults, a configuration file, the
environment, and what the caller sets itself. The file is the one named by the caller, else the one
named by the variable `RILL_CONFIG_PATH`, and must then exist; without either it is `rill` with the
extension of a known format in the working directory, which may be missing. Environment variables
count if they start with `RILL__`; the rest of the name is a key with `__` between its parts. An
environment file `.env` is loaded first.
-/

namespace StreamingTemplate

/-- The texts of files by name, and the environment variables, that a program sees. -/
structure Surroundings where
  files : List (String × String) := []
  env : Dotenv.Env := []

namespace Surroundings

/-- The parts of a file name that count. -/
def nameParts (name : String) : List String :=
  (name.splitOn "/").filter fun part => part != "" && part != "."

/-- The text of a file, by its name relative to the working directory. -/
def read? (s : Surroundings) (name : String) : Option String :=
  if name.startsWith "/" || name.endsWith "/" then none
  else (s.files.find? fun f => nameParts f.1 == nameParts name).map (·.2)

/-- The surroundings with the variables of the environment file. -/
def withDotenv (s : Surroundings) : Surroundings :=
  match s.read? ".env" with
  | some source => { s with env := Dotenv.load source s.env }
  | none => s

end Surroundings

/-- The settings of the program. -/
structure Settings where
  render : RenderSettings := {}
  /-- which messages are logged -/
  logFilter : String := "info"
  deriving DecidableEq, Repr, Inhabited

/-- Why settings cannot be loaded. -/
inductive SettingsError where
  /-- the named file is missing, of no known format, or malformed -/
  | file (name : String)
  /-- the default file is malformed -/
  | defaultFile
  /-- a setting has a value of the wrong type -/
  | invalid
  deriving DecidableEq, Repr

def SettingsError.message : SettingsError → String
  | .file name => "Failed to load config file " ++ name
  | .defaultFile => "Failed to load configuration"
  | .invalid => "Invalid configuration"

namespace Settings

/-! ## Files -/

/-- The formats of configuration files. -/
inductive Format where
  | toml
  | json
  deriving DecidableEq, Repr

/-- The extension of a format. -/
def Format.extension : Format → String
  | .toml => "toml"
  | .json => "json"

def formats : List Format := [.toml, .json]

mutual

/-- A setting value from JSON: a number is an integer if it is one of 64 bits with sign. -/
def ofJson : Json → SettingValue
  | .null => .null
  | .bool b => .bool b
  | .number (.integer n) =>
    if -9223372036854775808 ≤ n ∧ n < 9223372036854775808 then .int n else .float (.ofInt n)
  | .number (.float x) => .float x
  | .string s => .string s
  | .array items => .array (itemsOfJson items)
  | .object fields => .table (fieldsOfJson fields)

/-- `ofJson` on the items of an array. -/
def itemsOfJson : List Json → List SettingValue
  | [] => []
  | v :: rest => ofJson v :: itemsOfJson rest

/-- `ofJson` on the values of fields. -/
def fieldsOfJson : List (String × Json) → List (String × SettingValue)
  | [] => []
  | (k, v) :: rest => (k, ofJson v) :: fieldsOfJson rest

end

/-- The table that a text holds in a format. A byte order mark in front is ignored. -/
def parse? (format : Format) (source : String) : Option (List (String × SettingValue)) :=
  let source := if source.front == '\ufeff' then (source.drop 1).toString else source
  match format with
  | .toml => Toml.parse? source
  | .json =>
    match (Json.parse? source).map Json.canonical with
    | some (.object fields) => some (fieldsOfJson fields)
    | _ => none

/-- The extension of a file name, empty if there is none. A dot at the start of the name does not
begin one. -/
def extension (name : String) : String :=
  match (((name.splitOn "/").getLastD "").splitOn ".").reverse with
  | ext :: stem :: rest => if rest.isEmpty && stem == "" then "" else ext
  | _ => ""

/-- The file of a name and its format: the file of just this name, which needs a known extension, or
the first with an extension appended. -/
def findFile? (s : Surroundings) (name : String) : Option (Format × String) :=
  match s.read? name with
  | some source =>
    (formats.find? fun f => f.extension == extension name).map fun f => (f, source)
  | none =>
    formats.findSome? fun f => (s.read? (name ++ "." ++ f.extension)).map fun source => (f, source)

/-- The variable that names the configuration file. -/
def pathVariable : String := "RILL_CONFIG_PATH"

/-- The names under which the configuration file may be found. -/
def candidates (s : Surroundings) (path? : Option String) : List String :=
  let name := ((path?.or (s.withDotenv.env.lookup pathVariable)).getD "rill")
  name :: formats.map fun f => name ++ "." ++ f.extension

/-- The table of the configuration file. -/
def fileSource (s : Surroundings) (name? : Option String) :
    Except SettingsError (List (String × SettingValue)) :=
  match name? with
  | some name =>
    match (findFile? s name).bind fun (f, source) => parse? f source with
    | some fields => .ok fields
    | none => .error (.file name)
  | none =>
    match findFile? s "rill" with
    | none => .ok []
    | some (f, source) =>
      match parse? f source with
      | some fields => .ok fields
      | none => .error .defaultFile

/-! ## Environment -/

/-- How the name of a variable that holds a setting starts, in lower case. -/
def variableStart : String := "rill__"

/-- The value of a variable: a boolean, an integer or another number if its text is one. -/
def ofVariable (text : String) : SettingValue :=
  let word := SettingValue.lower text
  if word == "true" then .bool true
  else if word == "false" then .bool false
  else match SettingValue.parseInt? text with
    | some n => .int n
    | none => match Binary64.read? text with
      | some x => .float x
      | none => .string text

/-- The settings among the environment variables. -/
def envSource (env : Dotenv.Env) : List (String × SettingValue) :=
  env.filterMap fun (name, text) =>
    let name := SettingValue.lower name
    if name.startsWith variableStart then
      some ((((name.drop variableStart.length).toString).replace "__" "."), ofVariable text)
    else none

/-! ## Reading the tree -/

/-- A record of settings: a table, or an array with the fields in order. -/
def field? (value : SettingValue) (name : String) (position : Nat) : Option (Option SettingValue) :=
  match value with
  | .table fields => some (SettingValue.find? name fields)
  | .array items => some items[position]?
  | _ => none

/-- A setting that has a default. -/
def orDefault {α : Type} (dflt : α) (read? : SettingValue → Option α) :
    Option SettingValue → Option α
  | none => some dflt
  | some v => read? v

/-- A setting that may be null. -/
def orNull {α : Type} (read? : SettingValue → Option α) : SettingValue → Option (Option α)
  | .null => some none
  | v => (read? v).map some

/-- The settings of a render. -/
def renderOf? (v : SettingValue) : Option RenderSettings := do
  let timeout ← orDefault none (orNull SettingValue.nat?) (← field? v "wait_timeout_ms" 0)
  let flush ← orDefault false SettingValue.bool? (← field? v "flush_each_chunk" 1)
  return ⟨timeout, flush⟩

/-- The settings of logging. -/
def logFilterOf? (v : SettingValue) : Option String := do
  orDefault "info" SettingValue.text? (← field? v "filter" 0)

/-- The settings in a tree. -/
def ofTree? (v : SettingValue) : Option Settings := do
  let render ← orDefault {} renderOf? (← field? v "engine" 0)
  let logFilter ← orDefault "info" logFilterOf? (← field? v "logging" 1)
  return ⟨render, logFilter⟩

/-! ## All sources -/

/-- The variables that hold a setting, as they are usually written. -/
def variableNames : List String :=
  [pathVariable, "RILL__ENGINE__WAIT_TIMEOUT_MS", "RILL__ENGINE__FLUSH_EACH_CHUNK",
    "RILL__LOGGING__FILTER"]

/-- What the caller of `load` sets itself. -/
structure Overrides where
  configPath : Option String := none
  waitTimeoutMs : Option Nat := none
  flushEachChunk : Option Bool := none
  deriving DecidableEq, Repr, Inhabited

/-- The settings with what the caller sets. -/
def override (o : Overrides) (s : Settings) : Settings :=
  { s with
    render :=
      { waitTimeoutMs := o.waitTimeoutMs.or s.render.waitTimeoutMs
        flushEachChunk := o.flushEachChunk.getD s.render.flushEachChunk } }

/-- Loads the settings from all sources. -/
def load (surroundings : Surroundings) (o : Overrides) : Except SettingsError Settings := do
  let s := surroundings.withDotenv
  let file ← fileSource s (o.configPath.or (s.env.lookup pathVariable))
  let tree := ((SettingValue.table []).addSource file).addSource (envSource s.env)
  match ofTree? tree with
  | some settings => return settings.override o
  | none => .error .invalid

end Settings

end StreamingTemplate

import StreamingTemplate.Settings.Value

/-!
# Arguments of the command line

    rill [--config PATH] render TEMPLATE [-d|--data PATH] [--compact]
         [--wait-timeout-ms N] [--flush]

`--config` may stand before or after the subcommand; behind it, it counts. An option takes its value
from the next argument, or behind an equals sign; no argument that starts with a hyphen is taken as
a value unless it is attached or stands behind `--`.

A value is checked only when the next argument has been looked at, so that an unknown argument right
behind a bad value is what gets reported. `Scanner.resolve` is that delayed check.
-/

namespace StreamingTemplate.CommandLine

/-- What is wrong with the arguments, or what was asked for instead of a render. -/
inductive UsageError where
  | displayHelp
  /-- nothing was asked for -/
  | displayHelpOnMissing
  | missingSubcommand
  | invalidSubcommand
  | unknownArgument
  | missingRequiredArgument
  /-- a value is missing or empty -/
  | invalidValue
  /-- a flag was given a value -/
  | tooManyValues
  /-- a value is not of the type of its option -/
  | valueValidation
  /-- an option was given twice -/
  | argumentConflict
  deriving DecidableEq, Repr

/-- The arguments of a render. -/
structure RenderArgs where
  template : String
  data : Option String
  compact : Bool
  waitTimeoutMs : Option Nat
  flush : Bool
  deriving DecidableEq, Repr

/-- A parsed command line. -/
structure Invocation where
  config : Option String
  render : RenderArgs
  deriving DecidableEq, Repr

/-- The arguments that take a value. -/
inductive Valued where
  | config
  | data
  | waitTimeout
  | template
  deriving DecidableEq, Repr

/-- The options by their long names. -/
inductive LongOption where
  | valued (arg : Valued)
  | compact
  | flush
  | help
  deriving DecidableEq, Repr

/-- What has been read of one level of the command line. -/
structure Scanner where
  /-- the argument whose value is not yet checked, or not yet there -/
  pending : Option (Valued × Option String) := none
  config : Option String := none
  data : Option String := none
  waitTimeoutMs : Option Nat := none
  template : Option String := none
  compact : Bool := false
  flush : Bool := false
  deriving DecidableEq, Repr

namespace Scanner

/-- A path: any text but the empty one. -/
def path (value : String) : Except UsageError String :=
  if value.isEmpty then .error .invalidValue else .ok value

/-- Stores a value where none is yet. -/
def fresh {α : Type} (old : Option α) (new : Except UsageError α) : Except UsageError (Option α) :=
  if old.isSome then .error .argumentConflict else new.map some

/-- Checks and stores the value of an argument. -/
def store (s : Scanner) (arg : Valued) (value : String) : Except UsageError Scanner := do
  match arg with
  | .config => return { s with config := ← fresh s.config (path value) }
  | .data => return { s with data := ← fresh s.data (path value) }
  | .template => return { s with template := ← fresh s.template (path value) }
  | .waitTimeout =>
    let parsed := match SettingValue.parseNat? value with
      | some n => .ok n
      | none => .error .valueValidation
    return { s with waitTimeoutMs := ← fresh s.waitTimeoutMs parsed }

/-- Checks the value that is pending. -/
def resolve (s : Scanner) : Except UsageError Scanner :=
  match s.pending with
  | none => .ok s
  | some (_, none) => .error .invalidValue
  | some (arg, some value) => { s with pending := none }.store arg value

/-- Whether the next argument is the value of an option. -/
def awaits (s : Scanner) : Option Valued :=
  match s.pending with
  | some (arg, none) => some arg
  | _ => none

/-- An option with its value attached, or waiting for it. -/
def option (s : Scanner) (arg : Valued) (attached : Option String) : Except UsageError Scanner := do
  let s ← s.resolve
  match attached with
  | some value => s.store arg value
  | none => return { s with pending := some (arg, none) }

/-- A long option, with what stands behind its equals sign. -/
def long (s : Scanner) (found : Option LongOption) (attached : Option String) :
    Except UsageError Scanner := do
  match found, attached with
  | none, _ => .error .unknownArgument
  | some (.valued arg), attached => s.option arg attached
  | some _, some _ => .error .tooManyValues
  | some .help, none => let _ ← s.resolve; .error .displayHelp
  | some .compact, none =>
    let s ← s.resolve
    if s.compact then .error .argumentConflict else return { s with compact := true }
  | some .flush, none =>
    let s ← s.resolve
    if s.flush then .error .argumentConflict else return { s with flush := true }

end Scanner

/-! ## Shapes of arguments -/

/-- The shape of an argument. -/
inductive Shape where
  /-- `--`, behind which everything is a value -/
  | escape
  | long (name : String) (attached : Option String)
  | short (letters : List Char)
  | plain
  deriving DecidableEq, Repr

/-- The shape of an argument; a single hyphen is a plain one. -/
def Shape.of (arg : String) : Shape :=
  match arg.toList with
  | ['-', '-'] => .escape
  | '-' :: '-' :: rest =>
    let name := String.ofList (rest.takeWhile (· != '='))
    match rest.dropWhile (· != '=') with
    | [] => .long name none
    | _ :: value => .long name (some (String.ofList value))
  | '-' :: c :: rest => .short (c :: rest)
  | _ => .plain

/-- The value attached to a short option. -/
def attachedToShort : List Char → Option String
  | [] => none
  | '=' :: value => some (String.ofList value)
  | value => some (String.ofList value)

/-! ## The subcommand -/

/-- The long options of `render`. -/
def renderOption? : String → Option LongOption
  | "config" => some (.valued .config)
  | "data" => some (.valued .data)
  | "wait-timeout-ms" => some (.valued .waitTimeout)
  | "compact" => some .compact
  | "flush" => some .flush
  | "help" => some .help
  | _ => none

/-- A positional argument of `render`, of which there is one. -/
def positional (s : Scanner) (placed : Bool) (arg : String) : Except UsageError Scanner :=
  if placed then .error .unknownArgument
  else s.resolve.map fun s => { s with pending := some (.template, some arg) }

/-- The arguments of `render`; `placed` says whether its positional argument has been seen,
`trailing` whether everything is a value. -/
def scanRender (s : Scanner) (placed trailing : Bool) : List String → Except UsageError Scanner
  | [] => s.resolve
  | arg :: rest =>
    if trailing then do
      scanRender (← positional s placed arg) true true rest
    else
      match Shape.of arg with
      | .escape => scanRender s placed true rest
      | .long name attached => do
        scanRender (← s.long (renderOption? name) attached) placed false rest
      | .short ('d' :: value) => do
        scanRender (← s.option .data (attachedToShort value)) placed false rest
      | .short ('h' :: _) => do
        let _ ← s.long (some .help) none
        .error .displayHelp
      | .short _ => .error .unknownArgument
      | .plain =>
        match s.awaits with
        | some opt => scanRender { s with pending := some (opt, some arg) } placed false rest
        | none => do scanRender (← positional s placed arg) true false rest

/-- The arguments behind `render`. -/
def parseRender (args : List String) : Except UsageError Invocation := do
  let s ← scanRender {} false false args
  match s.template with
  | none => .error .missingRequiredArgument
  | some template =>
    return { config := s.config
             render := { template, data := s.data, compact := s.compact
                         waitTimeoutMs := s.waitTimeoutMs, flush := s.flush } }

/-! ## The whole command line -/

/-- The long options in front of the subcommand. -/
def topOption? : String → Option LongOption
  | "config" => some (.valued .config)
  | "help" => some .help
  | _ => none

/-- The names of subcommands. -/
def subcommands : List String := ["render", "help"]

/-- Asking for help on a subcommand. -/
def parseHelp : List String → UsageError
  | [] => .displayHelp
  | [name] => if name ∈ subcommands then .displayHelp else .invalidSubcommand
  | _ => .invalidSubcommand

/-- The arguments up to the subcommand, and what follows it. -/
def scanTop (s : Scanner) : List String → Except UsageError Invocation
  | [] => do
    let s ← s.resolve
    .error (if s.config.isSome then .missingSubcommand else .displayHelpOnMissing)
  | arg :: rest =>
    if s.awaits.isNone && arg == "render" then do
      let inner ← parseRender rest
      let s ← s.resolve
      return { inner with config := inner.config.or s.config }
    else if s.awaits.isNone && arg == "help" then .error (parseHelp rest)
    else
      match Shape.of arg with
      | .escape =>
        match rest with
        | [] => scanTop s []
        | next :: _ =>
          .error (if next ∈ subcommands then .unknownArgument else .invalidSubcommand)
      | .long name attached => do scanTop (← s.long (topOption? name) attached) rest
      | .short ('h' :: _) => do
        let _ ← s.long (some .help) none
        .error .displayHelp
      | .short _ => .error .unknownArgument
      | .plain =>
        match s.awaits with
        | some opt => scanTop { s with pending := some (opt, some arg) } rest
        | none => .error .invalidSubcommand

/-- Parses a command line without the name of the program. -/
def parse (args : List String) : Except UsageError Invocation := scanTop {} args

end StreamingTemplate.CommandLine

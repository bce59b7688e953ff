/-!
# The command line

Two options and a request for help. An option takes one value, either attached (`--config=a`, `-ca`,
`-c=a`) or as the next argument, and may be given once. An argument that looks like an option is
never taken as the value of the one before it. `--` ends the options, and nothing may follow it.

An option with its value in the next argument is settled when the next option begins or the
arguments end. So of two faults, one that is found while an argument is read is reported before one
in the option that is not settled yet.
-/

namespace PlcGateway

/-- What the command line says. -/
structure Arguments where
  /-- The path of the configuration file. -/
  config : String
  /-- The log level, if it is not the configured one. -/
  logLevel : Option String
  deriving DecidableEq, Repr

/-- Why the arguments do not start the gateway. -/
inductive ArgumentError where
  | unknownArgument
  /-- A value is missing, or is empty where it may not be. -/
  | invalidValue
  /-- An option is given twice. -/
  | argumentConflict
  /-- A value is attached to an option that takes none. -/
  | tooManyValues
  /-- Help is asked for. -/
  | displayHelp
  deriving DecidableEq, Repr

/-- The wording of a refusal. -/
def ArgumentError.message : ArgumentError → String
  | .unknownArgument => "error: unexpected argument found"
  | .invalidValue => "error: a value is required but none was supplied"
  | .argumentConflict => "error: an argument cannot be used multiple times"
  | .tooManyValues => "error: a value was found where no more were expected"
  | .displayHelp => "help was asked for"

namespace CommandLine

/-- What the options are. -/
def usage : String :=
  "mcsight PLC gateway\n\n" ++
  "Options:\n" ++
  "  -c, --config <CONFIG>        Path to configuration file\n" ++
  "      --log-level <LOG_LEVEL>  Override log level (trace, debug, info, warn, error)\n" ++
  "  -h, --help                   Print help"

/-- The options that take a value. -/
inductive Flag where
  | config
  | logLevel
  deriving DecidableEq, Repr

/-- What has been read so far. -/
structure Progress where
  config : Option String := none
  logLevel : Option String := none
  /-- The option that is not settled yet, and its value if that has been read. -/
  pending : Option (Flag × Option String) := none
  deriving DecidableEq, Repr

namespace Progress

/-- Gives an option its value. -/
def assign (progress : Progress) (flag : Flag) (value : String) :
    Except ArgumentError Progress :=
  match flag with
  | .config =>
    if progress.config.isSome then .error .argumentConflict
    else if value.isEmpty then .error .invalidValue
    else .ok { progress with config := some value }
  | .logLevel =>
    if progress.logLevel.isSome then .error .argumentConflict
    else .ok { progress with logLevel := some value }

/-- Settles the option that is not settled yet. -/
def settle (progress : Progress) : Except ArgumentError Progress :=
  match progress.pending with
  | none => .ok progress
  | some (_, none) => .error .invalidValue
  | some (flag, some value) => { progress with pending := none }.assign flag value

/-- Begins an option, with the value that is attached to it if there is one. -/
def begin (progress : Progress) (flag : Flag) (attached : Option String) :
    Except ArgumentError Progress := do
  let progress ← progress.settle
  match attached with
  | some value => progress.assign flag value
  | none => .ok { progress with pending := some (flag, none) }

/-- Asks for help, once the option before is settled. -/
def help (progress : Progress) : Except ArgumentError Progress :=
  match progress.settle with
  | .error e => .error e
  | .ok _ => .error .displayHelp

/-- Reads the value of the option before. -/
def value (progress : Progress) (argument : String) : Except ArgumentError Progress :=
  match progress.pending with
  | some (flag, none) => .ok { progress with pending := some (flag, some argument) }
  | _ => .error .unknownArgument

/-- Reads what follows two dashes. -/
def long (progress : Progress) (argument : List Char) : Except ArgumentError Progress :=
  let name := String.ofList (argument.takeWhile (· != '='))
  let attached := (argument.dropWhile (· != '=')).tail?.map String.ofList
  match name, attached with
  | "config", attached => progress.begin .config attached
  | "log-level", attached => progress.begin .logLevel attached
  | "help", none => progress.help
  | "help", some _ => .error .tooManyValues
  | _, _ => .error .unknownArgument

/-- Reads what follows one dash. -/
def short (progress : Progress) : List Char → Except ArgumentError Progress
  | ['c'] => progress.begin .config none
  | 'c' :: '=' :: value => progress.begin .config (some (String.ofList value))
  | 'c' :: value => progress.begin .config (some (String.ofList value))
  | 'h' :: _ => progress.help
  | _ => .error .unknownArgument

/-- Reads an argument other than `--`. A lone dash is a value. -/
def read (progress : Progress) (argument : String) : Except ArgumentError Progress :=
  match argument.toList with
  | '-' :: '-' :: name => progress.long name
  | ['-'] => progress.value argument
  | '-' :: letters => progress.short letters
  | _ => progress.value argument

end Progress

/-- Reads arguments up to their end. -/
def readAll : Progress → List String → Except ArgumentError Progress
  | progress, [] => progress.settle
  | progress, argument :: rest =>
    if argument = "--" then
      if rest.isEmpty then progress.settle else .error .unknownArgument
    else
      match progress.read argument with
      | .error e => .error e
      | .ok progress => readAll progress rest

end CommandLine

/-- Reads the arguments after the name of the program. Without a path, the configuration file is
`defaultConfig`. -/
def Arguments.parse (defaultConfig : String) (arguments : List String) :
    Except ArgumentError Arguments := do
  let progress ← CommandLine.readAll {} arguments
  let config := progress.config.getD defaultConfig
  if config.isEmpty then .error .invalidValue else .ok ⟨config, progress.logLevel⟩

end PlcGateway

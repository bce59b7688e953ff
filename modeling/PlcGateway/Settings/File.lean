import PlcGateway.Json5.Reader
import PlcGateway.Settings.Schema
import PlcGateway.Settings.Validation
import PlcGateway.Text.Utf8

/-!
# Configuration files

A configuration file is JSON5 text in UTF-8. It is loaded in three steps, each of which may fail:
its bytes are text, the text has the form of a configuration, and the configuration obeys the rules.
-/

namespace PlcGateway

/-- What there is under a path. -/
inductive FileContent where
  | nothing
  /-- Something that cannot be read as a file, such as a directory. -/
  | noFile
  | bytes (content : List UInt8)
  deriving DecidableEq, Repr

/-- Why no configuration can be loaded. -/
inductive LoadError where
  | notFound (path : String)
  | unreadable (path : String)
  | malformed (path : String)
  | invalid (rule : BrokenRule)
  deriving DecidableEq, Repr

/-- The wording of a broken rule of a loaded configuration. -/
def BrokenRule.report (rule : BrokenRule) : String :=
  s!"Configuration validation failed: {rule.message}"

/-- The wording of a refusal. -/
def LoadError.message : LoadError → String
  | .notFound path => s!"Configuration file not found: {path}"
  | .unreadable path => s!"Configuration error: Failed to read config file '{path}'"
  | .malformed path => s!"Configuration error: Failed to parse config file '{path}'"
  | .invalid rule => rule.report

namespace Settings

/-- Reads a text that has the form of a configuration. -/
def ofText? (text : String) : Option Settings := do
  let value ← Json5.parse? text
  ofJson5? value

/-- Loads a configuration from what there is under a path. -/
def load (path : String) : FileContent → Except LoadError Settings
  | .nothing => .error (.notFound path)
  | .noFile => .error (.unreadable path)
  | .bytes content =>
    match Text.ofUtf8? content with
    | none => .error (.unreadable path)
    | some text =>
      match ofText? text with
      | none => .error (.malformed path)
      | some settings =>
        match settings.validate with
        | .error rule => .error (.invalid rule)
        | .ok () => .ok settings

end Settings

end PlcGateway

/-
FormatHost.Failure — what can go wrong with a formatter.

Causes of failure in finding, loading and running a formatter and in
reading its project's configuration, and the text of each.
-/
import FormatHost.Disk
import FormatHost.Glob.Pattern
import FormatHost.Json.Print

namespace FormatHost

/-- Why a configuration file does not count. -/
inductive ConfigProblem
  | expectedObject (found : Json.Value)
  | invalidOverrides
  | sharedPackage (name : String)
  | javaScript
  deriving Repr

def ConfigProblem.message : ConfigProblem → String
  | .expectedObject v => "expected an object, found " ++ v.compact
  | .invalidOverrides => "invalid overrides: not a list of overrides"
  | .sharedPackage name => "shared configuration package '" ++ name ++ "' cannot be loaded"
  | .javaScript => "JavaScript configuration files cannot be evaluated"

/-- A failure of a formatter, or of looking for one. -/
inductive Failure
  | notFound (what : String)
  | loadFailed (path : Path) (reason : String)
  | unsupported (capability : String)
  | invocation (message : String)
  | invalidOutput
  | configDiscovery (path : Path) (problem : ConfigProblem)
  | glob (e : Glob.Error)
  | version
  | json
  | json5
  | yaml
  | toml
  | io (e : IoError)
  deriving Repr

namespace Failure

def message : Failure → String
  | .notFound what => "Formatter module not found: " ++ what
  | .loadFailed path reason =>
    "Failed to load formatter module from " ++ path.text ++ ": " ++ reason
  | .unsupported capability => "Formatter module does not support " ++ capability
  | .invocation message => message
  | .invalidOutput => "Invalid formatter output: not of the expected form"
  | .configDiscovery path problem =>
    "Failed to resolve configuration from " ++ path.text ++ ": " ++ problem.message
  | .glob e => "Invalid glob pattern: " ++ e.message
  | .version => "Invalid module version: not a semantic version"
  | .json => "JSON parsing error: not of the expected form"
  | .json5 => "JSON5 parsing error: not of the expected form"
  | .yaml => "YAML parsing error: not of the expected form"
  | .toml => "TOML parsing error: not of the expected form"
  | .io e => "IO error: " ++ e.message

/-- A failure of a file operation. -/
def ofIo {α : Type} : Except IoError α → Except Failure α
  | .ok a => .ok a
  | .error e => .error (.io e)

end Failure
end FormatHost

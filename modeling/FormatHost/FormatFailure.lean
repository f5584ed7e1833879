/-
FormatHost.FormatFailure — why a format attempt ends without a result.
-/
import FormatHost.Settings
import FormatHost.Status

namespace FormatHost

/-- What ends a format attempt. -/
inductive FormatFailure
  /-- No formatter can be used. -/
  | moduleNotFound (onlyLocal : Bool)
  /-- The project's configuration could not be read. -/
  | configResolutionFailed (path : Path) (cause : Failure)
  /-- Configuration is required and there is none. -/
  | configRequiredMissing (path : Path)
  /-- Nothing says which parser to use. -/
  | parserUnresolvable (what : String)
  /-- The formatter failed on the document. -/
  | invocationFailed (message : String)
  | settings (problem : SettingsProblem)
  | pattern (e : Glob.Error)
  | module (e : Failure)
  | json
  | yaml
  | io (e : IoError)
  deriving Repr

namespace FormatFailure

def message : FormatFailure → String
  | .moduleNotFound onlyLocal =>
    "Formatter module could not be loaded (onlyUseLocalVersion: " ++ toString onlyLocal ++ ")"
  | .configResolutionFailed path cause =>
    "Invalid formatter configuration for " ++ path.text ++ ": " ++ cause.message
  | .configRequiredMissing path =>
    "No project configuration found for " ++ path.text ++ ", formatting is disabled"
  | .parserUnresolvable what =>
    "Failed to resolve a parser for " ++ what ++ ", skipping file. If you registered a custom file " ++
      "extension, be sure to configure the parser."
  | .invocationFailed message => message
  | .settings problem => "Settings error: " ++ problem.message
  | .pattern e => "Invalid glob pattern: " ++ e.message
  | .module e => e.message
  | .json => "JSON parsing error: not of the expected form"
  | .yaml => "YAML parsing error: not of the expected form"
  | .io e => "IO error: " ++ e.message

/-- The status that the failure leaves. -/
def status : FormatFailure → Status
  | .configRequiredMissing _ => .disabled
  | _ => .error

end FormatFailure
end FormatHost

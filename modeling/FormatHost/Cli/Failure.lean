/-
FormatHost.Cli.Failure — why a command fails, and how the user is told.
-/
import FormatHost.FormatFailure

namespace FormatHost.Cli

inductive CommandFailure
  | invalidArgument (message : String)
  | io (e : IoError)
  /-- The settings file cannot be used. -/
  | config (message : String)
  /-- There is no formatter for a target. -/
  | noFormatter (target : String)
  | format (e : FormatFailure)
  | module (e : Failure)
  | internal (message : String)
  deriving Repr

namespace CommandFailure

def message : CommandFailure → String
  | .invalidArgument message => "Invalid argument: " ++ message
  | .io e => "IO error: " ++ e.message
  | .config message => "Configuration error: " ++ message
  | .noFormatter target => "No formatter module available for " ++ target
  | .format e => e.message
  | .module e => e.message
  | .internal message => "Internal error: " ++ message

/-- The message for the user, with advice where there is some. -/
def userMessage : CommandFailure → String
  | .invalidArgument message =>
    "Invalid argument: " ++ message ++ "\n\nRun 'fmtbridge --help' for usage information."
  | .io e => "File operation failed: " ++ e.message
  | .config message =>
    "Configuration error: " ++ message ++ "\n\nCheck the file passed with --settings."
  | .noFormatter target =>
    "No formatter module available for " ++ target ++
      ".\n\nInstall one in the project or pass --bundled."
  | e => e.message

end CommandFailure
end FormatHost.Cli

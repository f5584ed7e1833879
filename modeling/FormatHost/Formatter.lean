/-
FormatHost.Formatter — formatters and the handles through which they are
used.

A formatter answers questions; what it answers may depend on the files of
the machine it runs on. Formatting and the language table are always
there, the rest are capabilities. Through its handle a formatter is only
asked what it is capable of, and every question is an event.

* §1 formatters;
* §2 loading a package as a formatter;
* §3 handles.
-/
import FormatHost.Event

namespace FormatHost

/-! ## §1 Formatters -/

structure Formatter where
  capabilities : Capabilities := {}
  format : Machine → String → Options → Except Failure String
  supportInfo : Machine → List String → Except Failure SupportInfo
  fileInfo : Machine → Path → FileInfoOptions → Except Failure FileInfo :=
    fun _ _ _ => .error (.unsupported "getFileInfo")
  resolveConfig : Machine → Path → ConfigOptions → Except Failure (Option Options) :=
    fun _ _ _ => .error (.unsupported "resolveConfig")
  resolveConfigFile : Machine → Path → Except Failure (Option Path) :=
    fun _ _ => .error (.unsupported "resolveConfigFile")

/-! ## §2 Loading -/

/-- How a package becomes a formatter. -/
structure Loader where
  load : Machine → Install → Except Failure Formatter

/-! ## §3 Handles -/

/-- A formatter that was loaded, and where it came from. -/
structure Handle where
  origin : Origin
  version : Option Version
  path : Path
  formatter : Formatter

namespace Handle

variable {σ : Type}

def ofInstall (i : Install) (f : Formatter) : Handle := ⟨i.origin, i.version, i.path, f⟩

def has (h : Handle) (c : Capability) : Bool := h.formatter.capabilities.has c

/-- Whether the version is 3 or later. From then on plugins have to be
named. -/
def isAboveV3 (h : Handle) : Bool := h.version.any fun v => 3 ≤ v.major

def format (h : Handle) (m : Machine) (text : String) (options : Options) :
    Run σ (Except Failure String) := do
  Run.emit (.call h.origin (.format text options))
  return h.formatter.format m text options

def supportInfo (h : Handle) (m : Machine) (plugins : List String) :
    Run σ (Except Failure SupportInfo) := do
  Run.emit (.call h.origin (.supportInfo plugins))
  return h.formatter.supportInfo m plugins

/-- What the formatter knows about a file; nothing without the capability. -/
def fileInfo (h : Handle) (m : Machine) (path : Path) (options : FileInfoOptions) :
    Run σ (Except Failure (Option FileInfo)) := do
  if h.has .fileInfo then
    Run.emit (.call h.origin (.fileInfo path options))
    return (h.formatter.fileInfo m path options).map some
  else return .ok none

/-- The project's options for a file; nothing without the capability. -/
def resolveConfig (h : Handle) (m : Machine) (path : Path) (options : ConfigOptions) :
    Run σ (Except Failure (Option Options)) := do
  if h.has .resolveConfig then
    Run.emit (.call h.origin (.resolveConfig path options))
    return h.formatter.resolveConfig m path options
  else return .ok none

/-- The configuration file for a path; nothing without the capability. -/
def resolveConfigFile (h : Handle) (m : Machine) (path : Path) : Except Failure (Option Path) :=
  if h.has .resolveConfigFile then h.formatter.resolveConfigFile m path else .ok none

end Handle
end FormatHost

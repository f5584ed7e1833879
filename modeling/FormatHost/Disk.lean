/-
FormatHost.Disk — the machine as the program sees it.

The disk is a tree of directories and files without links; whatever looks
at it is a function of it. A machine adds the current directory, the home
directory and the search path for commands.

* §1 entries and causes of failure;
* §2 finding the place of a path: every directory on the way must exist,
  `..` goes up, and a path that ends in a slash or `.` means a directory;
* §3 looking: `exists?`, `isDirectory`, `isFile`, `readText`;
* §4 changing: `writeBytes`, `writeText`, `put` and `remove`;
* §5 machines, and looking up commands.
-/
import FormatHost.Path
import FormatHost.Text.Utf8

namespace FormatHost

/-! ## §1 Entries -/

/-- What a place on the disk holds. -/
inductive Entry
  | directory
  | file (bytes : List UInt8) (executable : Bool)
  deriving Repr, DecidableEq

/-- Why a file could not be used. -/
inductive IoError
  | notFound
  | notADirectory
  | isADirectory
  | nameTooLong
  | invalidPath
  | invalidText
  | notExecutable
  | brokenPipe
  deriving Repr, DecidableEq

def IoError.message : IoError → String
  | .notFound => "No such file or directory (os error 2)"
  | .notADirectory => "Not a directory (os error 20)"
  | .isADirectory => "Is a directory (os error 21)"
  | .nameTooLong => "File name too long (os error 36)"
  | .invalidPath => "file name contained an unexpected NUL byte"
  | .invalidText => "stream did not contain valid UTF-8"
  | .notExecutable => "Permission denied (os error 13)"
  | .brokenPipe => "Broken pipe (os error 32)"

/-- A disk: what lies at each place below the root directory. -/
structure Disk where
  entry? : List String → Option Entry

namespace Disk

/-! ## §2 Places -/

/-- Names are at most this many bytes long. -/
def nameLimit : Nat := 255

/-- Paths are shorter than this many bytes. -/
def pathLimit : Nat := 4096

def isDirectoryAt (d : Disk) (place : List String) : Bool :=
  place.isEmpty || d.entry? place == some .directory

/-- Follow components from the directory `place`. -/
def walk (d : Disk) : List String → List Path.Component → Except IoError (List String)
  | place, [] => .ok place
  | _, .root :: rest => walk d [] rest
  | place, .here :: rest => walk d place rest
  | place, .up :: rest => walk d place.dropLast rest
  | place, .name s :: rest =>
    if s.utf8ByteSize > nameLimit then .error .nameTooLong
    else if rest.isEmpty then .ok (place ++ [s])
    else
      match d.entry? (place ++ [s]) with
      | none => .error .notFound
      | some (.file ..) => .error .notADirectory
      | some .directory => walk d (place ++ [s]) rest

/-- Whether a path can only mean a directory. -/
def meansDirectory (p : Path) : Bool :=
  p.segments.getLast?.any Path.isSilent && !p.segments.isEmpty

/-- The place that a path means, seen from the directory `cwd`. -/
def place (d : Disk) (cwd p : Path) : Except IoError (List String) :=
  if p.text.toList.contains '\x00' then .error .invalidPath
  else if p.isEmpty then .error .notFound
  else if p.text.utf8ByteSize ≥ pathLimit then .error .nameTooLong
  else if p.isAbsolute then d.walk [] p.components
  else do
    let start ← d.walk [] cwd.components
    if d.isDirectoryAt start then d.walk start p.components else .error .notFound

/-- What a path leads to. -/
def look (d : Disk) (cwd p : Path) : Except IoError Entry := do
  let place ← d.place cwd p
  if place.isEmpty then .ok .directory
  else
    match d.entry? place with
    | none => .error .notFound
    | some (.file bytes executable) =>
      if meansDirectory p then .error .notADirectory else .ok (.file bytes executable)
    | some .directory => .ok .directory

/-! ## §3 Looking -/

/-- Whether the path leads anywhere; a failure other than absence is an
error. -/
def exists? (d : Disk) (cwd p : Path) : Except IoError Bool :=
  match d.look cwd p with
  | .ok _ => .ok true
  | .error .notFound => .ok false
  | .error e => .error e

def isDirectory (d : Disk) (cwd p : Path) : Bool :=
  match d.look cwd p with
  | .ok .directory => true
  | _ => false

def isFile (d : Disk) (cwd p : Path) : Bool :=
  match d.look cwd p with
  | .ok (.file ..) => true
  | _ => false

def isExecutable (d : Disk) (cwd p : Path) : Bool :=
  match d.look cwd p with
  | .ok (.file _ executable) => executable
  | _ => false

/-- The bytes of a file. -/
def readBytes (d : Disk) (cwd p : Path) : Except IoError (List UInt8) := do
  match ← d.look cwd p with
  | .file bytes _ => .ok bytes
  | .directory => .error .isADirectory

/-- The text of a file. -/
def readText (d : Disk) (cwd p : Path) : Except IoError String := do
  match Text.Utf8.decode? (← d.readBytes cwd p) with
  | some cs => .ok (String.ofList cs)
  | none => .error .invalidText

/-! ## §4 Changing -/

/-- The disk with an entry at a place, and directories above it. -/
def put (d : Disk) (place : List String) (e : Entry) : Disk :=
  ⟨fun q =>
    if q = place then some e
    else if q.isPrefixOf place && q.length < place.length then some .directory
    else d.entry? q⟩

/-- The disk without a place and everything below it. -/
def remove (d : Disk) (place : List String) : Disk :=
  ⟨fun q => if place.isPrefixOf q then none else d.entry? q⟩

/-- The disk with bytes written to a file, whose directory must exist. -/
def writeBytes (d : Disk) (cwd p : Path) (bytes : List UInt8) : Except IoError Disk := do
  let place ← d.place cwd p
  if place.isEmpty then .error .isADirectory
  else if meansDirectory p then .error .isADirectory
  else if !d.isDirectoryAt place.dropLast then
    .error (if (d.entry? place.dropLast).isSome then .notADirectory else .notFound)
  else
    match d.entry? place with
    | some .directory => .error .isADirectory
    | some (.file _ executable) => .ok (d.put place (.file bytes executable))
    | none => .ok (d.put place (.file bytes false))

/-- The disk with a text written to a file. -/
def writeText (d : Disk) (cwd p : Path) (text : String) : Except IoError Disk :=
  d.writeBytes cwd p (Text.Utf8.encode text.toList)

end Disk

/-! ## §5 Machines -/

/-- A disk, the directories that the process starts from, and the
directories where commands are found. -/
structure Machine where
  disk : Disk
  cwd : Path
  home : Path
  searchPath : List Path

namespace Machine

def exists? (m : Machine) (p : Path) : Except IoError Bool := m.disk.exists? m.cwd p

def isDirectory (m : Machine) (p : Path) : Bool := m.disk.isDirectory m.cwd p

def isFile (m : Machine) (p : Path) : Bool := m.disk.isFile m.cwd p

def readText (m : Machine) (p : Path) : Except IoError String := m.disk.readText m.cwd p

/-- An absolute path, below the current directory unless it is one. -/
def absolute (m : Machine) (p : Path) : Path := m.cwd.join p

/-- The executable file of a command: the first one on the search path. -/
def command? (m : Machine) (name : String) : Option Path :=
  (m.searchPath.map (· / name)).find? fun p => m.disk.isExecutable m.cwd p

end Machine

/-! ## §6 Paths in settings -/

/-- A path as a setting gives it: blanks around it do not count, a leading
`~` alone or before a slash is the home directory, an absolute path
stands for itself and a relative one lies below `base`. Nothing for an
empty setting, or a relative one without a base. -/
def expandSetting (home : Path) (raw : String) (base : Option Path) : Option Path :=
  let raw := Text.trimString raw
  match raw.toList with
  | [] => none
  | ['~'] => some home
  | '~' :: c :: rest =>
    if c = '/' ∨ c = '\\' then
      some (if rest.isEmpty then home else home.join ⟨String.ofList rest⟩)
    else base.map (·.join ⟨raw⟩)
  | _ => if (Path.mk raw).isAbsolute then some ⟨raw⟩ else base.map (·.join ⟨raw⟩)

end FormatHost

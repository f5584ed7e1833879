/-
FormatHost.Uri — document addresses.

Documents are named by URIs. Only `file:` URIs have a path on disk; the
others (`untitled:`, `http:` and whatever an editor makes up) are carried
along and compared by scheme.

* §1 the parts of a URI and its text;
* §2 schemes;
* §3 path segments: dot segments are resolved, drive letters are kept;
* §4 authorities: user, host and port;
* §5 reading. In the special schemes a backslash is a slash and the path
  always starts with one;
* §6 paths to URIs and back.
-/
import FormatHost.Path
import FormatHost.Uri.Host

namespace FormatHost

/-! ## §1 Parts -/

/-- The parts of a URI, each in its encoded form. -/
structure Uri where
  scheme : String
  /-- Whether `//` and an authority follow the scheme. -/
  hasAuthority : Bool
  userInfo : String := ""
  /-- `none` also when the authority is empty. -/
  host : Option Uri.Host := none
  port : Option Nat := none
  path : String := ""
  query : Option String := none
  fragment : Option String := none
  deriving Repr, DecidableEq

namespace Uri

/-- The text of a URI. -/
def text (u : Uri) : String :=
  let authority :=
    if u.hasAuthority then
      "//" ++ (if u.userInfo == "" then "" else u.userInfo ++ "@") ++
        (match u.host with | some h => h.text | none => "") ++
        (match u.port with | some p => ":" ++ toString p | none => "")
    else if u.path.startsWith "//" then "/."
    else ""
  u.scheme ++ ":" ++ authority ++ u.path ++
    (match u.query with | some q => "?" ++ q | none => "") ++
    (match u.fragment with | some f => "#" ++ f | none => "")

/-! ## §2 Schemes -/

def isAlpha (c : Char) : Bool := ('a' ≤ c && c ≤ 'z') || ('A' ≤ c && c ≤ 'Z')

def isDigit (c : Char) : Bool := '0' ≤ c && c ≤ '9'

def isSchemeChar (c : Char) : Bool :=
  isAlpha c || isDigit c || c == '+' || c == '-' || c == '.'

/-- The scheme of documents that are backed by a file. -/
def fileScheme : String := "file"

/-- The special schemes with a host, and their usual ports. -/
def usualPort? (scheme : String) : Option Nat :=
  match scheme with
  | "http" | "ws" => some 80
  | "https" | "wss" => some 443
  | "ftp" => some 21
  | _ => none

/-- Blanks and control characters around the text, and tabs and line ends
anywhere in it, do not count. -/
def clean (cs : List Char) : List Char :=
  let silent (c : Char) : Bool := c.toNat ≤ 0x20
  (Text.dropRightWhile silent (cs.dropWhile silent)).filter fun c =>
    !(c == '\t' || c == '\n' || c == '\r')

/-- The scheme in small letters, and what follows its colon. -/
def readScheme (cs : List Char) : Option (String × List Char) :=
  match cs with
  | c :: _ =>
    if isAlpha c then
      match cs.dropWhile isSchemeChar with
      | ':' :: rest => some (String.ofList ((cs.takeWhile isSchemeChar).map Text.lowerAscii), rest)
      | _ => none
    else none
  | [] => none

/-! ## §3 Path segments -/

/-- A segment that stays where it is. -/
def isSingleDot (s : List Char) : Bool :=
  let l := s.map Text.lowerAscii
  l == ".".toList || l == "%2e".toList

/-- A segment that goes up. -/
def isDoubleDot (s : List Char) : Bool :=
  let l := s.map Text.lowerAscii
  l == "..".toList || l == ".%2e".toList || l == "%2e.".toList || l == "%2e%2e".toList

/-- A drive letter. -/
def isDrive (cs : List Char) : Bool :=
  match cs with
  | [d, c] => isAlpha d && (c == ':' || c == '|')
  | _ => false

/-- Going up leaves a drive letter in place. -/
def goUp : List (List Char) → List (List Char)
  | s :: rest => if isDrive (s.takeWhile (· != '\\')) then s :: rest else rest
  | [] => []

/-- Resolve dot segments onto the segments so far, last first. A dot
segment at the end leaves an empty one. With `drives`, the drive letter a
path starts with is written with a colon. -/
def resolveDots (drives : Bool) : List (List Char) → List (List Char) → List (List Char)
  | done, [] => done.reverse
  | done, s :: rest =>
    if isDoubleDot s then
      resolveDots drives (if rest.isEmpty then [] :: goUp done else goUp done) rest
    else if isSingleDot s then
      resolveDots drives (if rest.isEmpty then [] :: done else done) rest
    else if drives && done.isEmpty && isDrive s then
      resolveDots drives [s.take 1 ++ [':']] rest
    else resolveDots drives (s :: done) rest

/-- The path of segments, each after a slash. -/
def joinSegments (segments : List (List Char)) : String :=
  String.ofList (segments.flatMap ('/' :: ·))

/-- The path of segments, encoded and resolved. -/
def pathOf (segments : List (List Char)) : String :=
  joinSegments (resolveDots false [] (segments.map (encode inPath)))

/-- Cut at `#`, then at `?`. -/
def cutTail (cs : List Char) : List Char × Option (List Char) × Option (List Char) :=
  let (front, fragment) := match Text.splitOnce '#' cs with
    | some (a, b) => (a, some b)
    | none => (cs, none)
  match Text.splitOnce '?' front with
  | some (a, b) => (a, some b, fragment)
  | none => (front, none, fragment)

/-- A part that may be missing, encoded. -/
def encodePart (set : Char → Bool) (part : Option (List Char)) : Option String :=
  part.map fun cs => String.ofList (encode set cs)

def isSlash (c : Char) : Bool := c == '/' || c == '\\'

/-- Every backslash as a slash. -/
def slashed (cs : List Char) : List Char := cs.map fun c => if c == '\\' then '/' else c

/-! ## §4 Authorities -/

/-- The text before the last `@`, and after it. -/
def cutUserInfo (cs : List Char) : Option (List Char) × List Char :=
  match Text.splitOnce '@' cs.reverse with
  | some (host, user) => (some user.reverse, host.reverse)
  | none => (none, cs)

/-- User and password: the first colon stands between them, and is left out
before an empty password. -/
def userInfoText (cs : List Char) : String :=
  match Text.splitOnce ':' cs with
  | some (user, []) => String.ofList (encode inUserInfo user)
  | some (user, password) =>
    String.ofList (encode inUserInfo user ++ ':' :: encode inUserInfo password)
  | none => String.ofList (encode inUserInfo cs)

/-- The host, and what follows it: a colon inside brackets is no end. -/
def cutHost : Bool → List Char → List Char × List Char
  | _, [] => ([], [])
  | bracketed, c :: cs =>
    if c == ':' && !bracketed then ([], c :: cs)
    else
      let (host, rest) := cutHost (c == '[' || (bracketed && c != ']')) cs
      (c :: host, rest)

/-- The port after a host, and what follows its digits; the usual port of
the scheme is left out. -/
def readPort (scheme : String) (cs : List Char) : Option (Option Nat × List Char) :=
  match cs with
  | ':' :: rest =>
    let digits := rest.takeWhile isDigit
    let after := rest.dropWhile isDigit
    if !(after.isEmpty || after.head? == some '\\') then none
    else
      match Text.decimal? digits with
      | some p =>
        if p < 65536 then some (if usualPort? scheme == some p then none else some p, after)
        else none
      | none => some (none, after)
  | _ => some (none, cs)

/-! ## §5 Reading -/

/-- The path of a `file:` URI: slashes at its start count once, and
`start` holds the segments before it. -/
def filePathOf (start : List (List Char)) (path : List Char) : List Char :=
  let segments := resolveDots true start ((Text.splitAll '/' path).map (encode inPath))
  '/' :: (segments.flatMap ('/' :: ·)).dropWhile (· == '/')

/-- Whether a path starts with a drive letter. -/
def startsInDrive (path : List Char) : Bool :=
  isDrive ((path.drop 1).takeWhile (· != '/'))

/-- After the scheme `file`. A path that starts with a drive letter has no
host. -/
def readFile (rest : List Char) : Option Uri := do
  let (front, query, fragment) := cutTail rest
  let make (host : Option Host) (path : List Char) : Uri :=
    { scheme := fileScheme, hasAuthority := true
      host := if startsInDrive path then none else host
      path := String.ofList path
      query := encodePart inSpecialQuery query
      fragment := encodePart inFragment fragment }
  match slashed front with
  | '/' :: '/' :: after =>
    let host := after.takeWhile (· != '/')
    let path := (after.dropWhile (· != '/')).drop 1
    if isDrive host then some (make none (filePathOf [] after))
    else if host.isEmpty then some (make none (filePathOf [[]] path))
    else
      let host ← Host.special? host
      if host == .name "localhost" then some (make none (filePathOf [[]] path))
      else some (make (some host) (filePathOf [] path))
  | '/' :: path => some (make none (filePathOf [] path))
  | path => some (make none (filePathOf [] path))

/-- After another special scheme: any number of slashes, an authority and
a path. -/
def readSpecial (scheme : String) (rest : List Char) : Option Uri := do
  let (front, query, fragment) := cutTail rest
  let after := front.dropWhile isSlash
  let (user, hostPort) := cutUserInfo (after.takeWhile (!isSlash ·))
  let (host, port) := cutHost false hostPort
  if host.isEmpty then none
  else
    let host ← Host.special? host
    let (port, _) ← readPort scheme port
    some
      { scheme, hasAuthority := true
        userInfo := userInfoText (user.getD [])
        host := some host
        port
        path := pathOf (Text.splitAll '/' (slashed ((after.dropWhile (!isSlash ·)).drop 1)))
        query := encodePart inSpecialQuery query
        fragment := encodePart inFragment fragment }

/-- After any other scheme: an authority and a path, an absolute path, or
text without structure. An authority with a user or a port has a host. -/
def readOther (scheme : String) (rest : List Char) : Option Uri := do
  let (front, query, fragment) := cutTail rest
  let query := encodePart inQuery query
  let fragment := encodePart inFragment fragment
  match front with
  | '/' :: '/' :: after =>
    let path := after.dropWhile (· != '/')
    let (user, hostPort) := cutUserInfo (after.takeWhile (· != '/'))
    let (host, port) := cutHost false hostPort
    let userInfo := userInfoText (user.getD [])
    if host.isEmpty && (userInfo != "" || !port.isEmpty || (user.isSome && !path.isEmpty)) then
      none
    else
      let host ← if host.isEmpty then some none else (Host.plain? host).map some
      let (port, left) ← readPort scheme port
      some
        { scheme, hasAuthority := true, userInfo, host, port
          path := match left ++ path with
            | [] => ""
            | '/' :: p => pathOf (Text.splitAll '/' p)
            | p => pathOf (Text.splitAll '/' p)
          query, fragment }
  | '/' :: path =>
    some
      { scheme, hasAuthority := false, path := pathOf (Text.splitAll '/' path), query, fragment }
  | path =>
    some
      { scheme, hasAuthority := false, path := String.ofList (encode inControls path)
        query, fragment }

/-- Read an absolute URI. -/
def parse? (s : String) : Option Uri := do
  let (scheme, rest) ← readScheme (clean s.toList)
  if scheme == fileScheme then readFile rest
  else if (usualPort? scheme).isSome then readSpecial scheme rest
  else readOther scheme rest

/-! ## §6 Paths -/

/-- A drive letter at the end of a path stands for a directory. -/
def endsInDrive (cs : List Char) : Bool :=
  match cs.reverse with
  | c :: d :: _ :: _ => (c == ':' || c == '|') && isAlpha d
  | _ => false

/-- The path of a `file:` URI without a host. -/
def filePath? (u : Uri) : Option Path :=
  if u.scheme == fileScheme && u.host.isNone then
    let cs := Text.Utf8.decodeLossy (decode u.path.toList)
    some ⟨String.ofList (if endsInDrive cs then cs ++ ['/'] else cs)⟩
  else none

/-- The text of a component in a URI's path. -/
def componentSegment : Path.Component → List Char
  | .root => []
  | .here => ".".toList
  | .up => "..".toList
  | .name s => encode inSegment s.toList

/-- The `file:` URI of an absolute path. -/
def ofFilePath? (p : Path) : Option Uri :=
  if p.isAbsolute then
    let segments := (p.components.drop 1).map componentSegment
    let path := String.ofList (segments.flatMap ('/' :: ·))
    some { scheme := fileScheme, hasAuthority := true, path := if path == "" then "/" else path }
  else none

end Uri
end FormatHost

/-
FormatHost.Shell.Tool — the system's commands that filter text.

A tool is a function from its words and its input to what it writes. Texts
are bytes here: a character is a byte, a line ends with its line end.

* §1 options and operands;
* §2 lines and fields;
* §3 `cat`, `head`, `tail` and `wc`;
* §4 `sort`, `uniq` and `cut`;
* §5 `tr`;
* §6 names and numbers: `dirname`, `basename`, `seq` and `expr`.
-/
import FormatHost.Shell.Builtin
import FormatHost.Shell.Pattern

namespace FormatHost.Shell.Tool

/-! ## §1 Options -/

/-- The options and operands of a command's words. -/
structure Options where
  options : List (Char × String) := []
  operands : List String := []
  deriving Repr, DecidableEq

namespace Options

def has (o : Options) (c : Char) : Bool := o.options.any (·.1 = c)

/-- The value of the last option of a letter. -/
def value? (o : Options) (c : Char) : Option String := (o.options.reverse.lookup c)

/-- The options of a word after its hyphen: `some` letter at the end that
still needs its value. -/
def letters (valued : List Char) : List Char → List (Char × String) × Option Char
  | [] => ([], none)
  | c :: cs =>
    if valued.contains c then
      if cs.isEmpty then ([], some c) else ([(c, String.ofList cs)], none)
    else
      let (more, left) := letters valued cs
      ((c, "") :: more, left)

/-- Read options, of which those in `valued` have a value. A number alone
after a hyphen is the option `n`. -/
def read (valued : List Char) : List String → Options
  | [] => {}
  | w :: ws =>
    let plain : Options :=
      let rest := read valued ws
      { rest with operands := w :: rest.operands }
    match w.toList with
    | ['-', '-'] => { operands := ws }
    | '-' :: c :: cs =>
      if c.isDigit then
        let rest := read valued ws
        { rest with options := ('n', String.ofList (c :: cs)) :: rest.options }
      else
        match letters valued (c :: cs) with
        | (os, none) =>
          let rest := read valued ws
          { rest with options := os ++ rest.options }
        | (os, some c) =>
          match ws with
          | v :: ws =>
            let rest := read valued ws
            { rest with options := os ++ (c, v) :: rest.options }
          | [] => { options := os ++ [(c, "")] }
    | _ => plain

end Options

/-- A failure with the hint that tools give. -/
def misused (tool : String) (status : Nat) (message : String) : Written :=
  failure status (tool ++ ": " ++ message ++ "\nTry '" ++ tool ++ " --help' for more information.")

def missingOperand (tool : String) : Written := misused tool 1 "missing operand"

/-- What a tool reads: the files it names, or its input. -/
structure Given where
  text : List UInt8 := []
  faults : List String := []

/-- Read files for a tool; a hyphen is its input. -/
def readFiles (m : Machine) (tool : String) (input : List UInt8) : List String → Given
  | [] => {}
  | f :: fs =>
    let rest := readFiles m tool input fs
    if f = "-" then { rest with text := input ++ rest.text }
    else
      match m.disk.readBytes m.cwd ⟨f⟩ with
      | .ok bs => { rest with text := bs ++ rest.text }
      | .error e =>
        let what := match e with
          | .isADirectory => "Is a directory"
          | .notADirectory => "Not a directory"
          | _ => "No such file or directory"
        { rest with faults := (tool ++ ": " ++ f ++ ": " ++ what) :: rest.faults }

def given (m : Machine) (tool : String) (input : List UInt8) (files : List String) : Given :=
  readFiles m tool input (if files.isEmpty then ["-"] else files)

/-- The result of a tool that maps what it reads. -/
def Given.map (g : Given) (f : List UInt8 → List UInt8) : Written :=
  { status := if g.faults.isEmpty then 0 else 1
    output := f g.text
    errors := g.faults.flatMap fun e => bytes (e ++ "\n") }

/-! ## §2 Lines -/

def lineEnd : UInt8 := 10

/-- The lines of a text, each with its end; `open_` is the line so far,
last byte first. -/
def splitLines : List UInt8 → List UInt8 → List (List UInt8)
  | open_, [] => if open_.isEmpty then [] else [open_.reverse]
  | open_, b :: bs =>
    if b = lineEnd then (b :: open_).reverse :: splitLines [] bs else splitLines (b :: open_) bs

def lines (text : List UInt8) : List (List UInt8) := splitLines [] text

/-- A line without its end. -/
def content (line : List UInt8) : List UInt8 := line.filter (· ≠ lineEnd)

/-- Lines of the given contents. -/
def unlines (contents : List (List UInt8)) : List UInt8 := contents.flatMap (· ++ [lineEnd])

def isSpace (b : UInt8) : Bool := b = 32 || (9 ≤ b && b ≤ 13)

/-- The words of a text between blanks; what cannot be printed makes none. -/
def words (text : List UInt8) : List (List UInt8) :=
  (text.splitBy fun a b => isSpace a == isSpace b).filter fun w =>
    w.any fun b => 33 ≤ b && b ≤ 126

def number (s : String) : Nat := (Text.decimal? s.toList).getD 0

/-- A number, filled up to a width with blanks. -/
def padded (width n : Nat) : List UInt8 :=
  let ds := bytes (toString n)
  List.replicate (width - ds.length) 32 ++ ds

/-! ## §3 Parts of a text -/

def cat (m : Machine) (ws : List String) (input : List UInt8) : Written :=
  let o := Options.read [] ws
  (given m "cat" input o.operands).map fun text =>
    if o.has 'n' then
      ((lines text).zipIdx 1).flatMap fun (line, i) => padded 6 i ++ 9 :: line
    else text

/-- A count of lines or bytes: from the front, or all but so many. -/
def takeCount {α : Type} (count : String) (xs : List α) : List α :=
  match count.toList with
  | '-' :: ds => xs.take (xs.length - number (String.ofList ds))
  | _ => xs.take (number count)

/-- A count from the end, or from the item at a number on. -/
def dropCount {α : Type} (count : String) (xs : List α) : List α :=
  match count.toList with
  | '+' :: ds => xs.drop (number (String.ofList ds) - 1)
  | '-' :: ds => xs.drop (xs.length - number (String.ofList ds))
  | _ => xs.drop (xs.length - number count)

def head (m : Machine) (ws : List String) (input : List UInt8) : Written :=
  let o := Options.read ['n', 'c'] ws
  (given m "head" input o.operands).map fun text =>
    match o.value? 'c' with
    | some count => takeCount count text
    | none => (takeCount ((o.value? 'n').getD "10") (lines text)).flatten

def tail (m : Machine) (ws : List String) (input : List UInt8) : Written :=
  let o := Options.read ['n', 'c'] ws
  (given m "tail" input o.operands).map fun text =>
    match o.value? 'c' with
    | some count => dropCount count text
    | none => (dropCount ((o.value? 'n').getD "10") (lines text)).flatten

/-- Count lines, words and bytes. -/
def wc (m : Machine) (ws : List String) (input : List UInt8) : Written :=
  let o := Options.read [] ws
  (given m "wc" input o.operands).map fun text =>
    let all := !(o.has 'l' || o.has 'w' || o.has 'c' || o.has 'm')
    let counts :=
      (if all || o.has 'l' then [text.count lineEnd] else []) ++
      (if all || o.has 'w' then [(words text).length] else []) ++
      (if o.has 'm' then [text.countP fun b => !Text.Utf8.isTail b] else []) ++
      (if all || o.has 'c' then [text.length] else [])
    let width :=
      if counts.length = 1 then 0
      else if o.operands.isEmpty then 7
      else (toString text.length).length
    let name := match o.operands with
      | [f] => 32 :: bytes f
      | _ => []
    ((counts.map (padded width)).intersperse [32]).flatten ++ name ++ [lineEnd]

/-! ## §4 Lines in order -/

/-- The number at the front of a line, in thousandths. -/
def leadingNumber (line : List UInt8) : Int :=
  let cs := (line.dropWhile isSpace).map fun b => Char.ofNat b.toNat
  let (negative, ds) : Bool × List Char := match cs with
    | '-' :: ds => (true, ds)
    | ds => (false, ds)
  let whole := ds.takeWhile Char.isDigit
  let fraction := match ds.drop whole.length with
    | '.' :: more => ((more.takeWhile Char.isDigit) ++ ['0', '0', '0']).take 3
    | _ => ['0', '0', '0']
  let n := (Text.decimal? (whole ++ fraction)).getD 0
  if negative then -(n : Int) else n

/-- The order of bytes. -/
def bytesLe : List UInt8 → List UInt8 → Bool
  | [], _ => true
  | _ :: _, [] => false
  | a :: as, b :: bs => if a = b then bytesLe as bs else a.toNat ≤ b.toNat

def sort (m : Machine) (ws : List String) (input : List UInt8) : Written :=
  let o := Options.read ['k', 't', 'o'] ws
  (given m "sort" input o.operands).map fun text =>
    let le (a b : List UInt8) : Bool :=
      if o.has 'n' ∧ leadingNumber a ≠ leadingNumber b then leadingNumber a ≤ leadingNumber b
      else bytesLe a b
    let sorted := ((lines text).map content).mergeSort fun a b =>
      if o.has 'r' then le b a else le a b
    unlines (if o.has 'u' then sorted.eraseReps else sorted)

def uniq (m : Machine) (ws : List String) (input : List UInt8) : Written :=
  let o := Options.read [] ws
  (given m "uniq" input o.operands).map fun text =>
    let groups := ((lines text).map content).splitBy (· == ·)
    let kept := groups.filter fun g =>
      if o.has 'd' then g.length > 1 else if o.has 'u' then g.length = 1 else true
    kept.flatMap fun g =>
      (if o.has 'c' then padded 7 g.length ++ [32] else []) ++ g.headD [] ++ [lineEnd]

/-- Whether a number is in a list such as `1,3-5,7-`. -/
def inList (list : String) (n : Nat) : Bool :=
  (Text.splitAll ',' list.toList).any fun range =>
    match Text.splitOnce '-' range with
    | some (a, b) =>
      (a.isEmpty || number (String.ofList a) ≤ n) && (b.isEmpty || n ≤ number (String.ofList b))
    | none => number (String.ofList range) = n

/-- The items whose places a list names. -/
def select {α : Type} (list : String) (xs : List α) : List α :=
  ((xs.zipIdx 1).filter fun (_, i) => inList list i).map (·.1)

/-- Cut bytes or fields out of each line. -/
def cut (m : Machine) (ws : List String) (input : List UInt8) : Written :=
  let o := Options.read ['b', 'c', 'd', 'f'] ws
  let separator := ((o.value? 'd').bind fun d => (bytes d).head?).getD 9
  match o.value? 'c' <|> o.value? 'b', o.value? 'f' with
  | some list, _ =>
    (given m "cut" input o.operands).map fun text =>
      unlines ((lines text).map fun l => select list (content l))
  | none, some list =>
    (given m "cut" input o.operands).map fun text =>
      unlines ((lines text).filterMap fun l =>
        let l := content l
        if l.contains separator then
          let fields := (l.foldr (fun b acc =>
            if b = separator then [] :: acc
            else match acc with
              | f :: fs => (b :: f) :: fs
              | [] => [[b]]) [[]])
          some ((select list fields).intersperse [separator]).flatten
        else if o.has 's' then none
        else some l)
  | none, none =>
    misused "cut" 1 "you must specify a list of bytes, characters, or fields"

/-! ## §5 Exchanging bytes -/

/-- The bytes of a named class. -/
def classBytes (name : String) : List UInt8 :=
  ((List.range 128).filter fun n => inClass name (Char.ofNat n)).map UInt8.ofNat

/-- The bytes that a set lists, with classes and ranges written out. -/
def setOf : Nat → List Char → List UInt8
  | 0, _ => []
  | _ + 1, [] => []
  | fuel + 1, '[' :: ':' :: rest =>
    let name := rest.takeWhile (· ≠ ':')
    match rest.drop name.length with
    | ':' :: ']' :: more => classBytes (String.ofList name) ++ setOf fuel more
    | _ => bytes "[:" ++ setOf fuel rest
  | fuel + 1, cs =>
    let one (cs : List Char) : List UInt8 × List Char := match cs with
      | '\\' :: rest =>
        match rest with
        | c :: more =>
          if (escapeByte? c).isSome ∨ isOctal c then
            let (b, rest) := readEscape rest
            ([b], rest)
          else (Text.Utf8.encode [c], more)
        | [] => ([92], [])
      | c :: rest => (Text.Utf8.encode [c], rest)
      | [] => ([], [])
    match one cs with
    | (a, '-' :: c :: rest) =>
      match a, one (c :: rest) with
      | [first], ([last], rest) =>
        (List.range (last.toNat + 1 - first.toNat)).map (fun i => UInt8.ofNat (first.toNat + i)) ++
          setOf fuel rest
      | _, (b, rest) => a ++ 45 :: b ++ setOf fuel rest
    | (a, rest) => a ++ setOf fuel rest

def set (s : String) : List UInt8 := setOf (s.length + 1) s.toList

/-- Each byte of the first set becomes the byte at its place in the
second, whose last byte stands for all that are missing. -/
def exchange (source target : List UInt8) (b : UInt8) : UInt8 :=
  match source.reverse.idxOf? b with
  | none => b
  | some i => (target[source.length - 1 - i]?).getD (target.getLastD b)

/-- Repeated bytes of a set, once each. -/
def squeeze (set : List UInt8) : List UInt8 → List UInt8
  | a :: b :: rest =>
    if a = b ∧ set.contains a then squeeze set (b :: rest) else a :: squeeze set (b :: rest)
  | bs => bs

def tr (ws : List String) (input : List UInt8) : Written :=
  let o := Options.read [] ws
  let complement (s : List UInt8) : List UInt8 :=
    if o.has 'c' || o.has 'C' then
      ((List.range 256).map UInt8.ofNat).filter fun b => !s.contains b
    else s
  match o.operands with
  | [source] =>
    let source := complement (set source)
    if o.has 'd' then { output := input.filter fun b => !source.contains b }
    else if o.has 's' then { output := squeeze source input }
    else misused "tr" 1 ("missing operand after '" ++ o.operands.headD "" ++
      "'\nTwo strings must be given when translating.")
  | [source, target] =>
    let source := complement (set source)
    let target := set target
    if o.has 'd' then
      { output := squeeze target (input.filter fun b => !source.contains b) }
    else
      let out := input.map (exchange source target)
      { output := if o.has 's' then squeeze target out else out }
  | [] => missingOperand "tr"
  | _ :: _ :: extra :: _ => misused "tr" 1 ("extra operand '" ++ extra ++ "'")

/-! ## §6 Names and numbers -/

/-- The text without slashes at its end. -/
def trimSlashes (cs : List Char) : List Char := Text.dropRightWhile (· = '/') cs

/-- The directory part of a path's text. -/
def dirname (s : String) : String :=
  let cs := trimSlashes s.toList
  if cs.isEmpty then (if s = "" then "." else "/")
  else if cs.contains '/' then
    match trimSlashes (Text.dropRightWhile (· ≠ '/') cs) with
    | [] => "/"
    | dir => String.ofList dir
  else "."

/-- The last part of a path's text, less an ending. -/
def basename (s ending : String) : String :=
  let cs := trimSlashes s.toList
  if cs.isEmpty then (if s = "" then "" else "/")
  else
    let last := (cs.reverse.takeWhile (· ≠ '/')).reverse
    match Text.stripFront ending.toList.reverse last.reverse with
    | some (c :: rest) => String.ofList (c :: rest).reverse
    | _ => String.ofList last

def wholeNumber? (s : String) : Option Int :=
  match s.toList with
  | '-' :: ds => (Text.decimal? ds).map fun n => -(n : Int)
  | ds => (Text.decimal? ds).map fun n => (n : Int)

/-- The numbers from one to another, so far apart. -/
def countUp (first step last : Int) : List Int :=
  if step = 0 then []
  else
    let count := ((last - first).fdiv step + 1).toNat
    (List.range count).map fun (i : Nat) => first + step * (i : Int)

def seq (ws : List String) : Written :=
  let write (ns : List Int) : Written :=
    { output := ns.flatMap fun n => bytes (toString n ++ "\n") }
  match ws.map wholeNumber? with
  | [some last] => write (countUp 1 1 last)
  | [some first, some last] => write (countUp first 1 last)
  | [some first, some step, some last] => write (countUp first step last)
  | _ => missingOperand "seq"

/-- The value of two words and an operator. -/
def expr (ws : List String) : Written :=
  let say (s : String) : Written :=
    { status := if s = "" ∨ s = "0" then 1 else 0, output := bytes (s ++ "\n") }
  let truth (b : Bool) : Written := say (if b then "1" else "0")
  match ws with
  | [a] => say a
  | ["length", a] => say (toString a.length)
  | [a, op, b] =>
    match wholeNumber? a, wholeNumber? b with
    | some x, some y =>
      match op with
      | "+" => say (toString (x + y))
      | "-" => say (toString (x - y))
      | "*" => say (toString (x * y))
      | "/" => if y = 0 then failure 2 "expr: division by zero" else say (toString (x.tdiv y))
      | "%" => if y = 0 then failure 2 "expr: division by zero" else say (toString (x.tmod y))
      | "<" => truth (x < y)
      | "<=" => truth (x ≤ y)
      | ">" => truth (x > y)
      | ">=" => truth (x ≥ y)
      | "=" => truth (x = y)
      | "!=" => truth (x ≠ y)
      | _ => failure 2 "expr: syntax error"
    | _, _ =>
      match op with
      | "=" => truth (a = b)
      | "!=" => truth (a ≠ b)
      | "+" | "-" | "*" | "/" | "%" => failure 2 "expr: non-integer argument"
      | _ => failure 2 "expr: syntax error"
  | _ => misused "expr" 2 "missing operand"

end FormatHost.Shell.Tool

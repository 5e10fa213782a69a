import FlowPlan.Host
import FlowPlan.Shell.Pattern
import FlowPlan.Text.Utf8

/-!
# Programs

The programs of a small host. A program is a function of its arguments, of the octets that it is fed and of
the disk, which it only reads; it leaves two streams of octets and an exit status.

## Main definitions

* `Shell.Result` — what a program leaves.
* `Shell.programs` — the programs by name.
-/

namespace FlowPlan.Shell

/-- What a program leaves: its output, its error output and its exit status. -/
structure Result where
  output : Octets := []
  errors : Octets := []
  status : Nat := 0

/-- A program, as a function of its arguments, its input and the disk. -/
abbrev Program := List String → Octets → Disk → Result

namespace Result

def ofText (s : String) : Result := { output := Text.encode s }

def failed (status : Nat) (message : String) : Result :=
  { errors := Text.encode (message ++ "\n"), status := status }

end Result

/-! ## Lines -/

/-- The lines of a stream; a line feed at the very end opens no further line. -/
def linesOf (os : Octets) : List Octets :=
  let pieces := os.splitOn 10
  if pieces.getLast? = some [] then pieces.dropLast else pieces

def unlines (lines : List Octets) : Octets := lines.flatMap (· ++ [10])

/-- The first line does not come after the second, octet by octet. -/
def leOctets : Octets → Octets → Bool
  | [], _ => true
  | _ :: _, [] => false
  | a :: as, b :: bs => a < b || (a = b && leOctets as bs)

/-! ## Files -/

/-- What the system says about a path that cannot be opened. -/
def refusal : Fault → String
  | .disk cause .. => cause.report.2
  | f => f.message

/-- The octets of the named files one after another, or those fed to the program if none is named.
Files that cannot be read are reported. -/
def inputs (program : String) (files : List String) (fed : Octets) (d : Disk) : Result :=
  if files.isEmpty then { output := fed }
  else
    files.foldl
      (fun r file =>
        match d.readText (Path.parse file) with
        | .ok s => { r with output := r.output ++ Text.encode s }
        | .error f =>
          { r with
            errors := r.errors ++ Text.encode s!"{program}: {file}: {refusal f}\n"
            status := 1 })
      {}

/-- Apply a function to the lines of the input. -/
def filterLines (program : String) (f : List Octets → List Octets) : Program := fun files fed d =>
  let r := inputs program files fed d
  { r with output := unlines (f (linesOf r.output)) }

/-! ## Escapes -/

/-- The value of up to three octal digits, and what follows them. -/
def octal : Nat → List Char → Nat → Nat × List Char
  | n + 1, c :: cs, value =>
    if '0' ≤ c && c ≤ '7' then octal n cs (8 * value + (c.toNat - 48)) else (value, c :: cs)
  | _, cs, value => (value, cs)

/-- The octet that a single letter stands for behind a backslash. -/
def escapeOctet? : Char → Option UInt8
  | 'a' => some 7
  | 'b' => some 8
  | 't' => some 9
  | 'n' => some 10
  | 'v' => some 11
  | 'f' => some 12
  | 'r' => some 13
  | '\\' => some 92
  | _ => none

/-- The octets of a text with escapes, one step for each character at most. With `zero` an octal number
begins with a zero. A `\c` ends all output. -/
def unescape (zero : Bool) : Nat → List Char → Octets × Bool
  | 0, _ | _, [] => ([], false)
  | n + 1, '\\' :: c :: cs =>
    if c = 'c' then ([], true)
    else
      let (here, rest) :=
        match escapeOctet? c with
        | some o => ([o], cs)
        | none =>
          if '0' ≤ c && c ≤ '7' && (!zero || c = '0') then
            let (value, rest) := octal 3 (if zero then cs else c :: cs) 0
            ([UInt8.ofNat value], rest)
          else (Text.encode (String.ofList ['\\', c]), cs)
      let (more, ended) := unescape zero n rest
      (here ++ more, ended)
  | n + 1, c :: cs =>
    let (more, ended) := unescape zero n cs
    (Text.encode (String.ofList [c]) ++ more, ended)

/-! ## Writing -/

/-- Write the arguments on one line. -/
def echo : Program := fun args _ _ =>
  let (quiet, args) := match args with
    | "-n" :: args => (true, args)
    | args => (false, args)
  let text := String.intercalate " " args
  let (octets, ended) := unescape true text.length text.toList
  { output := if quiet || ended then octets else octets ++ [10] }

/-- Fill in one format, one step for each character at most; the rest of the arguments is returned. -/
def fill : Nat → List Char → List String → Octets × List String
  | 0, _, args | _, [], args => ([], args)
  | n + 1, '%' :: 's' :: cs, args =>
    let (more, rest) := fill n cs args.tail
    (Text.encode (args.headD "") ++ more, rest)
  | n + 1, '%' :: 'd' :: cs, args =>
    let (more, rest) := fill n cs args.tail
    (Text.encode (toString ((args.headD "").toInt?.getD 0)) ++ more, rest)
  | n + 1, '%' :: '%' :: cs, args =>
    let (more, rest) := fill n cs args
    (37 :: more, rest)
  | n + 1, '\\' :: c :: cs, args =>
    let (here, rest) :=
      match escapeOctet? c with
      | some o => ([o], cs)
      | none =>
        if '0' ≤ c && c ≤ '7' then
          let (value, rest) := octal 3 (c :: cs) 0
          ([UInt8.ofNat value], rest)
        else (Text.encode (String.ofList ['\\', c]), cs)
    let (more, args) := fill n rest args
    (here ++ more, args)
  | n + 1, c :: cs, args =>
    let (more, rest) := fill n cs args
    (Text.encode (String.ofList [c]) ++ more, rest)

/-- Use the format again while arguments remain, at most once for each. -/
def fillAll (format : List Char) : Nat → List String → Octets
  | 0, args => (fill format.length format args).1
  | n + 1, args =>
    let (octets, rest) := fill format.length format args
    if rest.isEmpty || rest.length = args.length then octets else octets ++ fillAll format n rest

/-- Write the arguments in a format. -/
def printf : Program := fun args _ _ =>
  match args with
  | [] => .failed 2 "printf: usage: printf format [arg ...]"
  | format :: args => { output := fillAll format.toList args.length args }

/-! ## Questions -/

/-- Whether a question about one operand is answered with yes. -/
def unaryTest (d : Disk) (question operand : String) : Bool :=
  let path := Path.parse operand
  match question with
  | "-n" => operand ≠ ""
  | "-z" => operand = ""
  | "-e" | "-r" | "-w" => operand ≠ "" && d.exists? path
  | "-f" => operand ≠ "" && d.exists? path && !d.isDir path
  | "-d" | "-x" => operand ≠ "" && d.isDir path
  | "-h" | "-L" => d.isLink path
  | "-s" =>
    match d.readText path with
    | .ok s => !s.isEmpty
    | .error _ => operand ≠ "" && d.isDir path
  | _ => false

/-- Whether a comparison of two operands holds. -/
def binaryTest (a question b : String) : Bool :=
  let numbers (holds : Int → Int → Bool) : Bool := holds (a.toInt?.getD 0) (b.toInt?.getD 0)
  match question with
  | "=" | "==" => a = b
  | "!=" => a ≠ b
  | "-eq" => numbers (· = ·)
  | "-ne" => numbers (· ≠ ·)
  | "-lt" => numbers (· < ·)
  | "-le" => numbers (· ≤ ·)
  | "-gt" => numbers (· > ·)
  | "-ge" => numbers (· ≥ ·)
  | _ => false

/-- Answer a question. -/
def ask (d : Disk) : List String → Bool
  | [] => false
  | [a] => a ≠ ""
  | ["!", a] => a = ""
  | [question, a] => unaryTest d question a
  | "!" :: args => !ask d args
  | [a, question, b] => binaryTest a question b
  | _ => false

def ofAnswer (yes : Bool) : Result := { status := if yes then 0 else 1 }

def test : Program := fun args _ d => ofAnswer (ask d args)

/-- The same in brackets. -/
def bracket : Program := fun args _ d => ofAnswer (ask d args.dropLast)

/-! ## Filters -/

def cat : Program := fun files fed d => inputs "cat" files fed d

/-- A number of lines among the options, as `-3` or `-n 3`, and the other arguments. -/
def lineCount (args : List String) : Nat × List String :=
  match args with
  | "-n" :: n :: rest => (n.toNat?.getD 10, rest)
  | option :: rest =>
    if option.startsWith "-n" then ((option.drop 2).toString.toNat?.getD 10, rest)
    else if option.startsWith "-" then ((option.drop 1).toString.toNat?.getD 10, rest)
    else (10, args)
  | [] => (10, [])

def head : Program := fun args fed d =>
  let (n, files) := lineCount args
  filterLines "head" (·.take n) files fed d

def tail : Program := fun args fed d =>
  let (n, files) := lineCount args
  filterLines "tail" (fun ls => ls.drop (ls.length - n)) files fed d

/-- The letters of the options, and the other arguments. -/
def splitOptions (args : List String) : List Char × List String :=
  let (options, rest) := args.span fun a => a.startsWith "-" && a.length > 1
  (options.flatMap fun o => o.toList.drop 1, rest)

def sort : Program := fun args fed d =>
  let (options, files) := splitOptions args
  let arrange (lines : List Octets) : List Octets :=
    let sorted := lines.mergeSort leOctets
    let sorted := if options.contains 'u' then sorted.eraseDups else sorted
    if options.contains 'r' then sorted.reverse else sorted
  filterLines "sort" arrange files fed d

/-- Count lines, or octets. -/
def wc : Program := fun args fed d =>
  let (options, files) := splitOptions args
  let r := inputs "wc" files fed d
  let n := if options.contains 'c' then r.output.length else r.output.count 10
  { r with output := Text.encode (String.intercalate " " (toString n :: files) ++ "\n") }

/-- Lower-case ASCII letters become capitals. -/
def capitals (cs : List Char) : List Char := cs.map Char.toUpper

/-- The lines in which a pattern is found. -/
def grep : Program := fun args fed d =>
  let (options, rest) := splitOptions args
  match rest with
  | [] => .failed 2 "Usage: grep [OPTION]... PATTERNS [FILE]..."
  | text :: files =>
    let fold (cs : List Char) : List Char := if options.contains 'i' then capitals cs else cs
    let pattern := (if options.contains 'F' then Pattern.literal else Pattern.parse)
      (String.ofList (fold text.toList))
    let r := inputs "grep" files fed d
    let found := (linesOf r.output).filter fun l =>
      pattern.isIn (fold (Text.decodeLossy l)) != options.contains 'v'
    { r with
      output :=
        if options.contains 'q' then []
        else if options.contains 'c' then Text.encode (toString found.length ++ "\n")
        else unlines found
      status := if r.status ≠ 0 then 2 else if found.isEmpty then 1 else 0 }

/-! ## Directories -/

/-- The names in a directory in order; those that start with a point only on demand. -/
def namesIn (d : Disk) (all : Bool) (path : Path) : Option (List String) :=
  match d.locate path with
  | .ok a =>
    if d.find? a = some .dir then
      some (Text.sort (((d.children a).map (·.1)).filter fun name => all || !name.startsWith "."))
    else none
  | .error _ => none

def ls : Program := fun args _ d =>
  let (options, files) := splitOptions args
  let file := files.headD "."
  let path := Path.parse file
  if !d.exists? path then
    .failed 2 s!"ls: cannot access '{file}': No such file or directory"
  else
    match namesIn d (options.contains 'a' || options.contains 'A') path with
    | some names => .ofText (String.join (names.map (· ++ "\n")))
    | none => .ofText (file ++ "\n")

def basename : Program := fun args _ _ => .ofText ((Path.parse (args.headD "")).name ++ "\n")

def dirname : Program := fun args _ _ => .ofText ((Path.parse (args.headD "")).parent.text ++ "\n")

/-! ## All programs -/

/-- Programs that a command finds by name. -/
def programs : Assoc String Program :=
  [("true", fun _ _ _ => {}), ("false", fun _ _ _ => { status := 1 }), ("echo", echo),
   ("printf", printf), ("test", test), ("[", bracket), ("cat", cat), ("head", head), ("tail", tail),
   ("sort", sort), ("wc", wc), ("grep", grep), ("ls", ls), ("basename", basename),
   ("dirname", dirname)]

end FlowPlan.Shell

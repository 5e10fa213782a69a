import FlowPlan.Shell.Programs
import FlowPlan.Shell.Script

/-!
# A small host

The host that the program comes with, for as long as it starts no real programs. A command is one of a few
programs and its arguments. The shell is a program as well: it runs a script, in which streams are joined
and redirected, and which may end by an exit status or by a signal. Nothing but a redirection changes the
disk. No definition of a build depends on this host.

## Main definitions

* `Shell.runScript` — run a script.
* `Shell.host` — the host.
-/

namespace FlowPlan.Shell

/-- Where a stream goes. -/
inductive Sink where
  | main
  | diagnostics
  | file (path : Path)
  deriving DecidableEq, Repr

/-- The state of a running script. -/
structure Running where
  /-- The name of the script and its arguments. -/
  arguments : List String
  disk : Disk
  output : Octets := []
  errors : Octets := []
  status : Nat := 0
  ended : Option Process.Ending := none

namespace Running

/-- The number that stands for the shell's own process. -/
def processNumber : String := "1"

def name (r : Running) : String := r.arguments.headD "sh"

/-- The text of a parameter. -/
def parameter (r : Running) (sign : Char) : String :=
  match sign with
  | '$' => processNumber
  | '?' => toString r.status
  | '#' => toString (r.arguments.length - 1)
  | '@' | '*' => String.intercalate " " r.arguments.tail
  | c => (r.arguments[c.toNat - 48]?).getD ""

def partText (r : Running) : Part → String
  | .text cs => String.ofList cs
  | .parameter sign _ => r.parameter sign

def wordText (r : Running) (w : Word) : String := String.join (w.map r.partText)

/-- A word of nothing but empty plain parameters vanishes. -/
def vanishes (r : Running) (w : Word) : Bool :=
  !w.isEmpty && w.all fun
    | .text _ => false
    | .parameter sign inQuotes => !inQuotes && r.parameter sign = ""

def wordTexts (r : Running) (ws : List Word) : List String :=
  (ws.filter (!r.vanishes ·)).map r.wordText

/-! ## Streams -/

def write (r : Running) (sink : Sink) (os : Octets) : Running :=
  match sink with
  | .main => { r with output := r.output ++ os }
  | .diagnostics => { r with errors := r.errors ++ os }
  | .file path =>
    match r.disk.address path with
    | .ok a => { r with disk := r.disk.append a (String.ofList (Text.decodeLossy os)) }
    | .error _ => r

/-- A complaint of the shell itself. -/
def complain (r : Running) (sink : Sink) (status : Nat) (text : String) : Running :=
  { r.write sink (Text.encode s!"{r.name}: 1: {text}\n") with status := status }

/-- The sinks of output and errors, and what is fed to a command. -/
structure Streams where
  output : Sink := .main
  errors : Sink := .diagnostics
  fed : Octets

def Streams.set (s : Streams) (stream : Nat) (sink : Sink) : Streams :=
  match stream with
  | 1 => { s with output := sink }
  | 2 => { s with errors := sink }
  | _ => s

def Streams.get (s : Streams) (stream : String) : Sink := if stream = "2" then s.errors else s.output

/-- What is written there is lost. -/
def isNull (path : Path) : Bool := path = ⟨"/", ["dev", "null"]⟩

/-- Apply one redirection; fails with a complaint. -/
def redirect (r : Running) (s : Streams) : Redirection → Except String (Running × Streams)
  | .toStream n w => .ok (r, s.set n (s.get (r.wordText w)))
  | .toFile n append w =>
    let file := r.wordText w
    let path := Path.parse file
    if isNull path then .ok (r, s.set n (.file path))
    else
      match if append then r.disk.touch path else r.disk.writeText path "" with
      | .ok d => .ok ({ r with disk := d }, s.set n (.file path))
      | .error (.disk .notFound ..) => .error s!"cannot create {file}: Directory nonexistent"
      | .error f => .error s!"cannot create {file}: {refusal f}"
  | .fromFile w =>
    let file := r.wordText w
    if isNull (Path.parse file) then .ok (r, { s with fed := [] })
    else
      match r.disk.readText (Path.parse file) with
      | .ok text => .ok (r, { s with fed := Text.encode text })
      | .error _ => .error s!"cannot open {file}: No such file"

def redirectAll (r : Running) (s : Streams) (rs : List Redirection) :
    Except String (Running × Streams) :=
  rs.foldlM (fun (r, s) redirection => redirect r s redirection) (r, s)

/-! ## Commands -/

/-- Signals by name. -/
def signalNames : Assoc String Nat :=
  [("HUP", 1), ("INT", 2), ("QUIT", 3), ("ABRT", 6), ("KILL", 9), ("USR1", 10), ("SEGV", 11),
   ("USR2", 12), ("PIPE", 13), ("ALRM", 14), ("TERM", 15)]

/-- Signals that a process survives. -/
def harmlessSignals : List Nat := [0, 17, 18, 19, 20, 21, 22, 23, 28]

def signalOf? (text : String) : Option Nat :=
  match text.toNat? with
  | some n => some n
  | none => Assoc.find? signalNames (if text.startsWith "SIG" then (text.drop 3).toString else text)

/-- The signal and the process that a request names. -/
def signalRequest? : List String → Option (Nat × String)
  | ["-s", signal, process] => (signalOf? signal).map (·, process)
  | [signal, process] =>
    if signal.startsWith "-" then (signalOf? (signal.drop 1).toString).map (·, process) else none
  | [process] => some (15, process)
  | _ => none

/-- Send a signal. Only the shell's own process is known. -/
def kill (r : Running) (errors : Sink) (args : List String) : Running :=
  match signalRequest? args with
  | some (signal, process) =>
    if process = processNumber then
      if harmlessSignals.contains signal then { r with status := 0 }
      else { r with ended := some (.killed signal) }
    else r.complain errors 1 "kill: No such process"
  | none => r.complain errors 2 "kill: Usage: kill [-s sigspec | -signum | -sigspec] [pid | job]..."

/-- End the script. -/
def exit (r : Running) (errors : Sink) (args : List String) : Running :=
  match args with
  | [] => { r with ended := some (.exited r.status) }
  | n :: _ =>
    match n.toNat? with
    | some n => { r with ended := some (.exited (n % 256)) }
    | none => { r.complain errors 2 s!"exit: Illegal number: {n}" with ended := some (.exited 2) }

/-- What the system says about a file that is called as a program. -/
def callRefusal (d : Disk) (name : String) : Nat × String :=
  if d.exists? (Path.parse name) then (126, "Permission denied") else (127, "not found")

/-- The program of a name, which may be given with its usual directory. -/
def program? (name : String) : Option Program :=
  let plain := ["/bin/", "/usr/bin/"].find? (·.isPrefixOf name)
  Assoc.find? programs (match plain with
    | some directory => (name.drop directory.length).toString
    | none => name)

/-- Run a program of the script. -/
def call (r : Running) (s : Streams) (name : String) (args : List String) : Running :=
  match program? name with
  | some p =>
    let result := p args s.fed r.disk
    { (r.write s.errors result.errors).write s.output result.output with status := result.status }
  | none =>
    let (status, text) := if name.contains '/' then callRefusal r.disk name else (127, "not found")
    r.complain s.errors status s!"{name}: {text}"

/-- Run one command. -/
def simple (r : Running) (fed : Octets) (c : Simple) : Running :=
  match r.redirectAll { fed := fed } c.redirections with
  | .error text => r.complain .diagnostics 2 text
  | .ok (r, s) =>
    match r.wordTexts c.words with
    | [] => { r with status := 0 }
    | ":" :: _ => { r with status := 0 }
    | "exit" :: args => r.exit s.errors args
    | "kill" :: args => r.kill s.errors args
    | name :: args => r.call s name args

/-- Run a command that is joined with others: only a signal to the shell ends the script. -/
def joined (r : Running) (fed : Octets) (c : Simple) : Running :=
  let r := r.simple fed c
  match r.ended with
  | some (.exited n) => { r with ended := none, status := n }
  | _ => r

/-- Run joined commands, each fed with the output of the one before. -/
def chain (r : Running) (fed : Octets) : List Simple → Running
  | [] => r
  | [c] => r.joined fed c
  | c :: cs =>
    let shown := r.output
    let r := ({ r with output := [] } : Running).joined fed c
    if r.ended.isSome then { r with output := shown } else chain { r with output := shown } r.output cs

def pipelineOf (r : Running) (p : Pipeline) : Running :=
  let r := match p.commands with
    | [c] => r.simple [] c
    | cs => r.chain [] cs
  if p.negated && r.ended.isNone then { r with status := if r.status = 0 then 1 else 0 } else r

/-- Whether a pipeline is due. -/
def isDue (r : Running) (p : Pipeline) : Bool :=
  r.ended.isNone &&
    match p.condition with
    | .always => true
    | .onSuccess => r.status = 0
    | .onFailure => r.status ≠ 0

/-- Run the pipelines that are due, one after another. -/
def all (r : Running) (ps : List Pipeline) : Running :=
  ps.foldl (fun r p => if r.isDue p then r.pipelineOf p else r) r

end Running

/-- Run a script. The first argument is its name. -/
def runScript (script : String) (arguments : List String) (d : Disk) : Process × Disk :=
  let start : Running := { arguments := arguments, disk := d }
  let r := match Script.parse script with
    | .ok ps => start.all ps
    | .error text => start.complain .diagnostics 2 s!"Syntax error: {text}"
  (⟨r.output, r.errors, r.ended.getD (.exited r.status)⟩, r.disk)

/-- Run the shell with its arguments: a script given as an argument or in a file. -/
def runShell (args : List String) (d : Disk) : Process × Disk :=
  match args with
  | ["-c"] => (⟨[], Text.encode "sh: 0: -c requires an argument\n", .exited 2⟩, d)
  | "-c" :: script :: arguments => runScript script arguments d
  | [] => (⟨[], [], .exited 0⟩, d)
  | file :: _ =>
    match d.readText (Path.parse file) with
    | .ok script => runScript script args d
    | .error _ => (⟨[], Text.encode s!"sh: 0: cannot open {file}: No such file\n", .exited 2⟩, d)

/-- Names under which the shell is called. -/
def shellNames : List String := ["sh", "/bin/sh", "/usr/bin/sh"]

/-- Why a program cannot be started. -/
def startFault (name : String) (d : Disk) : Fault :=
  let cause : DiskCause :=
    if name = "" then .denied
    else if name.contains '/' && d.exists? (Path.parse name) then .denied
    else .notFound
  .disk cause name none

/-- Start a command by its words. -/
def runCommand (words : List String) (d : Disk) : Except String (Process × Disk) :=
  let name := words.headD ""
  if shellNames.contains name then .ok (runShell words.tail d)
  else
    match Running.program? name with
    | some p =>
      let r := p words.tail [] d
      .ok (⟨r.output, r.errors, .exited r.status⟩, d)
    | none => .error (startFault name d).message

/-- The programs and the shell as a host, on which files are never removed. -/
def host : Host where
  start words g := (runCommand words g.disk).map fun (p, d) => (p, { g with disk := d })

end FlowPlan.Shell

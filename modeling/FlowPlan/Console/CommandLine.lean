import FlowPlan.Build.Compile
import FlowPlan.Console.Arguments
import FlowPlan.Console.Markup
import FlowPlan.Document.File
import FlowPlan.Document.Qualified
import FlowPlan.Duration
import FlowPlan.Shell.Run

/-!
# The command line

Four commands: compile a document, print its qualified form, show the pointers of a build root, and
list the units. A command is an action on the site that ends with a reply: what it prints, and how
the program ends. The programs of the host and the reader of YAML are those of its surroundings.

## Main definitions

* `CommandLine.Surroundings` — what a command does not bring along.
* `CommandLine.Reply` — what a command prints and how it ends.
* `CommandLine.run` — the command that some arguments ask for.
-/

namespace FlowPlan.CommandLine

/-- What a command finds: the programs of the host, a reader of YAML, and the working directory. -/
structure Surroundings where
  host : Host
  yaml : List Char → Option Json
  directory : Path

/-- Read a text of YAML that is blank or a text of JSON. -/
def plainYaml? (cs : List Char) : Option Json :=
  if cs.all Char.isWhitespace then some .null else Json.parse? cs

/-- Surroundings with a few programs and plain texts of YAML. -/
def Surroundings.plain (directory : Path) : Surroundings := ⟨Shell.host, plainYaml?, directory⟩

/-- How the program ends. -/
inductive Ending where
  | exited (status : Int)
  /-- The arguments make no sense. -/
  | misused
  /-- A fault that no command expects. -/
  | crashed (f : Fault)

structure Reply where
  output : String := ""
  errors : String := ""
  ending : Ending := .exited 0

namespace Reply

def misuse : Reply := { ending := .misused }

def crash (f : Fault) (output : String := "") : Reply := { output := output, ending := .crashed f }

/-- The reply with more text before its error output. -/
def after (r : Reply) (errors : List String) : Reply :=
  { r with errors := String.join (errors.map (· ++ "\n")) ++ r.errors }

end Reply

/-! ## Messages -/

/-- A message behind its mark. -/
def marked (mark message : String) : Attempt String := do
  let shown ← Markup.plain message
  return s!"{mark} {shown}\n"

/-- End with an error message. -/
def failure (status : Int) (message : String) : Reply :=
  match marked "✗" message with
  | .ok line => { errors := line, ending := .exited status }
  | .error f => .crash f

/-- A text filled up with blanks on the right. -/
def padded (width : Nat) (s : String) : String :=
  s ++ String.ofList (List.replicate (width - s.length) ' ')

/-- Print lines one after another; the first that cannot be printed ends the program. -/
def printAll (printed : String) : List (Attempt String) → Reply
  | [] => { output := printed }
  | .ok line :: rest => printAll (printed ++ line) rest
  | .error f :: _ => .crash f printed

/-! ## Reading input -/

/-- The project, which is the working directory unless it is given. -/
def projectOf (a : Arguments) (e : Surroundings) : Path :=
  match a.value? "project" with
  | some p => Path.parse p
  | none => e.directory

def configOf (a : Arguments) : Option Path := (a.value? "config").map Path.parse

def loadSettings (a : Arguments) (e : Surroundings) : Session (Attempt Settings) :=
  Action.outcome (Session.read (Settings.loadWith e.yaml (configOf a) (projectOf a e)))

/-- A document, or the reply that ends the program. -/
def loadDocument (e : Surroundings) (path : Path) : Session (Except Reply Json) := do
  match ← Action.outcome (Session.read (Document.load e.yaml path)) with
  | .ok document => return .ok document
  | .error f => return .error (if f.isBadContent then failure 2 f.message else .crash f)

/-- A file that a command is to read has to be there. -/
def isFile (d : Disk) (path : String) : Bool :=
  d.exists? (Path.parse path) && !d.isDir (Path.parse path)

/-- A directory may be missing. -/
def mayBeDirectory (d : Disk) (path : String) : Bool :=
  !d.exists? (Path.parse path) || d.isDir (Path.parse path)

/-- The paths among the arguments lead to what they should. -/
def areSound (a : Arguments) (d : Disk) : Bool :=
  a.operands.all (isFile d) && (a.value? "project").all (mayBeDirectory d) &&
    (a.value? "config").all (isFile d)

/-! ## Compiling -/

/-- The line drawn above a build. -/
def banner (path : Path) : Attempt String := do
  let title ← Markup.plain ("ddcompile " ++ path.name)
  return s!"─ {title} ─\n"

/-- What is said of a good build. -/
def success (built : Built) (asJson : Bool) : List (Attempt String) :=
  if asJson then [.ok (built.toJson.page ++ "\n")]
  else
    let duration := (Duration.text (.float built.seconds)).toOption.getD ""
    marked "✓" s!"Compiled {built.key} in {duration}" ::
      (if built.previous.truthy then
        [marked "ℹ" s!"Previous build kept as compiled-backup ({built.previous.display})"]
      else [])

/-- Build, and reply with what was printed before and by the build. -/
def build (builder : Builder) (document : Json) (printed : String) (asJson : Bool) : Session Reply := do
  Action.modify fun s => { s with console := [], excerpt := [] }
  let outcome ← Action.outcome (builder.run document)
  let reported ← Action.look fun s => s.console ++ s.excerpt
  match outcome with
  | .ok built => return (printAll printed (success built asJson)).after reported
  | .error f =>
    let reply :=
      if f.isBuildFailure then failure f.exitStatus s!"Build failed: {f.message}" else .crash f
    return { reply with output := printed ++ reply.output }.after reported

/-- Compile a document. -/
def compile (e : Surroundings) (a : Arguments) (input : String) : Session Reply := do
  match ← loadSettings a e with
  | .error (.config text status) =>
    return failure (Fault.config text status).exitStatus s!"Configuration invalid: {text}"
  | .error f => return .crash f
  | .ok settings =>
    match ← loadDocument e (Path.parse input) with
    | .error reply => return reply
    | .ok document =>
      let asJson := (a.switch? "json").getD false
      let wait := if (a.switch? "wait").getD false then some true else none
      let builder := Builder.ofSettings e.host settings .standard ((a.switch? "verbose").map (!·)) wait
      if builder.quiet || asJson then build builder document "" asJson
      else
        match banner (Path.parse input) with
        | .ok line => build builder document line asJson
        | .error f => return .crash f

/-! ## The other commands -/

/-- Print the qualified form of a document. -/
def qualify (e : Surroundings) (input : String) : Session Reply := do
  match ← loadDocument e (Path.parse input) with
  | .error reply => return reply
  | .ok document =>
    match Document.qualify document with
    | .ok qualified => return { output := qualified.artifactText }
    | .error f => return .crash f

/-- The lines on a record. -/
def recordLines (name key : String) (r : Record) : List (Attempt String) :=
  let ending := if r.exitStatus.truthy then s!" (exit {r.exitStatus.display})" else ""
  let line := s!"{padded 16 name} {key}  {r.status.display}{ending}"
  let shown (text : String) : Attempt String := (Markup.plain text).map (· ++ "\n")
  let blank := padded 16 ""
  shown line :: (if r.error.truthy then [shown s!"{blank} {r.error.display}"] else [])

/-- The lines on what an alias is bound to. -/
def aliasLines (b : BuildDir) (d : Disk) (name : String) : Json → List (Attempt String)
  | .null => []
  | .str key =>
    match (b.workspace key).load d with
    | .ok r => recordLines name key r
    | .error (.workspace ..) | .error (.locked ..) =>
      [marked "⚠" s!"{padded 16 name} {key}  (workspace missing)"]
    | .error f => [.error f]
  | v => [BuildDir.notKey v]

/-- Show the pointers and the workspaces that they are bound to. -/
def status (e : Surroundings) (a : Arguments) : Session Reply := do
  let refused (f : Fault) : Reply :=
    if f.isBuildFailure then failure f.exitStatus s!"Could not retrieve status: {f.message}" else .crash f
  match ← loadSettings a e with
  | .error f => return refused f
  | .ok settings =>
    let b : BuildDir := ⟨settings.root, settings.links⟩
    match ← Action.outcome b.pointers.read with
    | .error f => return refused f
    | .ok [] => return printAll "" [marked "ℹ" s!"No builds found in {b.root.text}"]
    | .ok bindings =>
      let d ← Action.look Site.disk
      let lines := Pointers.aliases.flatMap fun name =>
        aliasLines b d name ((Assoc.find? bindings name).getD .null)
      return printAll "" (marked "ℹ" s!"Build directory: {b.root.text}" :: lines)

/-- A line of the list of units. -/
def unitLine (name rest : String) : String := s!"  {padded 28 name} {rest}\n"

/-- List the units. -/
def listUnits (c : Catalogs) : Attempt String := do
  let stages := (← c.stages.units).map fun s =>
    unitLine s.name s!"{s.requires.name} -> {s.produces.name}"
  let generators := (← c.generators.units).map fun g => unitLine g.name g.description
  let checks := (← c.checks.units).map fun c =>
    unitLine c.name s!"[{c.phase.display}] {c.description}"
  return "Stages (in execution order):\n" ++ String.join stages ++ "\nGenerators:\n" ++
    String.join generators ++ "\nChecks:\n" ++ String.join checks

/-! ## Commands -/

def version : String := "0.1.0"

def projectOptions : OptionTable :=
  [("--project", .takesValue "project"), ("--config", .takesValue "config")]

def compileOptions : OptionTable :=
  projectOptions ++
    [("--verbose", .sets "verbose" true), ("--quiet", .sets "verbose" false), ("--wait", .sets "wait" true),
     ("--json", .sets "json" true)]

/-- Run a command on arguments that it understands. -/
def withArguments (table : OptionTable) (arguments : List String)
    (command : Arguments → Session Reply) : Session Reply := do
  match Arguments.read? table {} arguments with
  | none => return .misuse
  | some a =>
    let d ← Action.look Site.disk
    if areSound a d then command a else return .misuse

/-- Run a command with a single operand. -/
def withInput (a : Arguments) (command : String → Session Reply) : Session Reply :=
  match a.operands with
  | [input] => command input
  | _ => return .misuse

/-- Run a command without operands. -/
def withoutInput (a : Arguments) (command : Session Reply) : Session Reply :=
  if a.operands.isEmpty then command else return .misuse

/-- Run the command that the arguments ask for. -/
def run (e : Surroundings) : List String → Session Reply
  | "--version" :: _ => return { output := s!"ddcompile, version {version}\n" }
  | "compile" :: rest => withArguments compileOptions rest fun a =>
      withInput a (compile e a)
  | "qualify" :: rest => withArguments [] rest fun a => withInput a (qualify e)
  | "status" :: rest => withArguments projectOptions rest fun a => withoutInput a (status e a)
  | "list" :: rest => withArguments [] rest fun a =>
      withoutInput a <|
        match listUnits .standard with
        | .ok text => return { output := text }
        | .error f => return .crash f
  | _ => return .misuse

end FlowPlan.CommandLine

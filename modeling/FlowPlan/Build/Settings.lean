import FlowPlan.Disk.Basic
import FlowPlan.Text.Blank
import FlowPlan.Text.Upper

/-!
# Settings of a build

The settings come from a mapping with a few sections, each of which may be left out. Reading them
fixes the kinds of the sections; whether the values make sense is judged separately, so that a
caller may go on without. The parser of settings files is a parameter.

## Main definitions

* `Settings.ofJson` — read the settings.
* `Settings.check` — judge them.
* `Settings.loadWith` — read and judge the settings of a project.
-/

namespace FlowPlan

/-- A command that judges an artifact. -/
structure CommandSettings where
  name : String
  phase : Json
  words : List Json

structure Settings where
  project : Path
  /-- The build root as it is given, seen from the project. -/
  buildRoot : Path
  /-- The greatest number of generators that run at once; null sets no limit. -/
  maxWorkers : Json
  waitForLock : Bool
  /-- Whether pointers are shown as links. -/
  links : Bool
  logMode : Json
  logLevel : String
  logFormat : Json
  disabledStages : List Json
  disabledGenerators : List Json
  disabledChecks : List Json
  commands : Assoc String CommandSettings

/-! ## Commands -/

namespace CommandSettings

/-- The words of a command: a text is cut at its blanks. -/
def wordsOf : Json → Attempt (List Json)
  | .str s => .ok ((Text.words s).map .str)
  | v => if v.truthy then v.elements else .ok []

def ofJson (name : String) (v : Json) : Attempt CommandSettings := do
  let data := if v.truthy then v else .obj []
  let phase ← data.getD "phase" (.str "plan")
  let command ← data.getD "command" .null
  return ⟨name, phase, ← wordsOf command⟩

def phases : List Json := [.str "plan", .str "code"]

/-- A command has a known phase and at least one word. -/
def check (c : CommandSettings) : Attempt Unit :=
  if !phases.contains c.phase then
    .error (.config
      s!"Check {c.name}: phase must be one of {Json.notatedTuple phases}, got '{c.phase.display}'" none)
  else if c.words.isEmpty then .error (.config s!"Check {c.name}: missing 'command'" none)
  else .ok ()

def text (c : CommandSettings) : String :=
  s!"CommandCheckConfig(name={c.name}, phase={c.phase.display})"

end CommandSettings

namespace Settings

/-! ## Reading -/

/-- A section, empty if nothing is given. -/
def sectionOf (raw : Json) (name : String) : Attempt Json := do
  let given ← raw.getD name .null
  if !given.truthy then return .obj []
  else if given.isObj then return given
  else throw (.config s!"Section '{name}' must be a mapping" none)

def pathOf : Json → Attempt Path
  | .str s => .ok (Path.parse s)
  | v => Json.misuse (.wrongKind s!"a path has to be a text, not {v.kindName}")

/-- The units that a section disables. -/
def disabledIn (section_ : Json) : Attempt (List Json) := do
  (← section_.getD "disabled" (.arr [])).elements

def commandsIn (validation : Json) : Attempt (Assoc String CommandSettings) := do
  let given ← validation.getD "commands" .null
  let entries ← (if given.truthy then given else .obj []).items
  entries.mapM fun (name, v) => return (name, ← CommandSettings.ofJson name v)

/-- Read the settings of a project. -/
def ofJson (given : Json) (project : Path) : Attempt Settings := do
  let raw := if given.truthy then given else .obj []
  let build ← sectionOf raw "build"
  let buildRoot ← pathOf (← build.getD "root" (.str "run"))
  let maxWorkers ← build.getD "max_workers" .null
  let waitForLock ← build.getD "lock_wait" (.bool false)
  let links ← build.getD "links" (.bool true)
  let logging ← sectionOf raw "logging"
  let logMode ← logging.getD "mode" (.str "quiet")
  let logLevel ← logging.getD "level" (.str "INFO")
  let logFormat ← logging.getD "format" (.str "structured")
  let disabledStages ← disabledIn (← sectionOf raw "stages")
  let disabledGenerators ← disabledIn (← sectionOf raw "generators")
  let validation ← sectionOf raw "validation"
  let disabledChecks ← disabledIn validation
  let commands ← commandsIn validation
  return {
    project, buildRoot, maxWorkers, logMode, logFormat, disabledStages, disabledGenerators,
    disabledChecks, commands
    waitForLock := waitForLock.truthy
    links := links.truthy
    logLevel := Text.upper logLevel.display }

/-- The build root, seen from where the project is seen. -/
def root (s : Settings) : Path := s.project.join s.buildRoot

/-- A quiet build writes nothing but a report of its failure. -/
def isQuiet (s : Settings) : Bool := s.logMode = .str "quiet"

def text (s : Settings) : String :=
  s!"BuildConfig(project_dir={s.project.text}, build_root={s.buildRoot.text})"

/-! ## Judging -/

def modes : List Json := [.str "quiet", .str "verbose"]

def formats : List Json := [.str "structured", .str "pretty"]

def levels : List String := ["DEBUG", "INFO", "WARNING", "ERROR", "CRITICAL"]

/-- A whole number from one on, or none. A truth value is a number. -/
def isWorkerCount : Json → Bool
  | .null => true
  | v => v.position?.any (0 < ·)

/-- A value has to be one of a few. -/
def checkChoice (name : String) (choices : List Json) (v : Json) : Attempt Unit :=
  if choices.contains v then .ok ()
  else .error (.config s!"{name} must be one of {Json.notatedTuple choices}, got '{v.display}'" none)

/-- The fault of one command, under the command's name. -/
def checkCommand (name : String) (c : CommandSettings) : Attempt Unit :=
  match c.check with
  | .error (.config text _) => .error (.config s!"Check '{name}' validation failed: {text}" none)
  | r => r

/-- Judge the settings; the first value that makes no sense is reported. -/
def check (s : Settings) : Attempt Unit := do
  if !isWorkerCount s.maxWorkers then
    throw (.config s!"build.max_workers must be a positive integer, got {s.maxWorkers.notated}" none)
  checkChoice "logging.mode" modes s.logMode
  checkChoice "logging.format" formats s.logFormat
  if !levels.contains s.logLevel then
    throw (.config s!"logging.level is not a level name: {s.logLevel}" none)
  s.commands.forM fun (name, c) => checkCommand name c

/-! ## Files -/

/-- Where a project keeps its settings unless told otherwise. -/
def fileName : String := "ddcompile.yaml"

/-- The value that a parser finds in a settings file. -/
def valueWith (parse : List Char → Option Json) (path : Path) (text : List Char) : Attempt Json :=
  match parse text with
  | none => .error (.config s!"Invalid YAML syntax: {Fault.malformedText}" none)
  | some v =>
    if !v.truthy then .ok (.obj [])
    else if v.isObj then .ok v
    else .error (.config s!"Configuration file must contain a mapping: {path.text}" none)

/-- Read and judge settings. -/
def accept (given : Json) (project : Path) : Attempt Settings := do
  let s ← ofJson given project
  s.check
  return s

/-- Read and judge the settings of a project, with any parser. A file that is asked for has to be there;
the usual file may be missing. -/
def loadWith (parse : List Char → Option Json) (asked : Option Path) (project : Path) (d : Disk) :
    Attempt Settings :=
  let path := asked.getD (project.child fileName)
  if d.exists? path then do accept (← valueWith parse path (← d.readText path).toList) project
  else
    match asked with
    | some path => .error (.config s!"Configuration file not found: {path.text}" none)
    | none => accept (.obj []) project

end Settings

end FlowPlan

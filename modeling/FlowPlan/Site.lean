import FlowPlan.Action
import FlowPlan.Build.Record
import FlowPlan.Disk.Basic
import FlowPlan.Log.Record
import FlowPlan.Text.Upper

/-!
# The site of a build

What a build acts on and what it leaves: the disk, the locks held on files, the records of the
attempts in progress, the sinks of the log, the lines written to the console and to the failure
report, and the clock.

## Main definitions

* `Site` — the state, and `Session`, the actions on it.
* `Session.read`, `Session.write` — one step on the disk.
* `Session.report` — one record for the log.
* `Session.openLog`, `Session.closeLog` — where records go.
-/

namespace FlowPlan

/-- How the log file is written. -/
inductive LogStyle where
  | structured
  | readable
  deriving DecidableEq, Repr

/-- Where records go. Records below the threshold go nowhere. -/
structure Journal where
  threshold : Severity
  file : Option (Address × LogStyle)
  console : Bool

/-- No sink is open. -/
def Journal.closed : Journal := ⟨Severity.warning, none, false⟩

structure Site where
  disk : Disk
  /-- The files on which someone holds a lock. -/
  locked : List Address
  /-- The records of the attempts in progress, by the paths of their workspaces. -/
  records : Assoc String Record
  journal : Journal
  /-- The lines that the log wrote to the console. -/
  console : List String
  /-- The lines of failure reports. -/
  excerpt : List String
  clock : Instant

namespace Site

/-- A site with nothing but a disk and the time. -/
def ofDisk (disk : Disk) (clock : Instant) : Site := ⟨disk, [], [], .closed, [], [], clock⟩

/-- The line of a record in the log file. -/
def fileLine (style : LogStyle) (now : Instant) (r : LogRecord) : String :=
  match style with
  | .structured => r.structuredLine now ++ "\n"
  | .readable => r.readableLine now ++ "\n"

/-- Hand a record to the open sinks. -/
def record (s : Site) (r : LogRecord) : Site :=
  if r.severity < s.journal.threshold then s
  else
    let disk := match s.journal.file with
      | some (a, style) => s.disk.append a (fileLine style s.clock r)
      | none => s.disk
    { s with disk := disk, console := if s.journal.console then s.console ++ [r.consoleLine] else s.console }

end Site

/-- Actions on a site. -/
abbrev Session := Action Site Fault

namespace Session

/-- Look something up on the disk. -/
def read (f : Disk → Attempt α) : Session α := Action.atomic fun s => (f s.disk, s)

/-- Change the disk in one step; a change that is refused leaves it as it was. -/
def write (f : Disk → Disk.Change) : Session Unit := Action.atomic fun s =>
  match f s.disk with
  | .ok d => (.ok (), { s with disk := d })
  | .error e => (.error e, s)

def now : Session Instant := Action.look Site.clock

def report (r : LogRecord) : Session Unit := Action.modify (·.record r)

/-- Report a detail. -/
def debug (logger message : String) (event : Option String := none) (metadata : Option Json := none) :
    Session Unit :=
  report
    { severity := .debug, logger := logger, message := message, event := event.map .str, metadata := metadata }

/-- Report a piece of news. -/
def info (logger message event : String) (stage : Option String := none)
    (metadata : Option Json := none) : Session Unit :=
  report
    { severity := .info, logger := logger, message := message, stage := stage.map .str, event := some (.str event),
      metadata := metadata }

/-- Report an error. -/
def error (logger message event : String) (stage : Option String := none)
    (metadata : Option Json := none) (fault : Option Fault := none) : Session Unit :=
  report
    { severity := .error, logger := logger, message := message, stage := stage.map .str,
      event := some (.str event), metadata := metadata, fault := fault }

/-- Close every sink. The threshold stays. -/
def closeLog : Session Unit :=
  Action.modify fun s => { s with journal := { s.journal with file := none, console := false } }

/-- The threshold that a severity's name sets; without one of its own, a log takes warnings and what is
worse. -/
def thresholdOf (name : String) : Attempt Severity :=
  match Assoc.find? Severity.named name with
  | some 0 => .ok Severity.warning
  | some s => .ok s
  | none => Json.misuse (.noMember "module" name)

/-- Open the sinks of a build's log. Earlier sinks are closed once the severity is known to exist. -/
def openLog (path : Path) (severityName : String) (style : LogStyle) (console : Bool) : Session Unit := do
  write (·.makeDirs path.parent)
  let threshold ← Action.lift (thresholdOf (Text.upper severityName))
  Action.modify fun s => { s with journal := ⟨threshold, none, false⟩ }
  write (·.touch path)
  let address ← read (·.address path)
  Action.modify fun s => { s with journal := ⟨threshold, some (address, style), console⟩ }

end Session

end FlowPlan

import FlowPlan.Host
import FlowPlan.Site
import FlowPlan.Text.Blank
import FlowPlan.Text.Lines
import FlowPlan.Text.Utf8
import FlowPlan.Unit.Basic

/-!
# The gate

Between the phases of a build a gate runs the checks of one phase, all of them in the order of their
names, and closes if any check has something to say.

## Main definitions

* `Check.evaluate` — the verdict of one check.
* `Gate.run` — the verdicts of all checks of a phase.
-/

namespace FlowPlan

/-- What came of one check. -/
structure Verdict where
  check : String
  messages : List Json
  /-- The exit status of a command that failed. -/
  exitStatus : Option Int := none
  deriving DecidableEq, Repr

namespace Verdict

/-- A check passes if it has nothing to say. -/
def passed (v : Verdict) : Bool := v.messages.isEmpty

def toJson (v : Verdict) : Json :=
  .obj [("name", .str v.check), ("passed", .bool v.passed), ("messages", .arr v.messages),
    ("exit_status", (v.exitStatus.map .int).getD .null)]

end Verdict

namespace Check

def logger : String := "ddcompile.validation"

/-! ## Functions -/

/-- The verdict of a function. Its failure counts as a message, unless it ends the program. -/
def evaluateFunction (name : String) (messages : Attempt (List Json)) : Session Verdict :=
  match messages with
  | .ok ms => return ⟨name, ms, none⟩
  | .error f => do
    if !f.isOrdinary then Action.fail f
    Session.error logger s!"Check {name} raised: {f.message}" "check_error" (some name) none (some f)
    return ⟨name, [.str s!"{f.label}: {f.message}"], none⟩

/-! ## Commands -/

/-- The lines that a command wrote, in text of any kind of line end; blanks at both ends are cut off.
The error output comes first if there is any. -/
def commentary (output errors : List Char) : List String :=
  let text := Text.unifyNewlines (if errors.isEmpty then output else errors)
  Text.messageLines (Text.trim (String.ofList text))

/-- The status as messages give it, negative for a signal, and the one that the build ends with. -/
def statusOf : Process.Ending → Int × Int
  | .exited n => (n, n)
  | .killed n => (-n, 128 + n)

/-- The verdict on a command that has ended. -/
def commandVerdict (name command : String) (p : Process) : Attempt Verdict := do
  let decode (os : Octets) : Attempt (List Char) :=
    (Text.decode os).mapError fun broken => .undecodable broken.text
  let output ← decode p.output
  let errors ← decode p.errors
  if p.ending = .exited 0 then return ⟨name, [], none⟩
  else
    let (shown, status) := statusOf p.ending
    let messages := s!"{command} exited with status {shown}" :: commentary output errors
    return ⟨name, messages.map .str, some status⟩

/-- Start a command of the host and wait for its end. That the system refuses it is an answer as well, but
words with a null character cannot be handed to the system. -/
def start (host : Host) (words : List String) : Session (Except String Process) := Action.atomic fun s =>
  match words.forM Disk.checkName with
  | .error f => (.error f, s)
  | .ok () =>
    match host.start words ⟨s.disk, s.locked⟩ with
    | .ok (p, g) => (.ok (.ok p), { s with disk := g.disk, locked := g.locked })
    | .error text => (.ok (.error text), s)

/-- The verdict of a command on an artifact, whose path is the last argument. -/
def evaluateCommand (host : Host) (name : String) (words : List String) (artifact : Option Path) :
    Session Verdict := do
  match artifact with
  | none => return ⟨name, [.str "no artifact to check"], none⟩
  | some path =>
    let call := words ++ [path.text]
    let command := call.headD ""
    Session.debug logger ("Running check command: " ++ String.intercalate " " call)
    match ← start host call with
    | .ok p => Action.lift (commandVerdict name command p)
    | .error text => return ⟨name, [.str s!"cannot run {command}: {text}"], none⟩

/-! ## Checks -/

/-- The verdict of a check, and what it leaves of the subject. -/
def evaluate (c : Check) (host : Host) (subject : Json) (artifact : Option Path) :
    Session (Verdict × Json) := do
  match c.judge with
  | .function examine =>
    let (messages, after) := examine subject
    return (← evaluateFunction c.name messages, after)
  | .command words => return (← evaluateCommand host c.name words artifact, subject)

end Check

namespace Gate

/-- Report a verdict. -/
def report (phase : Json) (v : Verdict) : Session Unit :=
  if v.passed then
    Session.info Check.logger s!"Check {v.check} passed" "check_passed" (some v.check)
  else
    v.messages.forM fun message =>
      Session.error Check.logger s!"Check {v.check} failed: {message.display}" "check_failed"
        (some v.check) (some (.obj [("phase", phase)]))

/-- Run checks one after another on one subject. -/
def runChecks (host : Host) (phase : Json) (artifact : Option Path) (subject : Json) :
    List Check → Session (List Verdict)
  | [] => return []
  | c :: rest => do
    let (v, after) ← c.evaluate host subject artifact
    report phase v
    return v :: (← runChecks host phase artifact after rest)

/-- The checks of a phase in the order of their names. -/
def checksOf (phase : Json) (checks : List Check) : List Check :=
  (Text.sortOn Check.name checks).filter (·.phase = phase)

/-- The fault of a phase, if any check failed. The first of them decides the exit status. -/
def fault? (phase : Json) (verdicts : List Verdict) : Option Fault :=
  match verdicts.filter (!·.passed) with
  | [] => none
  | v :: rest =>
    let failures := Assoc.ofEntries ((v :: rest).map fun v => (v.check, v.messages))
    some (.validationFailed phase.display failures v.exitStatus)

/-- Run all checks of a phase on a subject. -/
def run (host : Host) (checks : List Check) (phase : Json) (subject : Json) (artifact : Option Path) :
    Session (List Verdict) := do
  let verdicts ← runChecks host phase artifact subject (checksOf phase checks)
  match fault? phase verdicts with
  | some f => Action.fail f
  | none => return verdicts

end Gate

end FlowPlan

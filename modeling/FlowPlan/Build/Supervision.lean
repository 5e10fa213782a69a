import FlowPlan.Build.Workspace
import FlowPlan.Log.Excerpt

/-!
# Supervision

An attempt runs under supervision, so that every outcome leaves evidence. At its start the workspace
becomes the latest and the running one. At a good end it is no longer running and its record is
completed. At any failure it becomes the aborted one, its record says why, and a quiet build reports
the lines of the log that tell of errors. The failure itself always goes on.

## Main definitions

* `Supervision.enter`, `Supervision.complete`, `Supervision.abort` — the three moments.
* `Supervision.supervise` — an attempt between them.
-/

namespace FlowPlan

/-- An attempt in a workspace; a quiet one reports at most so many lines of its log. -/
structure Supervision where
  directory : BuildDir
  workspace : Workspace
  quiet : Bool
  excerptLines : Int := 50

namespace Supervision

def logger : String := "ddcompile.supervisor"

variable (v : Supervision)

def key : Json := .str v.workspace.key

/-- The attempt begins. -/
def enter : Session Unit := do
  discard (v.directory.pointers.update [(Pointers.latest, v.key), (Pointers.running, v.key)])
  Session.info logger s!"Build started in workspace {v.workspace.key}" "build_started" none
    (some (.obj [("workspace", v.key)]))

/-- Mark the record as completed, unless it has an end already. -/
def completeRecord : Session Unit := do
  if (← v.workspace.record).status = .str Record.running then
    v.workspace.finish (.str Record.completed) (.int 0) .null

/-- The attempt ends well. -/
def complete : Session Unit := do
  v.completeRecord
  v.workspace.saveRecord
  discard (v.directory.pointers.removeIf Pointers.running v.key)
  Session.info logger s!"Build completed in workspace {v.workspace.key}" "build_completed"

/-! ## Failure -/

/-- Write down the failure: first the record, then the pointers. -/
def recordFailure (f : Fault) : Session Unit := do
  v.workspace.finish (.str Record.aborted) f.recordedStatus (.str f.describe)
  v.workspace.saveRecord
  v.directory.pointers.set Pointers.aborted v.key
  discard (v.directory.pointers.removeIf Pointers.running v.key)

/-- The lines of the log that tell of errors; there are none without a log. -/
def excerpt (limit : Int) (log : Path) (d : Disk) : Attempt (List String) := do
  if !d.exists? log then return []
  else if limit < 0 then Json.misuse (.outOfBounds "the number of lines is negative")
  else return Excerpt.ofText (← d.readText log).toList limit.toNat

/-- Report the failure, under the name of the log. -/
def reportFailure : Session Unit := do
  let log := v.workspace.logPath
  let lines ← Session.read (excerpt v.excerptLines log)
  Action.modify fun s =>
    { s with excerpt := s.excerpt ++ s!"Build failed, see {log.text}" :: lines }

/-- What the log says about a failure. -/
def abortion (f : Fault) : Json :=
  .obj [("exit_status", f.recordedStatus), ("error_type", .str f.label)]

/-- The attempt ends with a failure. Whatever cannot be written down is only reported. -/
def abort (f : Fault) : Session Unit := do
  Session.error logger s!"Build aborted: {f.message}" "build_aborted" none (some (abortion f))
    (if f.isBuildFailure then none else some f)
  match ← Action.outcome (v.recordFailure f) with
  | .ok () => pure ()
  | .error g =>
    Session.error logger s!"Could not record aborted workspace {v.workspace.key}: {g.message}"
      "bookkeeping_failed"
  if v.quiet then v.reportFailure

/-- Run an attempt. A failure at the very start is not one of the attempt. -/
def supervise (attempt : Session α) : Session α := do
  v.enter
  match ← Action.outcome attempt with
  | .ok a =>
    v.complete
    return a
  | .error f =>
    v.abort f
    Action.fail f

end Supervision

end FlowPlan

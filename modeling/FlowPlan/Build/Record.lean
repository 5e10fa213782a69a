import FlowPlan.Instant
import FlowPlan.Json.Access

/-!
# Records of build attempts

A record says how one attempt went: its status, its times, the artifacts in the order in which they
were written, and the error and exit status of its end. It is kept as a file in the workspace. A
record that is read back keeps the values that the file holds, whatever their kind.
-/

namespace FlowPlan

structure Record where
  key : Json
  status : Json
  startedAt : Instant
  endedAt : Option Instant
  artifacts : List Json
  /-- The message of the failure, null if there was none. -/
  error : Json
  /-- The exit status of the build, null while it runs. -/
  exitStatus : Json
  deriving DecidableEq, Repr

namespace Record

def running : String := "running"
def completed : String := "completed"
def aborted : String := "aborted"

/-- The record of an attempt that starts now. -/
def start (key : String) (now : Instant) : Record :=
  ⟨.str key, .str running, now, none, [], .null, .null⟩

/-- Mark the attempt as ended. -/
def finish (r : Record) (now : Instant) (status : Json) (exitStatus : Json) (error : Json) : Record :=
  { r with status := status, exitStatus := exitStatus, error := error, endedAt := some now }

/-- List an artifact, once. -/
def addArtifact (r : Record) (name : String) : Record :=
  if Json.listed r.artifacts (.str name) then r
  else { r with artifacts := r.artifacts ++ [.str name] }

/-- The value kept on disk. The last three fields are there only if they say something. -/
def toJson (r : Record) : Json :=
  .obj ([("key", r.key), ("status", r.status), ("started_at", .str r.startedAt.text),
      ("artifacts", .arr r.artifacts)] ++
    (r.endedAt.map fun t => ("ended_at", Json.str t.text)).toList ++
    (if r.error.truthy then [("error", r.error)] else []) ++
    (r.exitStatus.toOption.map fun n => ("exit_status", n)).toList)

/-- A value that should be a time. -/
def timeOf : Json → Attempt Instant
  | .str s => Instant.parse s
  | _ => Json.misuse (.wrongKind "a time has to be a text")

/-- Read a record. -/
def ofJson (v : Json) : Attempt Record := do
  let ended ← v.getD "ended_at" .null
  let endedAt ← if ended.truthy then (timeOf ended).map some else pure none
  let key ← v.field "key"
  let status ← v.getD "status" (.str running)
  let startedAt ← timeOf (← v.field "started_at")
  let artifacts ← (← v.getD "artifacts" (.arr [])).elements
  let error ← v.getD "error" .null
  let exitStatus ← v.getD "exit_status" .null
  return ⟨key, status, startedAt, endedAt, artifacts, error, exitStatus⟩

end Record

end FlowPlan

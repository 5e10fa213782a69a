import FlowPlan.Build.Workspace
import FlowPlan.Unit.Basic

/-!
# The pipeline

The stages run in the order of their names, each on the document that the one before returned. The
input and every stage's output are kept as artifacts, and the last output is linked as the compiled
plan. A document without the shape of its level fails the stage, before or after.

## Main definitions

* `Pipeline.order` — the stages in order, if names are qualified before they are needed.
* `Pipeline.runStage` — one stage.
* `Pipeline.run` — all stages.
-/

namespace FlowPlan.Pipeline

def logger : String := "ddcompile.stages.pipeline"

def inputArtifact : String := "config-input.json"

def compiledArtifact : String := "config.json"

/-- Where a workspace holds the compiled plan. -/
def compiledPath (w : Workspace) : Path := w.artifactPath compiledArtifact

/-! ## Order -/

/-- The first stage that needs qualified names before any stage has produced them. -/
def early? : List Stage → Option Stage
  | [] => none
  | s :: rest =>
    if s.requires = .qualified then some s
    else if s.produces = .qualified then none
    else early? rest

/-- The stages in the order of their names. -/
def order (stages : List Stage) : Attempt (List Stage) :=
  let ordered := Text.sortOn Stage.name stages
  match early? ordered with
  | some s =>
    .error (.structural
      s!"Stage {s.name} requires qualified names but no earlier stage produces them" none)
  | none => .ok ordered

/-! ## Running -/

/-- A stage that has run, and the artifact that holds its output. -/
structure Finished where
  stage : String
  artifact : String
  startedAt : Instant
  endedAt : Instant
  deriving DecidableEq, Repr

def Finished.toJson (r : Finished) : Json :=
  .obj [("stage_name", .str r.stage), ("artifact", .str r.artifact),
    ("duration_seconds", .float (r.endedAt.secondsSince r.startedAt)),
    ("started_at", .str r.startedAt.text), ("ended_at", .str r.endedAt.text)]

/-- A document has to have the shape of a level when a stage takes or returns it. -/
def expect (s : Stage) (role : String) (level : Level) (document : Json) : Attempt Unit :=
  match Document.check document level with
  | .error (.schema text path) =>
    .error (.stageFailed s.name s!"{role} is not {level.name}: {(Fault.schema text path).message}")
  | r => r

/-- Transform a document. A unit's own failure is reported and becomes one of the stage. -/
def transform (s : Stage) (document : Json) : Session Json :=
  match s.transform document with
  | .ok output => do
    if let some text := s.remark document then Session.debug "ddcompile.stages.builtin" text
    return output
  | .error f => do
    if f.isBuildFailure || !f.isOrdinary then Action.fail f
    Session.error logger s!"Stage {s.name} failed with exception: {f.message}" "stage_exception"
      (some s.name) none (some f)
    Action.fail (.stageFailed s.name f.message)

/-- What is reported of a stage that has run. -/
def completion (artifact : String) (seconds : Binary64) : Json :=
  .obj [("artifact", .str artifact), ("duration_seconds", .float seconds)]

/-- Run one stage and keep its output. -/
def runStage (w : Workspace) (document : Json) (s : Stage) : Session (Json × Finished) := do
  let start ← Session.now
  Session.info logger s!"Running stage {s.name}" "stage_started" (some s.name)
  Action.lift (expect s "input" s.requires document)
  let output ← transform s document
  Action.lift (expect s "output" s.produces output)
  discard (w.writeArtifact s.artifact output)
  let finished : Finished := ⟨s.name, s.artifact, start, ← Session.now⟩
  Session.info logger s!"Stage {s.name} completed" "stage_completed" (some s.name)
    (some (completion s.artifact (finished.endedAt.secondsSince start)))
  return (output, finished)

/-- Run stages one after another, each on the output of the one before. -/
def runStages (w : Workspace) (document : Json) : List Stage → Session (List Finished)
  | [] => return []
  | s :: rest => do
    let (output, finished) ← runStage w document s
    return finished :: (← runStages w output rest)

/-- Run the stages, which are in order, on a document. -/
def run (w : Workspace) (stages : List Stage) (document : Json) : Session (List Finished) := do
  if stages.isEmpty then Action.fail (.structural "No config stages to run" none)
  Action.lift (Document.check document .raw)
  discard (w.writeArtifact inputArtifact document)
  let finished ← runStages w document stages
  let last := (finished.getLast?.map (·.artifact)).getD inputArtifact
  discard (w.link compiledArtifact last)
  Session.info logger s!"Config pipeline completed ({finished.length} stages)" "pipeline_completed" none
    (some (.obj [("compiled", .str last)]))
  return finished

end FlowPlan.Pipeline

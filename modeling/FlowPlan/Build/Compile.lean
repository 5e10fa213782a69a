import FlowPlan.Build.Fanout
import FlowPlan.Build.Gate
import FlowPlan.Build.Lock
import FlowPlan.Build.Pipeline
import FlowPlan.Build.Settings
import FlowPlan.Build.Supervision
import FlowPlan.Unit.Catalog

/-!
# Builds

A build compiles a document: under the lock of the build root it allocates a workspace, runs the
pipeline, judges the plan, runs the generators, judges their fragments and makes the workspace the
compiled one. Everything after the allocation is supervised.

## Main definitions

* `Builder.phases` — what happens under supervision.
* `Builder.run` — a whole build.
-/

namespace FlowPlan

/-- What a build is made with. -/
structure Builder where
  settings : Settings
  catalogs : Catalogs
  /-- Where commands are started. -/
  host : Host
  quiet : Bool
  /-- Wait for the lock instead of failing. -/
  wait : Bool

/-- What a successful build leaves. -/
structure Built where
  key : String
  startedAt : Instant
  endedAt : Instant
  compiled : Path
  stages : List Pipeline.Finished
  generators : List Fanout.Generated
  /-- The key that was the compiled one before. -/
  previous : Json

namespace Built

def seconds (b : Built) : Binary64 := b.endedAt.secondsSince b.startedAt

def toJson (b : Built) : Json :=
  .obj [("workspace_key", .str b.key), ("started_at", .str b.startedAt.text),
    ("ended_at", .str b.endedAt.text), ("duration_seconds", .float b.seconds),
    ("compiled_path", .str b.compiled.text), ("stages", .arr (b.stages.map (·.toJson))),
    ("generators", .arr (b.generators.map (·.toJson))), ("previous_compiled", b.previous)]

end Built

namespace Builder

/-- A builder that does as the settings say, unless told otherwise. -/
def ofSettings (host : Host) (settings : Settings) (catalogs : Catalogs) (quiet wait : Option Bool) :
    Builder :=
  ⟨settings, catalogs, host, quiet.getD settings.isQuiet, wait.getD settings.waitForLock⟩

def directory (b : Builder) : BuildDir := ⟨b.settings.root, b.settings.links⟩

/-- The checks of the settings' commands, in the order of their names. -/
def commandChecks (b : Builder) : Attempt (List Check) :=
  let enabled := (Text.sortOn (·.1) b.settings.commands).filter fun (name, _) =>
    !b.settings.disabledChecks.contains (.str name)
  enabled.mapM fun (name, c) => Check.ofCommand name c.phase c.words

/-- The enabled checks: those of the catalog and the commands. -/
def checks (b : Builder) : Attempt (List Check) := do
  return (← b.catalogs.checks.units b.settings.disabledChecks) ++ (← b.commandChecks)

/-- The fragments by the names of their generators. -/
def fragments (w : Workspace) (generated : List Fanout.Generated) : Session Json := do
  let fields ← generated.mapM fun r => return (r.generator, ← w.readArtifact r.artifact)
  return .obj fields

/-- From the document to the promotion. -/
def phases (b : Builder) (document : Json) (w : Workspace) : Session Built := do
  let start ← Session.now
  let checks ← Action.lift b.checks
  let stages ← Action.lift ((b.catalogs.stages.units b.settings.disabledStages).bind Pipeline.order)
  let finished ← Pipeline.run w stages document
  let compiled := Pipeline.compiledPath w
  let plan ← Session.read (·.readJson compiled)
  discard (Gate.run b.host checks (.str planPhase) plan (some compiled))
  let generators ← Action.lift (b.catalogs.generators.units b.settings.disabledGenerators)
  let generated ← Fanout.run w generators b.settings.maxWorkers compiled
  let subject ← fragments w generated
  discard (Gate.run b.host checks (.str codePhase) subject (some w.path))
  let previous ← b.directory.promote w
  return ⟨w.key, start, ← Session.now, compiled, finished, generated, previous⟩

/-- How the log file is written. -/
def style (b : Builder) : LogStyle :=
  if b.settings.logFormat = .str "structured" then .structured else .readable

/-- A build in a new workspace, with the lock held. -/
def attempt (b : Builder) (document : Json) : Session Built := do
  let w ← b.directory.allocate
  Session.openLog w.logPath b.settings.logLevel b.style !b.quiet
  let v : Supervision := { directory := b.directory, workspace := w, quiet := b.quiet }
  Action.ensuring (v.supervise (b.phases document w)) Session.closeLog

/-- Compile a document into a new workspace and promote it. -/
def run (b : Builder) (document : Json) : Session Built := do
  let lock ← Lock.acquire (Lock.path b.settings.root) b.wait
  Action.ensuring (b.attempt document) (Lock.release lock)

end Builder

end FlowPlan

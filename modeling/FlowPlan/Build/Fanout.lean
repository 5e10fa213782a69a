import FlowPlan.Build.Workspace
import FlowPlan.Unit.Basic

/-!
# The fan-out

Every generator works on its own copy of the compiled plan and writes its own fragment. All of them
run, whatever happens to the others; only when the last one has ended are the failures counted.

## Main definitions

* `Fanout.work` — what one generator does.
* `Fanout.run` — all generators.
-/

namespace FlowPlan.Fanout

def logger : String := "ddcompile.codegen.fanout"

/-- A generator that has run, and the artifact that holds its fragment. -/
structure Generated where
  generator : String
  artifact : String
  seconds : Binary64
  deriving DecidableEq, Repr

def Generated.toJson (r : Generated) : Json :=
  .obj [("name", .str r.generator), ("duration_seconds", .float r.seconds), ("artifact", .str r.artifact)]

/-- A fragment has to be a mapping. -/
def expectMapping (fragment : Json) : Attempt Unit :=
  if fragment.isObj then .ok ()
  else Json.misuse (.wrongKind s!"generator returned {fragment.kindName}, expected a mapping")

/-- Read the plan, make the fragment and write it. -/
def work (compiled : Path) (w : Workspace) (g : Generator) : Session Generated := do
  let start ← Session.now
  let plan ← Session.read (·.readJson compiled)
  let fragment ← Action.lift (g.generate plan)
  Action.lift (expectMapping fragment)
  Session.write (·.writeJson (w.artifactPath g.artifact) fragment)
  return ⟨g.name, g.artifact, (← Session.now).secondsSince start⟩

/-- At least one generator may run at a time. -/
def checkLimit (limit : Json) : Attempt Unit :=
  match limit with
  | .null => .ok ()
  | v =>
    if !v.isNumber then Json.misuse (.unordered "int" v.kindName)
    else if Json.leNumber v (.int 0) then
      Json.misuse (.outOfBounds "max_workers must be greater than 0")
    else .ok ()

/-- Let every generator work; a later one replaces the outcome of an earlier one of its name. -/
def launch (compiled : Path) (w : Workspace) (outcomes : Assoc String (Attempt Generated)) :
    List Generator → Session (Assoc String (Attempt Generated))
  | [] => return outcomes
  | g :: rest => do
    let r ← Action.outcome (work compiled w g)
    launch compiled w (Assoc.set outcomes g.name r) rest

/-- Report one outcome; a fragment is listed. -/
def settle (w : Workspace) (name : String) : Attempt Generated → Session Unit
  | .ok r => do
    w.addArtifact r.artifact
    Session.info logger s!"Generator {name} completed" "generator_completed" (some name)
      (some (.obj [("artifact", .str r.artifact)]))
  | .error f =>
    Session.error logger s!"Generator {name} failed: {f.message}" "generator_failed" (some name) none
      (some f)

/-- The failures among the outcomes, by generator. -/
def failuresOf (outcomes : Assoc String (Attempt Generated)) : Assoc String String :=
  outcomes.filterMap fun
    | (name, .error f) => some (name, f.describe)
    | (_, .ok _) => none

def generatedOf (outcomes : Assoc String (Attempt Generated)) : List Generated :=
  outcomes.filterMap fun
    | (_, .ok r) => some r
    | (_, .error _) => none

/-- Run all generators on the compiled plan. -/
def run (w : Workspace) (generators : List Generator) (limit : Json) (compiled : Path) :
    Session (List Generated) := do
  if generators.isEmpty then
    Session.report { severity := .warning, logger := logger, message := "No code generators registered" }
    return []
  else
    let ordered := Text.sortOn Generator.name generators
    Session.info logger s!"Starting {ordered.length} generators" "codegen_started" none
      (some (.obj [("generators", .arr (ordered.map fun g => .str g.name))]))
    Action.lift (checkLimit limit)
    let outcomes := Text.sortOn (·.1) (← launch compiled w [] ordered)
    outcomes.forM fun (name, r) => settle w name r
    let failures := failuresOf outcomes
    if failures.isEmpty then return generatedOf outcomes
    else Action.fail (.generatorsFailed failures)

end FlowPlan.Fanout

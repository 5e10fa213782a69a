import FlowPlan.Document.Qualified
import FlowPlan.Plan.Order
import FlowPlan.Unit.Basic

/-!
# The standard stages

In the order in which they run: create the sections that are missing, qualify the names, lift the
factors into the plan, and write down what every process waits for.
-/

namespace FlowPlan.Stage

/-- Create a section or a field of it where it is missing or null. -/
def ensureField (document : Json) (outer inner : String) : Attempt Json := do
  let section_ ← match ← document.getD outer .null with
    | .null => pure (.obj [])
    | given => pure given
  match ← section_.getD inner .null with
  | .null => document.put (.str outer) (← section_.put (.str inner) (.obj []))
  | _ => document.put (.str outer) section_

/-- The three sections that the compiler reads. -/
def sections : List (String × String) :=
  [("extraction", "extractors"), ("inference", "factors"), ("execution", "processes")]

def initObjects : Stage where
  name := "0.00-init_objects"
  form := "InitObjectsStage"
  requires := .raw
  produces := .raw
  description := "Create empty definition sections"
  transform document := sections.foldlM (fun d (outer, inner) => ensureField d outer inner) document

def qualifyNames : Stage where
  name := "0.01-qualified_names"
  form := "QualifyNamesStage"
  requires := .raw
  produces := .qualified
  description := "Qualify names, merge extractors into the plan"
  transform := Document.qualify

/-- Add the factors to the plan's processes, under their own names. -/
def liftFactors (document : Json) : Attempt Json := do
  let factors ← (← document.field "inference").field "factors"
  let execution ← document.field "execution"
  let (merged, collisions) ← Document.mergeProcesses (← execution.field "processes") factors
  let execution ← execution.put (.str "processes") (.obj merged)
  Document.recordCollisions (← document.put (.str "execution") execution) collisions

/-- How many factors a document has. -/
def factorCount (document : Json) : Nat :=
  match (document.field "inference").bind (·.field "factors") with
  | .ok (.obj fs) => fs.length
  | _ => 0

def factorProcesses : Stage where
  name := "1.00-factor_processes"
  form := "FactorProcessesStage"
  requires := .qualified
  produces := .qualified
  description := "Lift factors into the plan"
  transform := liftFactors
  remark document := some s!"Lifted {factorCount document} factors into the plan"

/-- Write what every process waits for next to the processes. -/
def deriveDependencies (document : Json) : Attempt Json := do
  let awaited ← (← Plan.ofDocument document).allPrerequisites
  let execution ← document.field "execution"
  let execution ← execution.put (.str "dependencies") (.obj (awaited.map fun (n, ns) => (n, .arr ns)))
  document.put (.str "execution") execution

def dependencies : Stage where
  name := "9.00-dependencies"
  form := "DependenciesStage"
  requires := .qualified
  produces := .qualified
  description := "Derive process dependencies from relations"
  transform := deriveDependencies

/-- The standard stages, each with the summary of what it is for. -/
def standard : List (Stage × String) :=
  [(initObjects, "Ensure extraction.extractors, inference.factors and execution.processes exist."),
   (qualifyNames, "Qualify entity names and merge extractors into execution.processes."),
   (factorProcesses, "Lift every qualified factor into execution.processes."),
   (dependencies, "Write execution.dependencies: explicit dependencies plus input producers.")]

end FlowPlan.Stage

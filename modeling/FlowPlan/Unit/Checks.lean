import FlowPlan.Document.Qualified
import FlowPlan.Plan.Order
import FlowPlan.Unit.Basic

/-!
# The standard checks

Four judge the compiled plan: names are defined once, dependencies resolve, relations are produced
or declared, and there is an order of execution. One judges the fragments: none is empty.
-/

namespace FlowPlan.Check

/-- The names that the document records as defined more than once. -/
def collisionMessages (subject : Json) : Attempt (List Json) := do
  let execution ← subject.getD "execution" (.obj [])
  let collisions ← (← execution.getD Document.collisionsField (.arr [])).elements
  return collisions.map fun name => .str s!"name defined more than once: {name.display}"

def noCollisions : Check :=
  reading "no_collisions" "NoCollisionsCheck" planPhase "No two definitions share one qualified name"
    collisionMessages

/-- The dependencies that name no process of the plan. -/
def unresolvedMessages (subject : Json) : Attempt (List Json) := do
  let plan ← Plan.ofDocument subject
  let messages ← plan.sorted.mapM fun n => do
    let unresolved ← n.dependencies.filterM fun d => return !(← plan.resolves d)
    return unresolved.map fun d => .str s!"{n.name} depends on undefined {d.display}"
  return messages.flatten

def dependenciesResolve : Check :=
  reading "dependencies_resolve" "DependenciesResolveCheck" planPhase
    "Every dependency names a process of the plan" unresolvedMessages

/-- A value that is given, or an empty mapping. -/
def orEmpty (v : Json) : Json := if v.truthy then v else .obj []

/-- Declared relations under their qualified names. -/
def declaredNames (declared : Json) : Attempt (List Json) := do
  (← declared.elements).mapM fun relation => do
    match ← Kind.ofValue? relation with
    | some _ => return relation
    | none => return .str (Kind.data.lead ++ relation.display)

/-- The relations that are read and neither written nor declared. -/
def unproducedMessages (subject : Json) : Attempt (List Json) := do
  let plan ← Plan.ofDocument subject
  let schema := orEmpty (← subject.getD "schema" .null)
  let declared := orEmpty (← schema.getD "relations" .null)
  let produced ← plan.producers
  let known := produced.map (·.1) ++ (← declaredNames declared)
  let messages ← plan.sorted.mapM fun n => do
    let missing ← n.inputs.filterM fun r => do
      if r.isHashable then return !Json.listed known r else Json.misuse (.unhashable r.kindName)
    return missing.map fun r => .str s!"{n.name} reads {r.display}, which nothing produces"
  return messages.flatten

def inputsProduced : Check :=
  reading "inputs_produced" "InputsProducedCheck" planPhase
    "Every input relation has a producer or is declared" unproducedMessages

/-- The cycle, if names outside the plan are left aside. -/
def cycleMessages (subject : Json) : Attempt (List Json) := do
  let plan ← Plan.ofDocument subject
  match plan.topologicalOrder true with
  | .ok _ => return []
  | .error (.cycle remaining) => return [.str (Fault.cycle remaining).message]
  | .error f => throw f

def acyclic : Check :=
  reading "acyclic" "AcyclicCheck" planPhase "The process graph has a topological order" cycleMessages

/-- The generators whose fragment is empty or no mapping. -/
def emptyFragmentMessages (subject : Json) : Attempt (List Json) := do
  let names ← Json.sortValues (← subject.elements)
  let messages ← names.mapM fun name => do
    match ← subject.lookup name with
    | .obj (_ :: _) => return none
    | _ => return some (.str s!"generator {name.display} produced an empty fragment")
  return messages.filterMap id

def fragmentsNonempty : Check :=
  reading "fragments_nonempty" "FragmentsNonemptyCheck" codePhase
    "Every generated fragment is a non-empty mapping" emptyFragmentMessages

/-- The standard checks, each with the summary of what it is for. -/
def standard : List (Check × String) :=
  [(noCollisions, ""), (dependenciesResolve, ""),
   (inputsProduced, "Every relation read is written by some process, or declared."),
   (acyclic, ""), (fragmentsNonempty, "")]

end FlowPlan.Check

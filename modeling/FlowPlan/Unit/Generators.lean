import FlowPlan.Plan.Order
import FlowPlan.Unit.Basic

/-!
# The standard generators

Three views of one plan: the order of execution with what each process waits for, the graph of
processes and relations, and the producers and consumers of every relation.
-/

namespace FlowPlan.Generator

/-- The name of a process's kind. -/
def kindOf (name : String) : Attempt Json :=
  match Kind.of? name with
  | some k => .ok (.str k.name)
  | none => Json.misuse (.noMember "NoneType" "value")

/-! ## Order and run specifications -/

def runSpec (n : Node) (awaited : List Json) : Attempt (String × Json) := do
  return (n.name, .obj
    [("kind", ← kindOf n.name), ("upstream", .arr awaited), ("inputs", .arr n.inputs),
     ("output", n.output.getD .null)])

def processesFragment (document : Json) : Attempt Json := do
  let plan ← Plan.ofDocument document
  let awaited ← plan.allPrerequisites
  let specs ← (plan.sorted.zip awaited).mapM fun (n, _, names) => runSpec n names
  let order ← plan.topologicalOrder
  return .obj [("order", .arr (order.map .str)), ("processes", .obj specs)]

def processes : Generator :=
  ⟨"processes", "ProcessesGenerator", "Execution order and process run specs", processesFragment⟩

/-! ## The graph of processes and relations -/

def edge (source target : Json) (kind : String) : Json :=
  .obj [("from", source), ("to", target), ("kind", .str kind)]

/-- A relation is a data node unless it is listed already. -/
def listRelation (nodes : Table Json) (relation : Json) : Attempt (Table Json) :=
  Table.upsertKey nodes relation (.str Kind.data.name) id

/-- The edges that meet a process: its dependencies, the relations read, the relation written. -/
def edgesOf (n : Node) : List Json :=
  n.dependencies.map (edge · (.str n.name) "dependency") ++
    n.inputs.map (edge · (.str n.name) "input") ++
    n.output.toList.map (edge (.str n.name) · "output")

/-- List a process and the relations that it mentions. -/
def listNode (nodes : Table Json) (n : Node) : Attempt (Table Json) := do
  let kind ← kindOf n.name
  let nodes := Table.upsert nodes (.str n.name) kind fun _ => kind
  (n.inputs ++ n.output.toList).foldlM listRelation nodes

def dataflowFragment (document : Json) : Attempt Json := do
  let plan ← Plan.ofDocument document
  let nodes ← plan.sorted.foldlM listNode []
  let sorted ← Json.sortOnValue (·.1) nodes
  return .obj
    [("nodes", .arr (sorted.map fun (id, kind) => .obj [("id", id), ("kind", kind)])),
     ("edges", .arr (plan.sorted.flatMap edgesOf))]

def dataflow : Generator :=
  ⟨"dataflow", "DataflowGenerator", "Dataflow graph nodes and edges", dataflowFragment⟩

/-! ## Relations -/

def usageJson (u : Usage) : Json :=
  .obj [("producers", .arr (u.producers.map .str)), ("consumers", .arr (u.consumers.map .str))]

def relationsFragment (document : Json) : Attempt Json := do
  let usages ← (← Plan.ofDocument document).relations
  return .obj [("relations", .obj (usages.map fun (r, u) => (r.keyText, usageJson u)))]

def relations : Generator :=
  ⟨"relations", "RelationsGenerator", "Relation producers and consumers", relationsFragment⟩

/-- The standard generators, each with the summary of what it is for. -/
def standard : List (Generator × String) :=
  [(processes, "Topological execution order plus what each process waits for."),
   (dataflow, "Graph of processes and relations, as data (rendering is external)."),
   (relations, "Per-relation producer and consumer lists.")]

end FlowPlan.Generator

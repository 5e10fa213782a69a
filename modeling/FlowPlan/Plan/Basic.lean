import FlowPlan.Plan.Node

/-!
# Execution plans

A plan maps the qualified name of every process to its node. Reading a plan neither resolves names
nor looks for cycles.

## Main definitions

* `Plan.ofDocument` — the plan of a compiled document.
* `Plan.producers`, `Plan.relations` — who writes and who reads each relation.
* `Plan.prerequisites`, `Plan.allPrerequisites` — the processes that a process waits for.
-/

namespace FlowPlan

/-- The processes of one build, in the order of the document. -/
structure Plan where
  nodes : List Node
  deriving DecidableEq, Repr

/-- The processes that write and that read a relation. -/
structure Usage where
  producers : List String
  consumers : List String
  deriving DecidableEq, Repr

namespace Plan

def ofDocument (document : Json) : Attempt Plan := do
  let execution ← document.getD "execution" (.obj [])
  let processes ← execution.getD "processes" (.obj [])
  return ⟨← (← processes.items).mapM fun (name, entry) => Node.ofEntry name entry⟩

def size (p : Plan) : Nat := p.nodes.length

def contains (p : Plan) (name : String) : Bool := p.nodes.any (·.name = name)

/-- The process of that name, which has to be there. -/
def node (p : Plan) (name : String) : Attempt Node :=
  match p.nodes.find? (·.name = name) with
  | some n => .ok n
  | none => Json.misuse (.missingKey (.str name))

/-- The nodes in the order of their names. -/
def sorted (p : Plan) : List Node := Text.sortOn (·.name) p.nodes

/-- The value names a process of the plan. -/
def resolves (p : Plan) (name : Json) : Attempt Bool :=
  match name with
  | .str s => .ok (p.contains s)
  | v => if v.isHashable then .ok false else Json.misuse (.unhashable v.kindName)

/-! ## Relations -/

/-- The names of the processes that write each relation, in order. -/
def producers (p : Plan) : Attempt (Table (List String)) :=
  p.sorted.foldlM (fun t n =>
    match n.output with
    | some relation => Table.upsertKey t relation [] (· ++ [n.name])
    | none => .ok t) []

/-- Enter the relations of one process. -/
def addUsage (t : Table Usage) (n : Node) : Attempt (Table Usage) := do
  let t ← match n.output with
    | some relation =>
      Table.upsertKey t relation ⟨[], []⟩ fun u => { u with producers := u.producers ++ [n.name] }
    | none => .ok t
  n.inputs.foldlM (fun t relation =>
    Table.upsertKey t relation ⟨[], []⟩ fun u => { u with consumers := u.consumers ++ [n.name] }) t

/-- Every relation mentioned, with its producers and consumers, in the order of the relations. -/
def relations (p : Plan) : Attempt (Table Usage) := do
  Json.sortOnValue (·.1) (← p.sorted.foldlM addUsage [])

/-! ## Waiting -/

/-- The producers of a relation, as values. -/
def producersIn (t : Table (List String)) (relation : Json) : Attempt (List Json) :=
  if relation.isHashable then .ok (((t.find? relation).getD []).map .str)
  else Json.misuse (.unhashable relation.kindName)

/-- What a process waits for: its explicit dependencies and every producer of a relation that it
reads. Reading what it writes itself does not make a process wait for itself. -/
def prerequisitesWith (producersOf : Json → Attempt (List Json)) (n : Node) : Attempt (List Json) := do
  let names ← Json.distinct n.dependencies
  let writers ← n.inputs.mapM fun relation => do
    Json.distinct ((← producersOf relation).filter fun w => !Json.same w (.str n.name))
  Json.sortSet (writers.flatten.foldl Json.insertDistinct names)

def prerequisites (p : Plan) (name : String) : Attempt (List Json) := do
  let n ← p.node name
  let t ← p.producers
  prerequisitesWith (producersIn t) n

/-- What every process waits for, in the order of the names. -/
def allPrerequisites (p : Plan) : Attempt (List (String × List Json)) := do
  let t ← p.producers
  p.sorted.mapM fun n => return (n.name, ← prerequisitesWith (producersIn t) n)

end Plan

end FlowPlan

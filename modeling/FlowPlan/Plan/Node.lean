import FlowPlan.Document.Shape

/-!
# Processes of a plan

A node is one executable step, read from an entry of the plan. What the entry holds beside the
derived fields is kept as it is. The names in a node are arbitrary values here, since an entry is
read without checking its shape; in a qualified document they are texts.
-/

namespace FlowPlan

/-- One executable step of a plan. -/
structure Node where
  name : String
  /-- Names of the processes that it waits for explicitly. -/
  dependencies : List Json
  /-- Names of the relations that it reads. -/
  inputs : List Json
  /-- The relation that it writes. -/
  output : Option Json
  /-- The fields of its definition that do not concern the plan. -/
  payload : Fields
  deriving DecidableEq, Repr

namespace Node

def derivedFields : List String := [dependenciesField, inputField, outputField]

/-- The first relation of a list that is given and not empty. -/
def outputOf (outputs : Json) : Attempt (Option Json) :=
  if outputs.truthy then (outputs.lookup (.int 0)).map Json.toOption else .ok none

/-- Read an entry. -/
def ofEntry (name : String) (entry : Json) : Attempt Node := do
  let outputs ← entry.getD outputField .null
  let dependencies ← (← entry.getD dependenciesField (.arr [])).elements
  let inputs ← (← entry.getD inputField (.arr [])).elements
  let output ← outputOf outputs
  let fields ← entry.items
  return ⟨name, dependencies, inputs, output, fields.filter (!derivedFields.contains ·.1)⟩

/-- Write the entry: the payload, both lists, and the relation written if there is one. -/
def toEntry (n : Node) : Fields :=
  let fields := Assoc.set n.payload dependenciesField (.arr n.dependencies)
  let fields := Assoc.set fields inputField (.arr n.inputs)
  match n.output with
  | some relation => Assoc.set fields outputField (.arr [relation])
  | none => fields

end Node

end FlowPlan

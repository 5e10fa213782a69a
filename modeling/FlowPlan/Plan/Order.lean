import FlowPlan.Plan.Basic

/-!
# The order of execution

Processes are placed one by one, each time the one with the smallest name among those that wait for
nothing any more. Every process has a count of those that it waits for and that are still to be placed.
What never gets down to none lies on a cycle or behind one.

## Main definitions

* `Graph.Progress` — the counts, the processes that are ready, and those that have been placed.
* `Graph.order` — the order of a graph, as far as there is one.
* `Plan.graph` — the waiting relation inside the plan.
* `Plan.topologicalOrder` — the order of a plan.
-/

namespace FlowPlan

/-- Each process with the processes that it waits for, in the order of the names. -/
abbrev Graph := List (String × List String)

namespace Graph

/-- How far the order has come. -/
structure Progress where
  /-- How many of those that a process waits for are still to be placed. -/
  missing : Assoc String Nat
  /-- The processes that can be placed next, in order. -/
  ready : List String
  placed : List String
  deriving DecidableEq, Repr

/-- The processes that wait for this one, in order. -/
def dependents (g : Graph) (name : String) : List String :=
  Text.sort ((g.filter (·.2.contains name)).map (·.1))

def start (g : Graph) : Progress where
  missing := g.map fun e => (e.1, e.2.length)
  ready := Text.sort ((g.filter (·.2.length = 0)).map (·.1))
  placed := []

/-- How many of those that the process waits for are still to be placed. -/
def Progress.count (s : Progress) (name : String) : Nat := (Assoc.find? s.missing name).getD 0

/-- One of those that the process waits for has been placed. After the last one it is ready. -/
def release (s : Progress) (name : String) : Progress :=
  { s with
    missing := Assoc.set s.missing name (s.count name - 1)
    ready := if s.count name = 1 then Text.sort (s.ready ++ [name]) else s.ready }

/-- Place the first process that is ready. -/
def next? (g : Graph) (s : Progress) : Option Progress :=
  match s.ready with
  | [] => none
  | name :: rest =>
    some ((g.dependents name).foldl release { s with ready := rest, placed := s.placed ++ [name] })

/-- Place processes one after another, as long as there are ready ones. -/
def advance (g : Graph) : Nat → Progress → Progress
  | 0, s => s
  | steps + 1, s =>
    match g.next? s with
    | none => s
    | some s' => advance g steps s'

/-- The processes that can be placed, in order. Each step places one, so there are at most as many
steps as processes. -/
def order (g : Graph) : List String := (g.advance g.length g.start).placed

end Graph

namespace Plan

/-- What a process waits for inside the plan. A name outside it is dropped or a fault. -/
def prerequisitesInside (p : Plan) (ignoreUnknown : Bool) (name : String) (names : List Json) :
    Attempt (List String) :=
  names.foldlM (fun inside dep => do
    match dep, ← p.resolves dep with
    | .str d, true => return inside ++ [d]
    | _, _ =>
      if ignoreUnknown then return inside
      else throw (.unknownDependency s!"Process '{name}' depends on unknown process '{dep.display}'")) []

/-- The waiting relation inside the plan. -/
def graph (p : Plan) (ignoreUnknown : Bool) : Attempt Graph := do
  (← p.allPrerequisites).mapM fun (name, names) =>
    return (name, ← p.prerequisitesInside ignoreUnknown name names)

/-- The order of execution. A plan with a cycle has none; it is reported with the names that have not
been placed. -/
def topologicalOrder (p : Plan) (ignoreUnknown : Bool := false) : Attempt (List String) := do
  let g ← p.graph ignoreUnknown
  let order := g.order
  if order.length = g.length then return order
  else throw (.cycle (Text.sort ((Assoc.keys g).filter (!order.contains ·))))

end Plan

end FlowPlan

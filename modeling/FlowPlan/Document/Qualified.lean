import FlowPlan.Document.Shape

/-!
# Qualified documents

Qualification puts the kind in front of every definition's name, derives the lists of dependencies
and relations, and merges the extractors into the execution plan. Merging only adds: a name that was
defined before is recorded as a collision, and the later definition wins.

## Main definitions

* `Document.qualifyEntry`, `Document.qualifyEntries` — one definition, and a section of them.
* `Document.mergeProcesses` — entries added to the plan.
* `Document.recordCollisions` — names defined more than once.
* `Document.qualify` — a whole document.
-/

namespace FlowPlan.Document

def collisionsField : String := "collisions_"

/-! ## Entries -/

/-- The names that a field lists, qualified; a field that is not given lists none. -/
def qualifiedNames (kind : Kind) (entry : Json) (field : String) : Attempt (List Json) := do
  let given ← entry.getD field .null
  if given.truthy then
    (← given.elements).mapM fun v => return .str (← kind.qualifyValue v)
  else return []

/-- A definition with its derived fields. The relation written is a list of one name; a definition
that writes none has no such field. -/
def qualifyEntry (entry : Json) : Attempt Json := do
  let dependencies ← qualifiedNames .process entry "dependencies"
  let inputs ← qualifiedNames .data entry "input_relations"
  let fields ← entry.fieldsFor "get"
  let fields := Assoc.set (Assoc.set fields dependenciesField (.arr dependencies)) inputField (.arr inputs)
  match ← entry.getD "output_relation" .null with
  | .null => return .obj (Assoc.erase fields outputField)
  | output => return .obj (Assoc.set fields outputField (.arr [.str (← Kind.data.qualifyValue output)]))

/-- Add a definition to those before it, and its name to the collisions if it was there. -/
def addDefinition (kind : Kind) (before : Fields × List String) (definition : String × Json) :
    Attempt (Fields × List String) := do
  let name := kind.qualify definition.1
  let entry ← qualifyEntry definition.2
  let collisions :=
    if Assoc.contains before.1 name && !before.2.contains name then before.2 ++ [name] else before.2
  return (Assoc.set before.1 name entry, collisions)

/-- The definitions of a section under their qualified names, and the names that several of them
share, in order. -/
def qualifyEntries (entries : Json) (kind : Kind) : Attempt (Fields × List String) := do
  let (qualified, collisions) ← (← entries.items).foldlM (addDefinition kind) ([], [])
  return (qualified, Text.sort collisions)

/-! ## The plan's processes -/

/-- A key and its value, written as something that lists the two. -/
def pairOf (position : Nat) (v : Json) : Attempt (String × Json) :=
  match v.elements with
  | .ok [key, part] =>
    if key.isHashable then .ok (key.keyText, part) else Json.misuse (.unhashable key.kindName)
  | .ok parts => Json.misuse (.pairLength position parts.length)
  | .error _ => Json.misuse (.notPair position)

/-- A mapping, given as one or as a list of pairs. -/
def mappingOf : Json → Attempt Fields
  | .obj fs => .ok fs
  | v => do
    let parts ← v.elements
    return Assoc.ofEntries (← parts.zipIdx.mapM fun (part, i) => pairOf i part)

/-- The processes with the entries added, and the names that were there before, in order. -/
def mergeFields (processes entries : Fields) : Fields × List String :=
  (entries.foldl (fun merged e => Assoc.set merged e.1 e.2) processes,
    Text.sort ((entries.map (·.1)).filter (Assoc.contains processes)))

def mergeProcesses (processes entries : Json) : Attempt (Fields × List String) := do
  let processes ← mappingOf processes
  let entries ← entries.items
  return mergeFields processes entries

/-! ## Documents -/

/-- The section of that name, created empty where it is missing. -/
def ensureSection (document : Fields) (outer : String) : Fields :=
  if Assoc.contains document outer then document else Assoc.set document outer (.obj [])

/-- Replace a field of a section; sections are mappings by then. -/
def setInSection (document : Fields) (outer inner : String) (v : Json) : Fields :=
  match Assoc.find? document outer with
  | some (.obj fs) => Assoc.set document outer (.obj (Assoc.set fs inner v))
  | _ => document

/-- Add names to the collisions that the document records, in order and without repetition. -/
def recordCollisions (document : Json) (names : List String) : Attempt Json :=
  if names.isEmpty then .ok document
  else do
    let fields := ensureSection (← document.fieldsFor "setdefault") "execution"
    let execution := (Assoc.find? fields "execution").getD .null
    let existing ← (← execution.getD collisionsField (.arr [])).elements
    let sorted ← Json.sortSet (← Json.distinct (existing ++ names.map .str))
    return .obj (setInSection fields "execution" collisionsField (.arr sorted))

/-- The value of a section's field; one that is not given reads as an empty mapping. -/
def givenIn (document : Fields) (outer inner : String) : Attempt Json := do
  let section_ := (Assoc.find? document outer).getD .null
  let given ← section_.getD inner .null
  return if given.truthy then given else .obj []

/-- Qualify one section of definitions and record its collisions. -/
def qualifySection (document : Json) (outer inner : String) (kind : Kind) : Attempt Json := do
  let fields := ensureSection (← document.fieldsFor "setdefault") outer
  let (qualified, collisions) ← qualifyEntries (← givenIn fields outer inner) kind
  recordCollisions (.obj (setInSection fields outer inner (.obj qualified))) collisions

/-- Add entries to the plan's processes and record the collisions. -/
def mergeSection (document entries : Json) : Attempt Json := do
  let fields := ensureSection (← document.fieldsFor "setdefault") "execution"
  let (merged, collisions) ← mergeProcesses (← givenIn fields "execution" "processes") entries
  recordCollisions (.obj (setInSection fields "execution" "processes" (.obj merged))) collisions

/-- The qualified document, its extractors merged into the plan. -/
def qualify (document : Json) : Attempt Json := do
  let document ← qualifySection document "extraction" "extractors" .process
  let document ← qualifySection document "inference" "factors" .factor
  mergeSection document (← section? document "extraction" "extractors")

end FlowPlan.Document

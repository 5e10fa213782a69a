import FlowPlan.Document.Kind

/-!
# Document shapes

A document is the configuration tree that the stages hand on. At the raw level its definitions have
unqualified names; at the qualified level every definition carries its kind and the derived fields.
Only the shape is checked here: whether names resolve is for the checks of the gate to say.

## Main definitions

* `Level` — the two levels.
* `Document.section?` — a definition section of a document.
* `Document.check` — the document has the shape of a level; otherwise the path to the first
  offending value and what was expected there.
-/

namespace FlowPlan

/-- The shape that a document has to have. -/
inductive Level where
  | raw
  | qualified
  deriving DecidableEq, Repr

namespace Level

def name : Level → String
  | raw => "raw"
  | qualified => "qualified"

def ofName? (name : String) : Option Level := [raw, qualified].find? (·.name = name)

end Level

/-! ## Fields added by qualification -/

def dependenciesField : String := "dependencies_"
def inputField : String := "input_"
def outputField : String := "output_"

namespace Document

/-- The value under two levels of names; null where either level is missing. -/
def section? (document : Json) (outer inner : String) : Attempt Json := do
  match ← document.getD outer .null with
  | .obj fs => return (Assoc.find? fs inner).getD .null
  | _ => return .null

def expected (what path : String) : Attempt α := .error (.schema what path)

/-- The value is a list of names. -/
def isNames : Json → Bool
  | .arr xs => xs.all Json.isStr
  | _ => false

/-- The names in a list of names. -/
def namesOf : Json → List String
  | .arr xs => xs.filterMap Json.str?
  | _ => []

def checkNames (v : Json) (path : String) : Attempt Unit :=
  if isNames v then .ok () else expected "expected a list of names" path

/-! ## Entries -/

/-- A list of names of a raw entry; null reads as absent. -/
def checkRawNames (entry : Fields) (path field : String) : Attempt Unit :=
  match (Assoc.find? entry field).bind Json.toOption with
  | some v => checkNames v s!"{path}.{field}"
  | none => .ok ()

/-- A definition before qualification. -/
def checkRawEntry (entry : Fields) (path : String) : Attempt Unit := do
  checkRawNames entry path "dependencies"
  checkRawNames entry path "input_relations"
  match (Assoc.find? entry "output_relation").bind Json.toOption with
  | some v =>
    if v.isStr then .ok () else expected "expected a relation name" s!"{path}.output_relation"
  | none => .ok ()

/-- A derived list of names, which may be required. -/
def checkDerivedNames (entry : Fields) (path : String) (required : Bool) (field : String) :
    Attempt Unit :=
  match Assoc.find? entry field with
  | some v => checkNames v s!"{path}.{field}"
  | none => if required then expected s!"missing '{field}'" path else .ok ()

/-- Every name in a derived list is of the kind. -/
def checkKinds (entry : Fields) (path field what : String) (kind : Kind) : Attempt Unit :=
  match (namesOf ((Assoc.find? entry field).getD .null)).find? fun n => Kind.of? n ≠ some kind with
  | some n => expected s!"unqualified {what} '{n}'" path
  | none => .ok ()

/-- The relation written, if there is one: a list of exactly one relation name. -/
def checkOutput (entry : Fields) (path : String) : Attempt Unit :=
  let refused := expected "expected a one-element list with a data/ name" s!"{path}.{outputField}"
  match Assoc.find? entry outputField with
  | none => .ok ()
  | some (.arr [v]) => do
    if (← Kind.ofValue? v) = some .data then .ok () else refused
  | some _ => refused

/-- A definition after qualification. -/
def checkQualifiedEntry (entry : Fields) (path : String) (required : Bool) : Attempt Unit := do
  checkDerivedNames entry path required dependenciesField
  checkDerivedNames entry path required inputField
  checkKinds entry path dependenciesField "dependency" .process
  checkKinds entry path inputField "input relation" .data
  checkOutput entry path

/-! ## Sections -/

/-- A mapping of mappings; null reads as empty unless the section is required. -/
def checkMapping (v : Json) (path : String) (required : Bool) :
    Attempt (List (String × Fields)) :=
  match v with
  | .null => if required then expected "missing section" path else .ok []
  | .obj fs => fs.mapM fun (name, entry) =>
    match entry with
    | .obj fields => .ok (name, fields)
    | _ => expected "expected a mapping" s!"{path}.{name}"
  | _ => expected "expected a mapping" path

/-- The two sections of definitions, with the kind that their names get. -/
def definitionSections : List (String × String × Kind) :=
  [("extraction", "extractors", .process), ("inference", "factors", .factor)]

/-- One definition of a section. -/
def checkDefinition (level : Level) (kind : Kind) (path : String) (name : String) (entry : Fields) :
    Attempt Unit :=
  match level with
  | .raw => checkRawEntry entry s!"{path}.{name}"
  | .qualified =>
    if Kind.of? name = some kind then checkQualifiedEntry entry s!"{path}.{name}" true
    else expected s!"expected a {kind.lead} name" s!"{path}.{name}"

def checkDefinitions (document : Json) (level : Level) (outer inner : String) (kind : Kind) :
    Attempt Unit := do
  let path := s!"{outer}.{inner}"
  let entries ← checkMapping (← section? document outer inner) path (level = .qualified)
  entries.forM fun (name, entry) => checkDefinition level kind path name entry

/-- One process of the plan. -/
def checkProcess (path name : String) (entry : Fields) : Attempt Unit :=
  match Kind.of? name with
  | some .process | some .factor => checkQualifiedEntry entry s!"{path}.{name}" false
  | _ => expected "expected a qualified process name" s!"{path}.{name}"

/-- The processes of the plan, whose entries matter at the qualified level only. -/
def checkProcesses (document : Json) (level : Level) : Attempt Unit := do
  let path := "execution.processes"
  let entries ← checkMapping (← section? document "execution" "processes") path (level = .qualified)
  match level with
  | .raw => .ok ()
  | .qualified => entries.forM fun (name, entry) => checkProcess path name entry

/-- The document has the shape of the level. -/
def check (document : Json) (level : Level) : Attempt Unit := do
  if !document.isObj then expected "document must be a mapping" ""
  definitionSections.forM fun (outer, inner, kind) => checkDefinitions document level outer inner kind
  checkProcesses document level

end Document

end FlowPlan

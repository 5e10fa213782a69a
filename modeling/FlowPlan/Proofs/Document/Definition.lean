import FlowPlan.Document.Qualified
import FlowPlan.Plan.Node
import FlowPlan.Proofs.Json.Sorted
import FlowPlan.Proofs.Json.Texts

/-!
# Definitions

What an entry of a document says to the plan: a name, the processes that it waits for, the relations
that it reads and the relation that it writes. A raw entry says so in its own words, a qualified one
in its derived fields.

## Main definitions

* `Definition.ofRaw`, `Definition.ofDerived` — what an entry says, before and after qualification.
* `Definition.Describes` — the derived fields of an entry are those of a definition.

## Main statements

* `Kind.of?_qualify` — a qualified name is of its kind.
* `Definition.qualifyEntry_raw` — qualification writes down what an entry says.
* `Definition.checkQualifiedEntry_iff` — when an entry is accepted.
* `Definition.ofEntry_node` — the process of an entry.
-/

namespace FlowPlan

namespace Kind

theorem of?_of_lead {k : Kind} {n : String} (rest : List Char)
    (h : n.toList = k.lead.toList ++ rest) : of? n = some k := by
  have hlength : n.length = k.lead.toList.length + rest.length := by
    rw [← String.length_toList, h, List.length_append]
  unfold of?
  rw [h, hlength]
  cases k <;> simp [lead, name, ofName?, all] <;> omega

theorem of?_qualify (k : Kind) (n : String) : of? (k.qualify n) = some k := by
  unfold qualify
  split
  · rename_i hown
    obtain ⟨rest, hrest⟩ := List.isPrefixOf_iff_prefix.1 hown
    exact of?_of_lead rest hrest.symm
  · exact of?_of_lead n.toList (by simp)

end Kind

/-- What an entry says to the plan. -/
structure Definition where
  name : String
  dependencies : List String
  inputs : List String
  output : Option String
  deriving DecidableEq, Repr

namespace Document

/-- The fields of a value; one that is no mapping has none. -/
def fieldsOf : Json → Fields
  | .obj fs => fs
  | _ => []

/-- The names that a field of an entry lists. -/
def namesAt (entry : Fields) (field : String) : List String :=
  namesOf ((Assoc.find? entry field).getD .null)

end Document

/-- What is read from an entry whose derived fields can be read. -/
theorem Node.ofEntry_obj {fs : Fields} {dependencies inputs : List Json} {output : Option Json}
    (hdependencies : (Assoc.find? fs dependenciesField).getD (.arr []) = .arr dependencies)
    (hinputs : (Assoc.find? fs inputField).getD (.arr []) = .arr inputs)
    (houtput : Node.outputOf ((Assoc.find? fs outputField).getD .null) = .ok output) (name : String) :
    Node.ofEntry name (.obj fs) =
      .ok ⟨name, dependencies, inputs, output, fs.filter (!Node.derivedFields.contains ·.1)⟩ := by
  unfold Node.ofEntry
  rw [Json.getD_obj, Attempt.ok_bind, Json.getD_obj, Attempt.ok_bind, hdependencies, Json.elements_arr,
    Attempt.ok_bind, Json.getD_obj, Attempt.ok_bind, hinputs, Json.elements_arr, Attempt.ok_bind, houtput,
    Attempt.ok_bind, Json.items_obj, Attempt.ok_bind]
  rfl

namespace Definition

open Document

/-- What an entry says before qualification. -/
def ofRaw (kind : Kind) (e : String × Json) : Definition where
  name := kind.qualify e.1
  dependencies := (namesAt (fieldsOf e.2) "dependencies").map Kind.process.qualify
  inputs := (namesAt (fieldsOf e.2) "input_relations").map Kind.data.qualify
  output := ((Assoc.find? (fieldsOf e.2) "output_relation").bind Json.str?).map Kind.data.qualify

/-- What an entry says in its derived fields. -/
def ofDerived (e : String × Json) : Definition where
  name := e.1
  dependencies := namesAt (fieldsOf e.2) dependenciesField
  inputs := namesAt (fieldsOf e.2) inputField
  output := (namesAt (fieldsOf e.2) outputField).head?

/-- The derived fields of an entry are those of the definition. -/
structure Describes (d : Definition) (entry : Fields) : Prop where
  dependencies : (Assoc.find? entry dependenciesField).getD (.arr []) = .arr (d.dependencies.map .str)
  inputs : (Assoc.find? entry inputField).getD (.arr []) = .arr (d.inputs.map .str)
  output : Assoc.find? entry outputField = d.output.map fun r => .arr [.str r]

/-- An entry with the derived fields of the definition. -/
def onto (d : Definition) (entry : Fields) : Fields :=
  let fields := Assoc.set (Assoc.set entry dependenciesField (.arr (d.dependencies.map .str)))
    inputField (.arr (d.inputs.map .str))
  match d.output with
  | none => Assoc.erase fields outputField
  | some r => Assoc.set fields outputField (.arr [.str r])

/-- The names have the kinds that go with their places. -/
structure Kinded (d : Definition) : Prop where
  dependencies : ∀ n ∈ d.dependencies, Kind.of? n = some .process
  inputs : ∀ r ∈ d.inputs, Kind.of? r = some .data
  output : ∀ r, d.output = some r → Kind.of? r = some .data

/-- The lists of an entry are there, also where they are empty. -/
def Listed (entry : Fields) : Prop :=
  (Assoc.find? entry dependenciesField).isSome ∧ (Assoc.find? entry inputField).isSome

variable {d : Definition} {entry : Fields} {name path field : String}

/-! ## Lists of names -/

@[simp] theorem namesOf_texts (ns : List String) : namesOf (.arr (ns.map .str)) = ns := by
  simp [namesOf, List.filterMap_map, Json.str?, Function.comp_def]

theorem isNames_iff {v : Json} : isNames v = true ↔ ∃ ns : List String, v = .arr (ns.map .str) := by
  constructor
  · intro h
    cases v with
    | arr xs =>
      rw [isNames, List.all_eq_true] at h
      refine ⟨xs.filterMap Json.str?, congrArg Json.arr ?_⟩
      induction xs with
      | nil => rfl
      | cons x xs ih =>
        have hx := h x List.mem_cons_self
        have hxs := ih fun y hy => h y (List.mem_cons_of_mem x hy)
        cases x with
        | str n => simpa [Json.str?] using hxs
        | _ => simp [Json.isStr] at hx
    | _ => simp [isNames] at h
  · rintro ⟨ns, rfl⟩
    simp [isNames, Json.isStr]

theorem checkNames_iff {v : Json} :
    checkNames v path = .ok () ↔ ∃ ns : List String, v = .arr (ns.map .str) := by
  rw [← isNames_iff]
  unfold checkNames
  split
  · simp_all
  · simp_all [expected]

/-! ## Qualified entries -/

theorem Describes.ofDerived (h : d.Describes entry) : Definition.ofDerived (d.name, .obj entry) = d := by
  obtain ⟨name, dependencies, inputs, output⟩ := d
  obtain ⟨hdependencies, hinputs, houtput⟩ := h
  dsimp only at hdependencies hinputs houtput
  unfold Definition.ofDerived namesAt fieldsOf
  dsimp only
  congr 1
  · cases hd : Assoc.find? entry dependenciesField with
    | none => simp_all [namesOf]
    | some v => simp_all
  · cases hi : Assoc.find? entry inputField with
    | none => simp_all [namesOf]
    | some v => simp_all
  · rw [houtput]
    cases output with
    | none => rfl
    | some r => simp [namesOf, Json.str?]

theorem checkDerivedNames_iff {required : Bool} :
    checkDerivedNames entry path required field = .ok () ↔
      (Assoc.find? entry field).getD (.arr []) = .arr ((namesAt entry field).map .str) ∧
        (required = true → (Assoc.find? entry field).isSome) := by
  unfold checkDerivedNames namesAt
  cases Assoc.find? entry field with
  | none => cases required <;> simp [namesOf, expected]
  | some v =>
    dsimp only [Option.getD_some]
    rw [checkNames_iff]
    constructor
    · rintro ⟨ns, rfl⟩
      simp
    · rintro ⟨h, -⟩
      exact ⟨_, h⟩

theorem checkKinds_iff {what : String} {kind : Kind} :
    checkKinds entry path field what kind = .ok () ↔
      ∀ n ∈ namesAt entry field, Kind.of? n = some kind := by
  unfold checkKinds namesAt
  split
  · rename_i n hn
    have hbad := List.find?_some hn
    have hmem := List.mem_of_find?_eq_some hn
    simp only [expected, reduceCtorEq, false_iff]
    intro h
    simp [h n hmem] at hbad
  · rename_i hnone
    rw [List.find?_eq_none] at hnone
    simpa using hnone

theorem checkOutput_iff : checkOutput entry path = .ok () ↔
    Assoc.find? entry outputField = ((namesAt entry outputField).head?).map (fun r => .arr [.str r]) ∧
      ∀ r, (namesAt entry outputField).head? = some r → Kind.of? r = some .data := by
  unfold checkOutput namesAt
  cases hout : Assoc.find? entry outputField with
  | none => simp [namesOf]
  | some v =>
    match v with
    | .arr [.str r] =>
      by_cases hr : Kind.of? r = some .data <;>
        simp [Kind.ofValue?, namesOf, Json.str?, hr, expected]
    | .arr [.null] | .arr [.bool _] | .arr [.int _] | .arr [.float _] | .arr [.arr _] | .arr [.obj _] =>
      simp [Kind.ofValue?, namesOf, Json.str?, Json.misuse]
    | .arr [] => simp [namesOf, expected]
    | .arr (x :: y :: xs) =>
      simp only [expected, reduceCtorEq, false_iff]
      cases hhead : (namesOf (.arr (x :: y :: xs))).head? <;> simp_all
    | .null | .bool _ | .int _ | .float _ | .str _ | .obj _ => simp [namesOf, expected]

/-- An entry is accepted if its derived fields describe what it says, with names of the right
kinds. -/
theorem checkQualifiedEntry_iff (name : String) {required : Bool} :
    checkQualifiedEntry entry path required = .ok () ↔
      (Definition.ofDerived (name, .obj entry)).Describes entry ∧
        (Definition.ofDerived (name, .obj entry)).Kinded ∧ (required = true → Listed entry) := by
  unfold checkQualifiedEntry
  simp only [Attempt.check_bind_eq_ok, checkDerivedNames_iff, checkKinds_iff, checkOutput_iff]
  constructor
  · rintro ⟨⟨hd, hdlisted⟩, ⟨hi, hilisted⟩, hdkinds, hikinds, ho, hokind⟩
    exact ⟨⟨hd, hi, ho⟩, ⟨hdkinds, hikinds, hokind⟩, fun hr => ⟨hdlisted hr, hilisted hr⟩⟩
  · rintro ⟨⟨hd, hi, ho⟩, ⟨hdkinds, hikinds, hokind⟩, hlisted⟩
    exact ⟨⟨hd, fun hr => (hlisted hr).1⟩, ⟨hi, fun hr => (hlisted hr).2⟩, hdkinds, hikinds, ho, hokind⟩

/-- The order of the fields does not matter. -/
theorem Describes.sortKeys (h : d.Describes entry) :
    d.Describes (Text.sortOn (·.1) (Json.sortKeysFields entry)) := by
  have htexts : ∀ ns : List String, (Json.arr (ns.map .str)).sortKeys = .arr (ns.map .str) := by
    intro ns
    simp [Json.sortKeys, Json.sortKeysList_eq_map, Function.comp_def]
  have hlist : ∀ (v : Option Json) (ns : List String), v.getD (.arr []) = .arr (ns.map .str) →
      (v.map Json.sortKeys).getD (.arr []) = .arr (ns.map .str) := by
    intro v ns hv
    cases v with
    | none => exact hv
    | some v =>
      obtain rfl : v = _ := hv
      exact htexts ns
  refine ⟨?_, ?_, ?_⟩
  · rw [Json.find?_sortKeysFields]
    exact hlist _ _ h.dependencies
  · rw [Json.find?_sortKeysFields]
    exact hlist _ _ h.inputs
  · rw [Json.find?_sortKeysFields, h.output]
    cases d.output with
    | none => rfl
    | some r => exact congrArg some (htexts [r])

/-! ## Raw entries -/

theorem checkRawNames_iff : checkRawNames entry path field = .ok () ↔
    (Assoc.find? entry field).bind Json.toOption = none ∨
      Assoc.find? entry field = some (.arr ((namesAt entry field).map .str)) := by
  unfold checkRawNames namesAt
  cases Assoc.find? entry field with
  | none => simp
  | some v =>
    by_cases hnull : v = .null
    · simp [hnull, Json.toOption]
    · simp only [Option.bind_some, Json.toOption_of_ne_null hnull, checkNames_iff, Option.getD_some,
        reduceCtorEq, false_or, Option.some.injEq]
      constructor
      · rintro ⟨ns, rfl⟩
        rw [namesOf_texts]
      · intro h
        exact ⟨_, h⟩

theorem qualifiedNames_eq {kind : Kind} (h : checkRawNames entry path field = .ok ()) :
    qualifiedNames kind (.obj entry) field =
      .ok (((namesAt entry field).map kind.qualify).map .str) := by
  unfold qualifiedNames
  rw [Json.getD_obj, Attempt.ok_bind]
  rcases checkRawNames_iff.1 h with hnone | hsome
  · have hnull : (Assoc.find? entry field).getD .null = .null := by
      cases hf : Assoc.find? entry field with
      | none => rfl
      | some v => cases v <;> simp_all [Json.toOption]
    unfold namesAt
    rw [hnull]
    rfl
  · rw [hsome, Option.getD_some]
    cases hns : namesAt entry field with
    | nil => rfl
    | cons n ns =>
      have hall : ∀ v ∈ (n :: ns).map Json.str, (do return .str (← kind.qualifyValue v) : Attempt Json) =
          .ok (.str (kind.qualify ((Json.str? v).getD ""))) := by
        intro v hv
        obtain ⟨m, -, rfl⟩ := List.mem_map.1 hv
        rfl
      rw [if_pos (by rfl), Json.elements_arr, Attempt.ok_bind, Attempt.mapM_eq_ok hall]
      simp [Json.str?, Function.comp_def]

/-- Qualification writes down what an entry says. -/
theorem qualifyEntry_raw (kind : Kind) (name : String) (h : checkRawEntry entry path = .ok ()) :
    qualifyEntry (.obj entry) = .ok (.obj ((ofRaw kind (name, .obj entry)).onto entry)) := by
  unfold checkRawEntry at h
  simp only [Attempt.check_bind_eq_ok] at h
  obtain ⟨hdependencies, hinputs, houtput⟩ := h
  unfold qualifyEntry
  rw [qualifiedNames_eq hdependencies, Attempt.ok_bind, qualifiedNames_eq hinputs, Attempt.ok_bind,
    Json.fieldsFor_obj, Attempt.ok_bind, Json.getD_obj, Attempt.ok_bind]
  cases hfind : Assoc.find? entry "output_relation" with
  | none => simp [ofRaw, fieldsOf, onto, hfind]
  | some v =>
    cases v with
    | null => simp [ofRaw, fieldsOf, onto, hfind, Json.str?]
    | str r => simp [ofRaw, fieldsOf, onto, hfind, Json.str?, Kind.qualifyValue]
    | _ => simp [hfind, Json.toOption, Json.isStr, expected] at houtput

theorem find?_onto (d : Definition) (entry : Fields) (k : String) : Assoc.find? (d.onto entry) k =
    if k = outputField then d.output.map fun r => .arr [.str r]
    else if k = inputField then some (.arr (d.inputs.map .str))
    else if k = dependenciesField then some (.arr (d.dependencies.map .str))
    else Assoc.find? entry k := by
  unfold onto
  cases d.output with
  | none =>
    rw [Assoc.find?_erase, Assoc.find?_set, Assoc.find?_set]
    simp only [eq_comm, Option.map_none]
  | some r =>
    rw [Assoc.find?_set, Assoc.find?_set, Assoc.find?_set]
    simp only [eq_comm, Option.map_some]

theorem describes_onto (d : Definition) (entry : Fields) : d.Describes (d.onto entry) := by
  refine ⟨?_, ?_, ?_⟩ <;>
    simp [find?_onto, show dependenciesField ≠ outputField by decide,
      show dependenciesField ≠ inputField by decide, show inputField ≠ outputField by decide]

theorem listed_onto (d : Definition) (entry : Fields) : Listed (d.onto entry) := by
  constructor <;>
    simp [find?_onto, show dependenciesField ≠ outputField by decide,
      show dependenciesField ≠ inputField by decide, show inputField ≠ outputField by decide]

theorem kinded_ofRaw (kind : Kind) (e : String × Json) : (ofRaw kind e).Kinded where
  dependencies n hn := by
    obtain ⟨m, -, rfl⟩ := List.mem_map.1 hn
    exact Kind.of?_qualify _ m
  inputs n hn := by
    obtain ⟨m, -, rfl⟩ := List.mem_map.1 hn
    exact Kind.of?_qualify _ m
  output r hr := by
    obtain ⟨m, -, rfl⟩ := Option.map_eq_some_iff.1 hr
    exact Kind.of?_qualify _ m

/-! ## Processes -/

/-- The process is the one that the definition says. -/
structure Says (d : Definition) (n : Node) : Prop where
  name : n.name = d.name
  dependencies : n.dependencies = d.dependencies.map .str
  inputs : n.inputs = d.inputs.map .str
  output : n.output = d.output.map .str

theorem ofEntry_node (h : d.Describes entry) :
    ∃ n, Node.ofEntry d.name (.obj entry) = .ok n ∧ d.Says n := by
  have houtput : Node.outputOf ((Assoc.find? entry outputField).getD .null) =
      .ok (d.output.map .str) := by
    rw [h.output]
    cases d.output <;> rfl
  exact ⟨_, Node.ofEntry_obj h.dependencies h.inputs houtput d.name, rfl, rfl, rfl, rfl⟩

end Definition

end FlowPlan

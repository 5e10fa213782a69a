import FlowPlan.Proofs.Document.Parts
import Mathlib.Tactic.MkIffOfInductiveProp

/-!
# The grammar of documents

The two levels of documents, said without the checker: which sections there are, how definitions are
named and what stands in their fields. Null reads as absent in the sections and entries of a raw
document, and nowhere in a qualified one.

## Main definitions

* `Kind.Leads` — a name begins with its kind.
* `Document.RawEntry`, `Document.QualifiedEntry` — the fields of a definition, before and after
  qualification.
* `Document.RawDocument`, `Document.QualifiedDocument` — the sections of a document.

## Main statements

* `Kind.of?_eq_some_iff` — the kind of a name is told by its beginning.
* `Document.checkRawEntry_iff`, `Document.checkQualifiedEntry_iff_entry` — which definitions are accepted.
* `Document.check_iff_grammar` — which values are accepted as documents.
-/

namespace FlowPlan

namespace Kind

/-- The name begins with the name of the kind and a slash. -/
def Leads (k : Kind) (n : String) : Prop := ∃ rest, n = k.name ++ "/" ++ rest

variable {k : Kind} {n : String}

/-- A name without a slash has no kind, and one with a slash is cut at the first. -/
theorem of?_eq_some_iff : of? n = some k ↔ k.Leads n := by
  constructor
  · intro h
    unfold of? at h
    dsimp only at h
    split at h
    · rename_i hlength
      have hname : k.name = String.ofList (n.toList.takeWhile (· ≠ '/')) := by
        have := List.find?_some h
        simpa using this
      have hrest : n.toList.dropWhile (· ≠ '/') ≠ [] := by
        intro hnil
        have hall := List.takeWhile_append_dropWhile (p := (· ≠ '/')) (l := n.toList)
        rw [hnil, List.append_nil] at hall
        rw [hall, String.length_toList] at hlength
        exact Nat.lt_irrefl _ hlength
      obtain ⟨c, rest, hdrop⟩ := List.exists_cons_of_ne_nil hrest
      have hslash : c = '/' := by
        have := List.head?_dropWhile_not (· ≠ '/') n.toList
        rw [hdrop] at this
        simpa using this
      have hsplit := List.takeWhile_append_dropWhile (p := (· ≠ '/')) (l := n.toList)
      rw [hdrop, hslash] at hsplit
      refine ⟨String.ofList rest, String.toList_inj.1 ?_⟩
      rw [String.toList_append, String.toList_append, hname, String.toList_ofList, String.toList_ofList]
      simpa using hsplit.symm
    · cases h
  · rintro ⟨rest, rfl⟩
    exact of?_of_lead rest.toList (by simp [lead])

/-- A name belongs to the kind that it has. -/
theorem owns_iff : k.owns n = true ↔ of? n = some k := by
  rw [owns, List.isPrefixOf_iff_prefix]
  constructor
  · rintro ⟨rest, hrest⟩
    exact of?_of_lead rest hrest.symm
  · intro h
    obtain ⟨rest, rfl⟩ := of?_eq_some_iff.1 h
    exact ⟨rest.toList, by simp [lead]⟩

theorem qualify_eq (k : Kind) (n : String) : k.qualify n = if of? n = some k then n else k.lead ++ n := by
  unfold qualify
  simp only [owns_iff]

end Kind

namespace Document

open Definition

/-- The value is a list of names with the property. -/
def NamesOf (P : String → Prop) (v : Json) : Prop :=
  ∃ ns : List String, v = .arr (ns.map .str) ∧ ∀ n ∈ ns, P n

/-- The value is a mapping of mappings, each with the property under its name. -/
def MappingOf (P : String → Fields → Prop) (v : Json) : Prop :=
  ∃ es, v = .obj es ∧ ∀ e ∈ es, ∃ entry, e.2 = .obj entry ∧ P e.1 entry

/-- The field has the property, where it is present. -/
def FieldIs (entry : Fields) (field : String) (P : Json → Prop) : Prop :=
  ∀ v, Assoc.find? entry field = some v → P v

/-- A definition before qualification: what it depends on and reads are lists of names, and what it
writes is a name. -/
@[mk_iff]
structure RawEntry (entry : Fields) : Prop where
  dependencies : FieldIs entry "dependencies" fun v => v = .null ∨ NamesOf (fun _ => True) v
  inputs : FieldIs entry "input_relations" fun v => v = .null ∨ NamesOf (fun _ => True) v
  output : FieldIs entry "output_relation" fun v => v = .null ∨ ∃ n, v = .str n

/-- A definition after qualification: its derived fields are lists of names of the right kinds, and it
writes exactly one relation, if any. -/
structure QualifiedEntry (entry : Fields) : Prop where
  dependencies : FieldIs entry dependenciesField (NamesOf Kind.process.Leads)
  inputs : FieldIs entry inputField (NamesOf Kind.data.Leads)
  output : FieldIs entry outputField fun v => ∃ n, v = .arr [.str n] ∧ Kind.data.Leads n

/-- A document before qualification. What stands under a section that is no mapping does not count. -/
structure RawDocument (document : Fields) : Prop where
  extractors : ∀ v, part? document "extraction" "extractors" = some v →
    v = .null ∨ MappingOf (fun _ entry => RawEntry entry) v
  factors : ∀ v, part? document "inference" "factors" = some v →
    v = .null ∨ MappingOf (fun _ entry => RawEntry entry) v
  processes : ∀ v, part? document "execution" "processes" = some v →
    v = .null ∨ MappingOf (fun _ _ => True) v

/-- A document after qualification. Extractors and factors have both lists; processes may lack them. -/
structure QualifiedDocument (document : Fields) : Prop where
  extractors : ∃ v, part? document "extraction" "extractors" = some v ∧
    MappingOf (fun n entry => Kind.process.Leads n ∧ Listed entry ∧ QualifiedEntry entry) v
  factors : ∃ v, part? document "inference" "factors" = some v ∧
    MappingOf (fun n entry => Kind.factor.Leads n ∧ Listed entry ∧ QualifiedEntry entry) v
  processes : ∃ v, part? document "execution" "processes" = some v ∧
    MappingOf (fun n entry => (Kind.process.Leads n ∨ Kind.factor.Leads n) ∧ QualifiedEntry entry) v

variable {document entry : Fields} {outer inner path field what : String} {kind : Kind}
  {P Q : String → Fields → Prop}

/-! ## Definitions -/

theorem checkRawNames_iff_field : checkRawNames entry path field = .ok () ↔
    FieldIs entry field fun v => v = .null ∨ NamesOf (fun _ => True) v := by
  unfold checkRawNames FieldIs
  cases Assoc.find? entry field with
  | none => simp
  | some v =>
    by_cases hnull : v = .null
    · simp [hnull, Json.toOption]
    · simp [Json.toOption_of_ne_null hnull, checkNames_iff, NamesOf, hnull]

/-- Which definitions are accepted before qualification. -/
theorem checkRawEntry_iff : checkRawEntry entry path = .ok () ↔ RawEntry entry := by
  unfold checkRawEntry
  rw [Attempt.check_bind_eq_ok, Attempt.check_bind_eq_ok, checkRawNames_iff_field, checkRawNames_iff_field,
    rawEntry_iff]
  refine and_congr_right fun _ => and_congr_right fun _ => ?_
  unfold FieldIs
  cases Assoc.find? entry "output_relation" with
  | none => simp
  | some v => cases v <;> simp [Json.toOption, Json.isStr, expected]

/-- A derived list is a list of names, all of its kind. -/
theorem derived_iff_field {required : Bool} :
    checkDerivedNames entry path required field = .ok () ∧ checkKinds entry path field what kind = .ok () ↔
      FieldIs entry field (NamesOf kind.Leads) ∧
        (required = true → (Assoc.find? entry field).isSome) := by
  rw [checkKinds_iff]
  unfold checkDerivedNames FieldIs namesAt
  cases Assoc.find? entry field with
  | none => cases required <;> simp [namesOf, expected]
  | some v =>
    simp only [Option.getD_some, Option.some.injEq, forall_eq', Option.isSome_some, implies_true, and_true,
      checkNames_iff, NamesOf, Kind.of?_eq_some_iff]
    constructor
    · rintro ⟨⟨ns, rfl⟩, hkinds⟩
      exact ⟨ns, rfl, by simpa using hkinds⟩
    · rintro ⟨ns, rfl, hkinds⟩
      exact ⟨⟨ns, rfl⟩, by simpa using hkinds⟩

theorem checkOutput_iff_field : checkOutput entry path = .ok () ↔
    FieldIs entry outputField fun v => ∃ n, v = .arr [.str n] ∧ Kind.data.Leads n := by
  unfold checkOutput FieldIs
  cases Assoc.find? entry outputField with
  | none => simp
  | some v =>
    simp only [Option.some.injEq, forall_eq', ← Kind.of?_eq_some_iff]
    match v with
    | .arr [.str n] => by_cases hn : Kind.of? n = some .data <;> simp [Kind.ofValue?, hn, expected]
    | .arr [.null] | .arr [.bool _] | .arr [.int _] | .arr [.float _] | .arr [.arr _] | .arr [.obj _] =>
      simp [Kind.ofValue?, Json.misuse]
    | .arr [] | .arr (_ :: _ :: _) => simp [expected]
    | .null | .bool _ | .int _ | .float _ | .str _ | .obj _ => simp [expected]

/-- Which definitions are accepted after qualification. -/
theorem checkQualifiedEntry_iff_entry {required : Bool} :
    checkQualifiedEntry entry path required = .ok () ↔
      QualifiedEntry entry ∧ (required = true → Listed entry) := by
  unfold checkQualifiedEntry
  simp only [Attempt.check_bind_eq_ok, checkOutput_iff_field]
  constructor
  · rintro ⟨hdependencies, hinputs, hprocesses, hdata, houtput⟩
    obtain ⟨hdependencies, hlisted⟩ := derived_iff_field.1 ⟨hdependencies, hprocesses⟩
    obtain ⟨hinputs, hlisted'⟩ := derived_iff_field.1 ⟨hinputs, hdata⟩
    exact ⟨⟨hdependencies, hinputs, houtput⟩, fun hrequired => ⟨hlisted hrequired, hlisted' hrequired⟩⟩
  · rintro ⟨⟨hdependencies, hinputs, houtput⟩, hlisted⟩
    obtain ⟨hdependencies, hprocesses⟩ := derived_iff_field.2 ⟨hdependencies, fun hr => (hlisted hr).1⟩
    obtain ⟨hinputs, hdata⟩ := derived_iff_field.2 ⟨hinputs, fun hr => (hlisted hr).2⟩
    exact ⟨hdependencies, hinputs, hprocesses, hdata, houtput⟩

theorem checkDefinition_iff {path n : String} :
    checkDefinition .qualified kind path n entry = .ok () ↔
      kind.Leads n ∧ Listed entry ∧ QualifiedEntry entry := by
  unfold checkDefinition
  dsimp only
  rw [← Kind.of?_eq_some_iff]
  split
  · simp_all [checkQualifiedEntry_iff_entry, and_comm]
  · simp_all [expected]

theorem checkProcess_iff_entry {path n : String} : checkProcess path n entry = .ok () ↔
    (Kind.process.Leads n ∨ Kind.factor.Leads n) ∧ QualifiedEntry entry := by
  unfold checkProcess
  rw [← Kind.of?_eq_some_iff, ← Kind.of?_eq_some_iff]
  split <;> simp_all [checkQualifiedEntry_iff_entry, expected]

/-! ## Sections -/

theorem lists_optional : Lists document outer inner false P ↔
    ∀ v, part? document outer inner = some v → v = .null ∨ MappingOf P v := by
  unfold Lists MappingOf
  cases part? document outer inner <;> simp

theorem lists_required : Lists document outer inner true P ↔
    ∃ v, part? document outer inner = some v ∧ MappingOf P v := by
  unfold Lists MappingOf
  cases part? document outer inner <;> simp

/-- Which values are accepted as documents: at the raw level the raw documents, at the qualified level
the qualified ones. -/
theorem check_iff_grammar (d : Json) :
    (check d .raw = .ok () ↔ ∃ document, d = .obj document ∧ RawDocument document) ∧
      (check d .qualified = .ok () ↔ ∃ document, d = .obj document ∧ QualifiedDocument document) := by
  cases d with
  | obj document =>
    simp only [Json.obj.injEq, exists_eq_left', check_iff, definitionSections, List.forall_mem_cons,
      List.not_mem_nil, false_implies, implies_true, and_true, reduceCtorEq, decide_false, decide_true,
      lists_optional, lists_required, checkDefinition_iff, checkProcess_iff_entry, forall_const]
    refine ⟨?_, ?_⟩
    · simp only [checkDefinition, checkRawEntry_iff]
      exact ⟨fun ⟨⟨hextractors, hfactors⟩, hprocesses⟩ => ⟨hextractors, hfactors, hprocesses⟩,
        fun h => ⟨⟨h.extractors, h.factors⟩, h.processes⟩⟩
    · exact ⟨fun ⟨⟨hextractors, hfactors⟩, hprocesses⟩ => ⟨hextractors, hfactors, hprocesses⟩,
        fun h => ⟨⟨h.extractors, h.factors⟩, h.processes⟩⟩
  | _ => simp [check, Json.isObj, expected]

end Document

end FlowPlan

import FlowPlan.Proofs.Document.Parts
import FlowPlan.Proofs.Json.Reordering

/-!
# Documents in the order of their keys

An artifact keeps a document with its keys in order. Its parts are those of the document, each with its
keys in order, and it has the shape of a level if the document has.

## Main definitions

* `Document.sorted` — the fields of a document as an artifact keeps them.

## Main statements

* `Document.part?_sorted`, `Document.entriesIn_sorted` — the parts of a sorted document.
* `Document.check_sorted` — its shape.
* `Document.alike_of_parts` — documents with alike parts are alike.
-/

namespace FlowPlan

namespace Json

variable {v : Json}

theorem str?_sortKeys (v : Json) : v.sortKeys.str? = v.str? := by
  cases v <;> simp [sortKeys, str?]

theorem isStr_sortKeys (v : Json) : v.sortKeys.isStr = v.isStr := by
  cases v <;> simp [sortKeys, isStr]

theorem sortKeys_eq_null : v.sortKeys = .null ↔ v = .null := by
  cases v <;> simp [sortKeys]

theorem toOption_sortKeys (v : Json) : v.sortKeys.toOption = v.toOption.map sortKeys := by
  cases v <;> simp [sortKeys, toOption]

end Json

theorem Kind.ofValue?_sortKeys (v : Json) : Kind.ofValue? v.sortKeys = Kind.ofValue? v := by
  cases v <;> simp [Json.sortKeys, Kind.ofValue?, Json.kindName]

namespace Document

/-- The fields as an artifact keeps them. -/
def sorted (document : Fields) : Fields := Text.sortOn (·.1) (Json.sortKeysFields document)

variable {document document' : Fields} {outer inner : String} {es : Fields}

theorem sortKeys_obj (document : Fields) : (Json.obj document).sortKeys = .obj (sorted document) := by
  rw [Json.sortKeys, sorted]

theorem alike_iff : (Json.obj document).Alike (.obj document') ↔ sorted document = sorted document' := by
  rw [Json.Alike, sortKeys_obj, sortKeys_obj, Json.obj.injEq]

@[simp] theorem sorted_nil : sorted [] = [] := by
  simp [sorted, Json.sortKeysFields, Text.sortOn]

theorem find?_sorted (document : Fields) (k : String) :
    Assoc.find? (sorted document) k = (Assoc.find? document k).map Json.sortKeys :=
  Json.find?_sortKeysFields document k

theorem mem_sorted {x : String × Json} : x ∈ sorted es ↔ ∃ e ∈ es, x = (e.1, e.2.sortKeys) := by
  unfold Document.sorted
  rw [Text.mem_sortOn, Json.sortKeysFields_eq_map, List.mem_map]
  simp only [eq_comm]

theorem keys_sorted_perm (es : Fields) : (Assoc.keys (sorted es)).Perm (Assoc.keys es) := by
  have hperm := (Text.sortOn_perm (·.1) (Json.sortKeysFields es)).map (·.1)
  rwa [Json.keys_sortKeysFields] at hperm

/-! ## Parts -/

theorem part?_sorted (document : Fields) (outer inner : String) :
    part? (sorted document) outer inner = (part? document outer inner).map Json.sortKeys := by
  unfold part?
  rw [find?_sorted]
  cases Assoc.find? document outer with
  | none => rfl
  | some v =>
    cases v with
    | obj fs =>
      rw [Option.map_some, sortKeys_obj]
      exact find?_sorted fs inner
    | _ => simp [Json.sortKeys]

theorem fieldsOf_sortKeys (v : Json) : fieldsOf v.sortKeys = sorted (fieldsOf v) := by
  cases v with
  | obj fs => rw [sortKeys_obj, fieldsOf, fieldsOf]
  | _ => simp [Json.sortKeys, fieldsOf]

theorem entriesIn_sorted (document : Fields) (outer inner : String) :
    entriesIn (sorted document) outer inner = sorted (entriesIn document outer inner) := by
  unfold entriesIn
  rw [part?_sorted, ← fieldsOf_sortKeys]
  cases part? document outer inner with
  | none => simp [Json.sortKeys]
  | some v => rfl

theorem IsOpen.sorted (h : IsOpen document outer) : IsOpen (sorted document) outer := by
  obtain ⟨fs, hfs⟩ := h
  exact ⟨Document.sorted fs, by rw [find?_sorted, hfs, Option.map_some, sortKeys_obj]⟩

theorem isOpen_sorted : IsOpen (sorted document) outer ↔ IsOpen document outer := by
  refine ⟨fun ⟨fs, hfs⟩ => ?_, IsOpen.sorted⟩
  rw [find?_sorted, Option.map_eq_some_iff] at hfs
  obtain ⟨v, hv, hsorted⟩ := hfs
  cases v with
  | obj gs => exact ⟨gs, hv⟩
  | _ => simp [Json.sortKeys] at hsorted

theorem isSection_sorted : IsSection (sorted document) outer ↔ IsSection document outer := by
  unfold IsSection
  rw [isOpen_sorted, find?_sorted, Option.map_eq_none_iff, Option.map_eq_some_iff]
  simp only [Json.sortKeys_eq_null, exists_eq_right]

theorem IsSection.sorted (h : IsSection document outer) : IsSection (sorted document) outer :=
  isSection_sorted.2 h

/-! ## Shapes -/

theorem namesOf_sortKeys (v : Json) : namesOf v.sortKeys = namesOf v := by
  cases v with
  | arr xs =>
    rw [Json.sortKeys, Json.sortKeysList_eq_map, namesOf, namesOf, List.filterMap_map]
    exact congrArg (List.filterMap · xs) (funext Json.str?_sortKeys)
  | _ => simp [Json.sortKeys, namesOf]

theorem isNames_sortKeys (v : Json) : isNames v.sortKeys = isNames v := by
  cases v with
  | arr xs =>
    rw [Json.sortKeys, Json.sortKeysList_eq_map, isNames, isNames, List.all_map]
    exact congrArg (List.all xs ·) (funext Json.isStr_sortKeys)
  | _ => simp [Json.sortKeys, isNames]

theorem namesAt_sorted (entry : Fields) (field : String) :
    namesAt (sorted entry) field = namesAt entry field := by
  unfold namesAt
  rw [find?_sorted, ← namesOf_sortKeys ((Assoc.find? entry field).getD .null)]
  cases Assoc.find? entry field with
  | none => simp [Json.sortKeys]
  | some v => rfl

theorem checkRawNames_sorted (entry : Fields) (path field : String) :
    checkRawNames (sorted entry) path field = checkRawNames entry path field := by
  unfold checkRawNames checkNames
  rw [find?_sorted]
  cases Assoc.find? entry field with
  | none => rfl
  | some v =>
    rw [Option.map_some, Option.bind_some, Option.bind_some, Json.toOption_sortKeys]
    cases v.toOption with
    | none => rfl
    | some v => simp only [Option.map_some, isNames_sortKeys]

theorem checkRawEntry_sorted (entry : Fields) (path : String) :
    checkRawEntry (sorted entry) path = checkRawEntry entry path := by
  unfold checkRawEntry
  rw [checkRawNames_sorted, checkRawNames_sorted, find?_sorted]
  cases Assoc.find? entry "output_relation" with
  | none => rfl
  | some v =>
    rw [Option.map_some, Option.bind_some, Option.bind_some, Json.toOption_sortKeys]
    cases v.toOption with
    | none => rfl
    | some v => simp only [Option.map_some, Json.isStr_sortKeys]

theorem checkDerivedNames_sorted (entry : Fields) (path : String) (required : Bool) (field : String) :
    checkDerivedNames (sorted entry) path required field =
      checkDerivedNames entry path required field := by
  unfold checkDerivedNames checkNames
  rw [find?_sorted]
  cases Assoc.find? entry field with
  | none => rfl
  | some v => simp only [Option.map_some, isNames_sortKeys]

theorem checkKinds_sorted (entry : Fields) (path field what : String) (kind : Kind) :
    checkKinds (sorted entry) path field what kind = checkKinds entry path field what kind := by
  have hnames := namesAt_sorted entry field
  unfold namesAt at hnames
  unfold checkKinds
  rw [hnames]

theorem checkOutput_sorted (entry : Fields) (path : String) :
    checkOutput (sorted entry) path = checkOutput entry path := by
  unfold checkOutput
  rw [find?_sorted]
  cases Assoc.find? entry outputField with
  | none => rfl
  | some v =>
    match v with
    | .arr [] => simp [Json.sortKeys, Json.sortKeysList]
    | .arr [x] => simp [Json.sortKeys, Json.sortKeysList, Kind.ofValue?_sortKeys]
    | .arr (x :: y :: xs) => simp [Json.sortKeys, Json.sortKeysList]
    | .null | .bool _ | .int _ | .float _ | .str _ | .obj _ => simp [Json.sortKeys]

theorem checkQualifiedEntry_sorted (entry : Fields) (path : String) (required : Bool) :
    checkQualifiedEntry (sorted entry) path required = checkQualifiedEntry entry path required := by
  unfold checkQualifiedEntry
  rw [checkDerivedNames_sorted, checkDerivedNames_sorted, checkKinds_sorted, checkKinds_sorted,
    checkOutput_sorted]

theorem checkDefinition_sorted (level : Level) (kind : Kind) (path name : String) (entry : Fields) :
    checkDefinition level kind path name (sorted entry) = checkDefinition level kind path name entry := by
  cases level with
  | raw => exact checkRawEntry_sorted entry _
  | qualified =>
    unfold checkDefinition
    rw [checkQualifiedEntry_sorted]

theorem checkProcess_sorted (path name : String) (entry : Fields) :
    checkProcess path name (sorted entry) = checkProcess path name entry := by
  unfold checkProcess
  rw [checkQualifiedEntry_sorted]

theorem lists_sorted {required : Bool} {P : String → Fields → Prop}
    (hP : ∀ n fs, P n (sorted fs) ↔ P n fs) :
    Lists (sorted document) outer inner required P ↔ Lists document outer inner required P := by
  have hentries : ∀ es : Fields, (∀ e ∈ sorted es, ∃ fs, e.2 = .obj fs ∧ P e.1 fs) ↔
      ∀ e ∈ es, ∃ fs, e.2 = .obj fs ∧ P e.1 fs := by
    intro es
    constructor
    · intro h e he
      obtain ⟨fs, hfs, hp⟩ := h _ (mem_sorted.2 ⟨e, he, rfl⟩)
      obtain ⟨n, v⟩ := e
      cases v with
      | obj gs =>
        obtain rfl : sorted gs = fs := Json.obj.inj (sortKeys_obj gs ▸ hfs)
        exact ⟨gs, rfl, (hP n gs).1 hp⟩
      | _ => simp [Json.sortKeys] at hfs
    · intro h x hx
      obtain ⟨e, he, rfl⟩ := mem_sorted.1 hx
      obtain ⟨fs, hfs, hp⟩ := h e he
      exact ⟨sorted fs, by rw [hfs, sortKeys_obj], (hP _ fs).2 hp⟩
  unfold Lists
  rw [part?_sorted]
  cases part? document outer inner with
  | none => simp
  | some v =>
    cases v with
    | obj fs =>
      rw [Option.map_some, sortKeys_obj]
      simp only [Option.getD_some, reduceCtorEq, and_false, Option.some.injEq, Json.obj.injEq,
        exists_eq_left', false_or]
      exact hentries fs
    | _ => simp [Json.sortKeys]

/-- A document has the shape of a level whatever the order of its keys. -/
theorem check_sorted {level : Level} :
    check (.obj (sorted document)) level = .ok () ↔ check (.obj document) level = .ok () := by
  rw [check_iff, check_iff, lists_sorted fun n fs => by rw [checkProcess_sorted]]
  refine and_congr_left fun _ => forall₂_congr fun x _ => ?_
  rw [lists_sorted fun n fs => by rw [checkDefinition_sorted]]

/-! ## Alike documents -/

theorem part?_alike (h : (Json.obj document).Alike (.obj document'))
    (outer inner : String) : (part? document outer inner).map Json.sortKeys =
      (part? document' outer inner).map Json.sortKeys := by
  rw [← part?_sorted, alike_iff.1 h, part?_sorted]

theorem check_alike (h : (Json.obj document).Alike (.obj document')) {level : Level} :
    check (.obj document) level = .ok () ↔ check (.obj document') level = .ok () := by
  rw [← check_sorted, alike_iff.1 h, check_sorted]

/-- Documents are alike if these sections have alike parts, and what stands outside of them is alike. -/
theorem alike_of_parts {outers : List String} (honce : Once document) (honce' : Once document')
    (hopen : ∀ o ∈ outers, IsOpen document o) (hopen' : ∀ o ∈ outers, IsOpen document' o)
    (hinside : ∀ o ∈ outers, ∀ i, (part? document o i).map Json.sortKeys =
      (part? document' o i).map Json.sortKeys)
    (houtside : ∀ o, o ∉ outers → (Assoc.find? document o).map Json.sortKeys =
      (Assoc.find? document' o).map Json.sortKeys) :
    (Json.obj document).Alike (.obj document') := by
  refine Json.alike_of_find? honce.keys honce'.keys fun o => ?_
  by_cases ho : o ∈ outers
  · obtain ⟨fs, hfs⟩ := hopen o ho
    obtain ⟨gs, hgs⟩ := hopen' o ho
    have halike : (Json.obj fs).Alike (.obj gs) := by
      refine Json.alike_of_find? (honce.inside o fs hfs) (honce'.inside o gs hgs) fun i => ?_
      rw [← part?_of_open hfs, ← part?_of_open hgs, hinside o ho]
    rw [hfs, hgs, Option.map_some, Option.map_some, halike]
  · exact houtside o ho

end Document

end FlowPlan

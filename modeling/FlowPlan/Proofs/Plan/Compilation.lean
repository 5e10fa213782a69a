import FlowPlan.Proofs.Document.Qualification
import FlowPlan.Proofs.Plan.Judgement
import FlowPlan.Unit.Stages

/-!
# What the standard stages make of a document

The standard stages put all definitions of a document into one plan. They fail, or record a
collision, exactly if a definition is out of shape or a name is defined twice.

## Main definitions

* `Document.definitions` — the definitions of a document, before any stage.
* `Document.Proper` — the sections of a document are mappings where they are given.
* `Document.Shaped` — every definition has its shape and a name of its own.
* `Document.compile` — the stages, one after another.

## Main statements

* `Plan.ofDocument_run` — the plan of processes that describe definitions.
* `Document.compile_of_shaped` — a shaped document is compiled.
* `Document.shaped_of_compile` — and no other one without a collision.
-/

namespace FlowPlan

namespace Document

open Definition

/-- The definitions of a document: the processes that it gives itself, its extractors and its
factors. -/
def definitions (document : Fields) : List Definition :=
  (entriesIn document "execution" "processes").map ofDerived ++
    (entriesIn document "extraction" "extractors").map (ofRaw .process) ++
    (entriesIn document "inference" "factors").map (ofRaw .factor)

/-- The sections that the compiler reads are mappings, where they are given, and the collisions are
names. A mapping binds every name once. -/
structure Proper (document : Fields) : Prop where
  sections : ∀ o ∈ ["extraction", "inference", "execution", "schema"], IsSection document o
  relations : (part? document "schema" "relations").getD .null = .null ∨
    ∃ es, part? document "schema" "relations" = some (.obj es)
  collisions : ∃ names, Records document names
  once : (Assoc.keys (entriesIn document "execution" "processes")).Nodup

/-- The entry is a process of a qualified plan. -/
def IsProcess (e : String × Json) : Prop :=
  ∃ fs, e.2 = .obj fs ∧ checkProcess "execution.processes" e.1 fs = .ok ()

/-- Every definition has the shape that goes with its place, and a name of its own. -/
structure Shaped (document : Fields) : Prop where
  raw : check (.obj document) .raw = .ok ()
  processes : ∀ e ∈ entriesIn document "execution" "processes", IsProcess e
  collisions : Records document []
  names : ((definitions document).map (·.name)).Nodup

/-- The entries describe the definitions, one each. -/
structure Represents (es : Fields) (ds : List Definition) : Prop where
  entry : ∀ e ∈ es, ∃ d ∈ ds, ∃ fs, e = (d.name, .obj fs) ∧ d.Describes fs
  definition : ∀ d ∈ ds, ∃ fs, (d.name, .obj fs) ∈ es ∧ d.Describes fs
  nodup : (Assoc.keys es).Nodup

variable {document document' : Fields} {outer inner : String} {es fa pr : Fields}
  {e : String × Json}

/-! ## Processes -/

theorem checkProcess_iff {path name : String} {entry : Fields} :
    checkProcess path name entry = .ok () ↔
      (Kind.of? name = some .process ∨ Kind.of? name = some .factor) ∧
        (ofDerived (name, .obj entry)).Describes entry ∧ (ofDerived (name, .obj entry)).Kinded := by
  unfold checkProcess
  have hentry : checkQualifiedEntry entry s!"{path}.{name}" false = .ok () ↔
      (ofDerived (name, .obj entry)).Describes entry ∧ (ofDerived (name, .obj entry)).Kinded := by
    rw [checkQualifiedEntry_iff name]
    simp
  rcases hkind : Kind.of? name with _ | k
  · simp [expected]
  · cases k <;> simp [expected, hentry]

theorem IsProcess.describes (h : IsProcess e) : ∃ fs, e = ((ofDerived e).name, .obj fs) ∧
    (ofDerived e).Describes fs := by
  obtain ⟨n, v⟩ := e
  obtain ⟨fs, hfs, hcheck⟩ := h
  obtain rfl : v = .obj fs := hfs
  exact ⟨fs, rfl, (checkProcess_iff.1 hcheck).2.1⟩

theorem IsProcess.kind (h : IsProcess e) : (Kind.of? (ofDerived e).name).isSome := by
  obtain ⟨fs, -, hcheck⟩ := h
  rcases (checkProcess_iff.1 hcheck).1 with h | h
  · exact Option.isSome_of_eq_some h
  · exact Option.isSome_of_eq_some h

theorem IsProcess.kinded (h : IsProcess e) : (ofDerived e).Kinded := by
  obtain ⟨n, v⟩ := e
  obtain ⟨fs, hfs, hcheck⟩ := h
  obtain rfl : v = .obj fs := hfs
  exact (checkProcess_iff.1 hcheck).2.2

theorem isProcess_of_qualified (h : IsQualified e)
    (hkind : Kind.of? e.1 = some .process ∨ Kind.of? e.1 = some .factor) : IsProcess e := by
  obtain ⟨n, v⟩ := e
  obtain ⟨fs, hfs, hdescribes, hkinded, -⟩ := h
  obtain rfl : v = .obj fs := hfs
  exact ⟨fs, rfl, checkProcess_iff.2 ⟨hkind, hdescribes, hkinded⟩⟩

theorem represents_processes (h : ∀ e ∈ pr, IsProcess e) (hnodup : (Assoc.keys pr).Nodup) :
    Represents pr (pr.map ofDerived) := by
  refine ⟨fun e he => ?_, fun d hd => ?_, hnodup⟩
  · obtain ⟨fs, heq, hdescribes⟩ := (h e he).describes
    exact ⟨ofDerived e, List.mem_map_of_mem he, fs, heq, hdescribes⟩
  · obtain ⟨e, he, rfl⟩ := List.mem_map.1 hd
    obtain ⟨fs, heq, hdescribes⟩ := (h e he).describes
    exact ⟨fs, heq ▸ he, hdescribes⟩

end Document

/-- The plan of processes that describe definitions consists of these. -/
theorem Plan.ofDocument_run {document pr : Fields} {ds : List Definition}
    (hpart : Document.part? document "execution" "processes" = some (.obj pr))
    (h : Document.Represents pr ds) :
    ∃ p, Plan.ofDocument (.obj document) = .ok p ∧ p.Consists ds := by
  have hentry : ∀ e ∈ pr, ∃ d ∈ ds, ∃ n, Node.ofEntry e.1 e.2 = .ok n ∧ d.Says n := by
    intro e he
    obtain ⟨d, hd, fs, rfl, hdescribes⟩ := h.entry e he
    exact ⟨d, hd, Definition.ofEntry_node hdescribes⟩
  obtain ⟨nodes, hnodes⟩ := Attempt.mapM_isOk.2 fun e he =>
    let ⟨_, _, n, hn, _⟩ := hentry e he
    ⟨n, hn⟩
  have hnames : nodes.map (·.name) = Assoc.keys pr := by
    refine Attempt.map_of_mapM hnodes fun e he n hn => ?_
    obtain ⟨d, -, fs, rfl, hdescribes⟩ := h.entry e he
    obtain ⟨n', hn', hnode⟩ := Definition.ofEntry_node hdescribes
    rw [hn'] at hn
    cases hn
    exact hnode.name
  refine ⟨⟨nodes⟩, ?_, fun n hn => ?_, fun d hd => ?_, hnames ▸ h.nodup⟩
  · have hexecution : ∃ fs, Assoc.find? document "execution" = some (.obj fs) ∧
        Assoc.find? fs "processes" = some (.obj pr) := by
      unfold Document.part? at hpart
      split at hpart
      · exact ⟨_, ‹_›, hpart⟩
      · cases hpart
    obtain ⟨fs, hfs, hprocesses⟩ := hexecution
    unfold Plan.ofDocument
    rw [Json.getD_obj, Attempt.ok_bind, hfs, Option.getD_some, Json.getD_obj, Attempt.ok_bind,
      hprocesses, Option.getD_some, Json.items_obj, Attempt.ok_bind]
    exact Attempt.bind_eq_ok.2 ⟨nodes, hnodes, rfl⟩
  · obtain ⟨e, he, hentryn⟩ := Attempt.mem_of_mapM hnodes hn
    obtain ⟨d, hd, n', hn', hnode⟩ := hentry e he
    rw [hn'] at hentryn
    cases hentryn
    exact ⟨d, hd, hnode⟩
  · obtain ⟨fs, hmem, hdescribes⟩ := h.definition d hd
    obtain ⟨n, hn, hentryn⟩ := Attempt.result_of_mapM hnodes hmem
    obtain ⟨n', hn', hnode⟩ := Definition.ofEntry_node hdescribes
    rw [hn'] at hentryn
    cases hentryn
    exact ⟨n, hn, hnode⟩

/-- The plan of a document is told by its processes. -/
theorem Plan.ofDocument_congr {document document' : Fields} (hopen : Document.IsOpen document "execution")
    (hopen' : Document.IsOpen document' "execution")
    (hpart : Document.part? document "execution" "processes" =
      Document.part? document' "execution" "processes") :
    ofDocument (.obj document) = ofDocument (.obj document') := by
  obtain ⟨fs, hfs⟩ := hopen
  obtain ⟨gs, hgs⟩ := hopen'
  rw [Document.part?_of_open hfs, Document.part?_of_open hgs] at hpart
  unfold ofDocument
  simp only [Json.getD_obj, Attempt.ok_bind, hfs, hgs, Option.getD_some, hpart]

/-! ## Artifacts -/

namespace Document

open Definition

variable {document document' : Fields} {outer inner : String} {es fa pr : Fields}
  {e : String × Json}

theorem mem_declaredIn_sorted {r : String} :
    r ∈ declaredIn (sorted document) ↔ r ∈ declaredIn document := by
  have hperm := (keys_sorted_perm (entriesIn document "schema" "relations")).map fun n =>
    if (Kind.of? n).isSome then n else Kind.data.lead ++ n
  rw [← entriesIn_sorted, Assoc.keys, Assoc.keys, List.map_map, List.map_map] at hperm
  exact hperm.mem_iff

/-- The order of entries and fields does not matter. -/
theorem Represents.sorted {ds : List Definition} (h : Represents es ds) :
    Represents (sorted es) ds := by
  have hsorted : ∀ (d : Definition) (fs : Fields),
      (d.name, (Json.obj fs).sortKeys) = (d.name, .obj (Document.sorted fs)) :=
    fun d fs => by rw [sortKeys_obj]
  refine ⟨fun x hx => ?_, fun d hd => ?_, (keys_sorted_perm es).nodup_iff.2 h.nodup⟩
  · obtain ⟨e, he, rfl⟩ := mem_sorted.1 hx
    obtain ⟨d, hd, fs, rfl, hdescribes⟩ := h.entry e he
    exact ⟨d, hd, Document.sorted fs, hsorted d fs, hdescribes.sortKeys⟩
  · obtain ⟨fs, hmem, hdescribes⟩ := h.definition d hd
    exact ⟨Document.sorted fs, mem_sorted.2 ⟨_, hmem, (hsorted d fs).symm⟩, hdescribes.sortKeys⟩

end Document

/-! ## Single stages -/

namespace Stage

/-- The document that a stage makes of one of its level, if that has the promised level. -/
def apply (s : Stage) (document : Json) : Attempt Json := do
  Document.check document s.requires
  let output ← s.transform document
  Document.check output s.produces
  return output

/-- The document that stages make, each from that of the stage before. -/
def applyAll (stages : List Stage) (document : Json) : Attempt Json :=
  stages.foldlM (fun document s => s.apply document) document

/-- A stage on a document of its level. -/
theorem apply_run {s : Stage} {document : Json} (hcheck : Document.check document s.requires = .ok ()) :
    s.apply document = s.transform document >>= fun output => (do
      Document.check output s.produces
      return output) := by
  rw [apply, hcheck, Attempt.ok_bind]

theorem apply_eq_ok {s : Stage} {document output : Json} :
    s.apply document = .ok output ↔ Document.check document s.requires = .ok () ∧
      s.transform document = .ok output ∧ Document.check output s.produces = .ok () := by
  unfold apply
  rw [Attempt.check_bind_eq_ok, Attempt.bind_eq_ok]
  refine and_congr_right fun _ => ⟨?_, ?_⟩
  · rintro ⟨v, hv, hrest⟩
    obtain ⟨hcheck, hv'⟩ := Attempt.check_bind_eq_ok.1 hrest
    cases hv'
    exact ⟨hv, hcheck⟩
  · rintro ⟨hv, hcheck⟩
    exact ⟨output, hv, Attempt.check_bind_eq_ok.2 ⟨hcheck, rfl⟩⟩

/-- The derived dependencies are put next to the processes. -/
theorem deriveDependencies_run {document : Fields} {p : Plan} {awaited : List (String × List Json)}
    (hopen : Document.IsOpen document "execution") (hplan : Plan.ofDocument (.obj document) = .ok p)
    (hawaited : p.allPrerequisites = .ok awaited) :
    ∃ document', deriveDependencies (.obj document) = .ok (.obj document') ∧
      Document.Puts "execution" "dependencies" (.obj (awaited.map fun e => (e.1, .arr e.2))) document
        document' := by
  obtain ⟨fs, hfs⟩ := hopen
  refine ⟨_, ?_, Document.puts_set_of_open hfs⟩
  unfold deriveDependencies
  rw [hplan, Attempt.ok_bind, hawaited, Attempt.ok_bind, Json.field_obj hfs, Attempt.ok_bind,
    Json.put_str, Attempt.ok_bind, Json.put_str]

end Stage

namespace Document

open Definition

/-- The document that the standard stages make of a raw one. -/
def compile (document : Json) : Attempt Json := do
  check document .raw
  Stage.applyAll [Stage.initObjects, Stage.qualifyNames, Stage.factorProcesses, Stage.dependencies]
    document

theorem compile_eq_ok {document v : Json} : compile document = .ok v ↔
    check document .raw = .ok () ∧ ∃ d₀, Stage.initObjects.transform document = .ok d₀ ∧
      check d₀ .raw = .ok () ∧ ∃ d₁, qualify d₀ = .ok d₁ ∧ check d₁ .qualified = .ok () ∧
      ∃ d₂, Stage.liftFactors d₁ = .ok d₂ ∧ check d₂ .qualified = .ok () ∧
      Stage.deriveDependencies d₂ = .ok v ∧ check v .qualified = .ok () := by
  unfold compile Stage.applyAll
  rw [Attempt.check_bind_eq_ok]
  refine and_congr_right fun hraw => ?_
  simp only [List.foldlM_cons, List.foldlM_nil, Attempt.bind_eq_ok, Stage.apply_eq_ok,
    Attempt.pure_eq_ok, Except.ok.injEq]
  constructor
  · rintro ⟨d₀, ⟨-, hinit, hraw₀⟩, d₁, ⟨-, hqualify, hcheck₁⟩, d₂, ⟨-, hlift, hcheck₂⟩, d₃,
      ⟨-, hderive, hcheck₃⟩, rfl⟩
    exact ⟨d₀, hinit, hraw₀, d₁, hqualify, hcheck₁, d₂, hlift, hcheck₂, hderive, hcheck₃⟩
  · rintro ⟨d₀, hinit, hraw₀, d₁, hqualify, hcheck₁, d₂, hlift, hcheck₂, hderive, hcheck₃⟩
    exact ⟨d₀, ⟨hraw, hinit, hraw₀⟩, d₁, ⟨hraw₀, hqualify, hcheck₁⟩, d₂, ⟨hcheck₁, hlift, hcheck₂⟩, v,
      ⟨hcheck₂, hderive, hcheck₃⟩, rfl⟩

variable {document document' : Fields} {outer inner : String} {es fa pr : Fields}
  {e : String × Json}

/-! ## Shapes -/

theorem Lists.null_or_obj {required : Bool} {P : String → Fields → Prop}
    (h : Lists document outer inner required P) : (part? document outer inner).getD .null = .null ∨
      ∃ es, part? document outer inner = some (.obj es) := by
  rcases h with ⟨-, hnull⟩ | ⟨es, hes, -⟩
  · exact .inl hnull
  · exact .inr ⟨es, hes⟩

theorem Lists.entries {required : Bool} {P : String → Fields → Prop}
    (h : Lists document outer inner required P) :
    ∀ e ∈ entriesIn document outer inner, ∃ fs, e.2 = .obj fs ∧ P e.1 fs := by
  unfold entriesIn
  rcases h with ⟨-, hnull⟩ | ⟨es, hes, hall⟩
  · simp [hnull, fieldsOf]
  · rw [hes]
    exact hall

/-- A part that has been created or kept lists what it listed. -/
theorem lists_of_entries {required : Bool} {P : String → Fields → Prop}
    (hpart : part? document outer inner = some (.obj es))
    (h : ∀ e ∈ es, ∃ fs, e.2 = .obj fs ∧ P e.1 fs) : Lists document outer inner required P :=
  .inr ⟨es, hpart, h⟩

/-- What the raw shape says of the entries. -/
theorem entries_of_raw (h : check (.obj document) .raw = .ok ()) :
    (∀ x ∈ Stage.sections, (part? document x.1 x.2).getD .null = .null ∨
      ∃ es, part? document x.1 x.2 = some (.obj es)) ∧
    RawEntries (entriesIn document "extraction" "extractors") ∧
    RawEntries (entriesIn document "inference" "factors") := by
  obtain ⟨hsections, hprocesses⟩ := check_iff.1 h
  have hextractors := hsections ("extraction", "extractors", .process) (by simp [definitionSections])
  have hfactors := hsections ("inference", "factors", .factor) (by simp [definitionSections])
  refine ⟨?_, fun e he => ?_, fun e he => ?_⟩
  · simp only [Stage.sections, List.forall_mem_cons, List.not_mem_nil, false_implies, implies_true,
      and_true]
    exact ⟨hextractors.null_or_obj, hfactors.null_or_obj, hprocesses.null_or_obj⟩
  · obtain ⟨fs, hfs, hcheck⟩ := hextractors.entries e he
    exact ⟨fs, _, hfs, hcheck⟩
  · obtain ⟨fs, hfs, hcheck⟩ := hfactors.entries e he
    exact ⟨fs, _, hfs, hcheck⟩

/-- Missing sections may be created. -/
theorem check_raw_of_holds (h : check (.obj document) .raw = .ok ())
    (hholds : Holds document' (entriesIn document "extraction" "extractors")
      (entriesIn document "inference" "factors") (entriesIn document "execution" "processes")) :
    check (.obj document') .raw = .ok () := by
  obtain ⟨hsections, hprocesses⟩ := check_iff.1 h
  simp only [definitionSections, List.forall_mem_cons, List.not_mem_nil, false_implies, implies_true,
    and_true] at hsections
  refine check_iff.2 ⟨?_, lists_of_entries hholds.processes hprocesses.entries⟩
  simp only [definitionSections, List.forall_mem_cons, List.not_mem_nil, false_implies, implies_true,
    and_true]
  exact ⟨lists_of_entries hholds.extractors hsections.1.entries,
    lists_of_entries hholds.factors hsections.2.entries⟩

theorem checkDefinition_of_qualified {kind : Kind} {path : String} (h : IsQualified e)
    (hkind : Kind.of? e.1 = some kind) :
    ∃ fs, e.2 = .obj fs ∧ checkDefinition .qualified kind path e.1 fs = .ok () := by
  obtain ⟨n, v⟩ := e
  obtain ⟨fs, hfs, hdescribes, hkinded, hlisted⟩ := h
  obtain rfl : v = .obj fs := hfs
  refine ⟨fs, rfl, ?_⟩
  unfold checkDefinition
  dsimp only at hkind ⊢
  rw [if_pos hkind]
  exact (checkQualifiedEntry_iff n).2 ⟨hdescribes, hkinded, fun _ => hlisted⟩

/-- The qualified shape, by the entries. -/
theorem check_qualified_of_holds (h : Holds document es fa pr)
    (hes : ∀ e ∈ es, IsQualified e ∧ Kind.of? e.1 = some .process)
    (hfa : ∀ e ∈ fa, IsQualified e ∧ Kind.of? e.1 = some .factor) (hpr : ∀ e ∈ pr, IsProcess e) :
    check (.obj document) .qualified = .ok () := by
  refine check_iff.2 ⟨?_, lists_of_entries h.processes fun e he => ?_⟩
  · simp only [definitionSections, List.forall_mem_cons, List.not_mem_nil, false_implies, implies_true,
      and_true]
    exact ⟨lists_of_entries h.extractors fun e he =>
        checkDefinition_of_qualified (hes e he).1 (hes e he).2,
      lists_of_entries h.factors fun e he => checkDefinition_of_qualified (hfa e he).1 (hfa e he).2⟩
  · obtain ⟨fs, hfs, hcheck⟩ := hpr e he
    exact ⟨fs, hfs, fun _ => hcheck⟩

theorem processes_of_qualified (h : Holds document es fa pr)
    (hcheck : check (.obj document) .qualified = .ok ()) : ∀ e ∈ pr, IsProcess e := by
  intro e he
  obtain ⟨-, hprocesses⟩ := check_iff.1 hcheck
  have hentries := hprocesses.entries
  unfold entriesIn at hentries
  rw [h.processes] at hentries
  obtain ⟨fs, hfs, hcheck⟩ := hentries e he
  exact ⟨fs, hfs, hcheck rfl⟩

/-! ## The whole -/

/-- The names that are recorded on the way, stage by stage: extractors and factors that share a name,
extractors named like a process, and factors named like a process or an extractor. -/
def collided (document : Fields) : List (List String) :=
  let extractors := qualifiedKeys .process (entriesIn document "extraction" "extractors")
  let factors := qualifiedKeys .factor (entriesIn document "inference" "factors")
  let processes := Assoc.keys (entriesIn document "execution" "processes")
  [Text.repeated extractors, Text.repeated factors, Text.common extractors processes,
    Text.common factors (processes ++ extractors)]

/-- The sections of the document can be read, and so can its definitions. A process that an extractor
replaces may have any shape. -/
structure Compilable (document : Fields) : Prop where
  sections : ∀ o ∈ ["extraction", "inference", "execution"], IsSection document o
  raw : check (.obj document) .raw = .ok ()
  processes : ∀ e ∈ entriesIn document "execution" "processes",
    e.1 ∉ qualifiedKeys .process (entriesIn document "extraction" "extractors") → IsProcess e

/-- The processes of a document with its extractors and factors. -/
def mergedProcesses (document extractors factors : Fields) : Fields :=
  (mergeFields (mergeFields (entriesIn document "execution" "processes") extractors).1 factors).1

/-- The second document is the first one with its definitions qualified and put into one plan, next to
which stands what every process waits for. -/
structure Makes (document document' es fa : Fields) : Prop where
  extractors : Gathers .process (entriesIn document "extraction" "extractors") es
  factors : Gathers .factor (entriesIn document "inference" "factors") fa
  holds : Holds document' es fa (mergedProcesses document es fa)
  dependencies : ∃ p awaited, Plan.ofDocument (.obj document') = .ok p ∧
    p.allPrerequisites = .ok awaited ∧ part? document' "execution" "dependencies" =
      some (.obj (awaited.map fun e => (e.1, .arr e.2)))
  changes : Changes writtenParts document document'

theorem Changes.within (h : Changes writtenParts document document') {document'' : Fields}
    (h' : Changes writtenParts document' document'') : Changes writtenParts document document'' :=
  (h.trans h').mono (by simp)

/-- Definitions that are added to processes are processes. -/
theorem isProcess_of_merge {kind : Kind} (hkind : kind = .process ∨ kind = .factor)
    (honce : (Assoc.keys pr).Nodup) (hes : Gathers kind fa es)
    (hpr : ∀ e ∈ pr, e.1 ∉ Assoc.keys es → IsProcess e) : ∀ e ∈ (mergeFields pr es).1, IsProcess e := by
  intro e he
  rcases Assoc.mem_foldl_set honce he with he | ⟨he, hnew⟩
  · obtain ⟨hqualified, hof⟩ := hes.qualified e he
    refine isProcess_of_qualified hqualified ?_
    rcases hkind with rfl | rfl
    · exact .inl hof
    · exact .inr hof
  · exact hpr e he hnew

theorem nodup_mergeFields (es : Fields) (honce : (Assoc.keys pr).Nodup) :
    (Assoc.keys (mergeFields pr es).1).Nodup := Assoc.nodup_foldl_set es honce

/-- A document that can be read is compiled, unless its collisions cannot be recorded. -/
theorem compile_both (h : Compilable document)
    (honce : (Assoc.keys (entriesIn document "execution" "processes")).Nodup) :
    Attempt.Both (fun v c => ∃ document' es fa, v = .obj document' ∧ collisionsOf document' = c ∧
        Makes document document' es fa ∧ check (.obj document') .qualified = .ok () ∧
        ∀ e ∈ mergedProcesses document es fa, IsProcess e)
      (compile (.obj document)) ((collided document).foldlM recorded (collisionsOf document)) := by
  obtain ⟨hshape, hes, hfa⟩ := entries_of_raw h.raw
  obtain ⟨d₀, hinit, hholds₀, hchanges₀⟩ := initObjects_run h.sections hshape
  have hraw₀ := check_raw_of_holds h.raw hholds₀
  have hcollisions : collisionsOf d₀ = collisionsOf document := hchanges₀.part _ _ (by decide)
  have hsplit : (collided document).foldlM recorded (collisionsOf document) =
      (doubled (entriesIn document "extraction" "extractors") (entriesIn document "inference" "factors")
        (entriesIn document "execution" "processes")).foldlM recorded (collisionsOf d₀) >>=
        fun c => recorded c (Text.common
          (qualifiedKeys .factor (entriesIn document "inference" "factors"))
          (Assoc.keys (entriesIn document "execution" "processes") ++
            qualifiedKeys .process (entriesIn document "extraction" "extractors"))) := by
    rw [hcollisions, collided, doubled]
    simp only [List.foldlM_cons, List.foldlM_nil, bind_assoc, bind_pure]
  rw [hsplit, compile, h.raw, Attempt.ok_bind, Stage.applyAll]
  simp only [List.foldlM_cons, List.foldlM_nil]
  rw [Stage.apply_run (s := Stage.initObjects) h.raw, hinit, Attempt.ok_bind,
    show check (.obj d₀) Stage.initObjects.produces = .ok () from hraw₀, Attempt.ok_bind,
    pure_bind, Stage.apply_run (s := Stage.qualifyNames) hraw₀, bind_assoc]
  refine (qualify_both hholds₀ hes hfa).bind ?_
  rintro - - ⟨d₁, rfl, hholds₁, rfl, hchanges₁⟩
  have hes' := gathers_gathered .process (entriesIn document "extraction" "extractors")
  have hfa' := gathers_gathered .factor (entriesIn document "inference" "factors")
  set es' := gathered .process (entriesIn document "extraction" "extractors")
  set fa' := gathered .factor (entriesIn document "inference" "factors")
  -- The shape of the processes is checked before the factors are added.
  by_cases hall : ∀ e ∈ (mergeFields (entriesIn document "execution" "processes") es').1, IsProcess e
  case neg =>
    refine absurd (isProcess_of_merge (.inl rfl) honce hes' fun e he hnew => ?_) hall
    exact h.processes e he (mt (hes'.keys e.1).2 hnew)
  have hcheck₁ := check_qualified_of_holds hholds₁ hes'.qualified hfa'.qualified hall
  have hcommon : Text.common (qualifiedKeys .factor (entriesIn document "inference" "factors"))
      (Assoc.keys (entriesIn document "execution" "processes") ++
        qualifiedKeys .process (entriesIn document "extraction" "extractors")) =
      Text.common (Assoc.keys fa')
        (Assoc.keys (mergeFields (entriesIn document "execution" "processes") es').1) := by
    refine Text.common_of_mem (fun k => (hfa'.keys k).symm) fun k => ?_
    rw [mergeFields, Assoc.mem_keys_foldl_set, List.mem_append, hes'.keys]
  rw [show check (.obj d₁) Stage.qualifyNames.produces = .ok () from hcheck₁, Attempt.ok_bind, pure_bind,
    Stage.apply_run (s := Stage.factorProcesses) hcheck₁, bind_assoc, hcommon, ← bind_pure (recorded _ _)]
  refine (liftFactors_both hholds₁ hfa'.once).bind ?_
  rintro - - ⟨d₂, rfl, hholds₂, rfl, hchanges₂⟩
  have hprocesses : ∀ e ∈ mergedProcesses document es' fa', IsProcess e :=
    isProcess_of_merge (.inr rfl) (nodup_mergeFields es' honce) hfa' fun e he _ => hall e he
  have hcheck₂ := check_qualified_of_holds hholds₂ hes'.qualified hfa'.qualified hprocesses
  obtain ⟨p, hplan, hconsists⟩ := Plan.ofDocument_run hholds₂.processes
    (represents_processes hprocesses (nodup_mergeFields fa' (nodup_mergeFields es' honce)))
  obtain ⟨waits, hwaits, -⟩ := Plan.allPrerequisites_run hconsists
  obtain ⟨d₃, hderive, hputs⟩ := Stage.deriveDependencies_run hholds₂.execution hplan hwaits
  have hholds₃ : Holds d₃ es' fa' (mergedProcesses document es' fa') :=
    hholds₂.of_changes hputs.changes (by decide)
  have hcheck₃ := check_qualified_of_holds hholds₃ hes'.qualified hfa'.qualified hprocesses
  have hplan₃ : Plan.ofDocument (.obj d₃) = .ok p := by
    rw [← hplan]
    exact Plan.ofDocument_congr hholds₃.execution hholds₂.execution
      (by rw [hholds₃.processes]; exact hholds₂.processes.symm)
  rw [show check (.obj d₂) Stage.factorProcesses.produces = .ok () from hcheck₂, Attempt.ok_bind,
    pure_bind, Stage.apply_run (s := Stage.dependencies) hcheck₂, bind_assoc,
    show Stage.dependencies.transform (.obj d₂) = .ok (.obj d₃) from hderive, Attempt.ok_bind,
    show check (.obj d₃) Stage.dependencies.produces = .ok () from hcheck₃, Attempt.ok_bind, pure_bind]
  have hchanges : Changes writtenParts document d₃ :=
    (((hchanges₀.mono (by decide)).within (hchanges₁.mono (by decide))).within hchanges₂).within
      (hputs.changes.mono (by decide))
  exact .ok ⟨d₃, es', fa', rfl, hputs.changes.part _ _ (by decide),
    ⟨hes', hfa', hholds₃, ⟨p, waits.values, hplan₃, hwaits, hputs.own_part⟩, hchanges⟩, hcheck₃, hprocesses⟩

/-- Only a document that can be read is compiled. -/
theorem compilable_of_compile {v : Json} (hcompile : compile (.obj document) = .ok v) :
    Compilable document := by
  obtain ⟨hraw, w₀, hinit, -, w₁, hqualify, hcheck₁, -⟩ := compile_eq_ok.1 hcompile
  have hsections := sections_of_initObjects hinit
  obtain ⟨hshape, hes, hfa⟩ := entries_of_raw hraw
  obtain ⟨d₀, hinit', hholds₀, -⟩ := initObjects_run hsections hshape
  obtain rfl : w₀ = .obj d₀ := Except.ok.inj (hinit.symm.trans hinit')
  obtain ⟨-, -, d₁, rfl, hholds₁, -, -⟩ := (qualify_both hholds₀ hes hfa).left hqualify
  refine ⟨hsections, hraw, fun e he hnew => processes_of_qualified hholds₁ hcheck₁ e ?_⟩
  exact Assoc.mem_foldl_set_of_new he (mt ((gathers_gathered .process _).keys e.1).1 hnew)

/-! ## Without collisions -/

theorem names_definitions (document : Fields) : (definitions document).map (·.name) =
    Assoc.keys (entriesIn document "execution" "processes") ++
      qualifiedKeys .process (entriesIn document "extraction" "extractors") ++
      qualifiedKeys .factor (entriesIn document "inference" "factors") := by
  unfold definitions
  rw [List.map_append, List.map_append, List.map_map, List.map_map, List.map_map]
  rfl

/-- Nothing is recorded on the way if every definition has a name of its own. -/
theorem collided_eq_nil (honce : (Assoc.keys (entriesIn document "execution" "processes")).Nodup) :
    (∀ names ∈ collided document, names = []) ↔ ((definitions document).map (·.name)).Nodup := by
  rw [names_definitions, List.nodup_append, List.nodup_append]
  simp only [collided, List.forall_mem_cons, List.not_mem_nil, false_implies, implies_true, and_true,
    Text.repeated_eq_nil, Text.common_eq_nil]
  constructor
  · rintro ⟨hextractors, hfactors, hnew, hnew'⟩
    refine ⟨⟨honce, hextractors, ?_⟩, hfactors, ?_⟩
    · rintro a ha b hb rfl
      exact hnew a hb ha
    · rintro a ha b hb rfl
      exact hnew' a hb ha
  · rintro ⟨⟨-, hextractors, hnew⟩, hfactors, hnew'⟩
    exact ⟨hextractors, hfactors, fun n hn hn' => hnew n hn' n hn rfl, fun n hn hn' => hnew' n hn' n hn rfl⟩

/-- Without collisions nothing is lost. -/
theorem Makes.lossless (h : Makes document document' es fa)
    (hnames : ((definitions document).map (·.name)).Nodup) :
    es = (entriesIn document "extraction" "extractors").map (qualified .process) ∧
      fa = (entriesIn document "inference" "factors").map (qualified .factor) ∧
      mergedProcesses document es fa = entriesIn document "execution" "processes" ++ es ++ fa := by
  rw [names_definitions] at hnames
  obtain ⟨hnames₁, hfactors, -⟩ := List.nodup_append.1 hnames
  obtain ⟨-, hextractors, -⟩ := List.nodup_append.1 hnames₁
  have hes := h.extractors.lossless hextractors
  have hfa := h.factors.lossless hfactors
  refine ⟨hes, hfa, ?_⟩
  have hmerge : (mergeFields (entriesIn document "execution" "processes") es).1 =
      entriesIn document "execution" "processes" ++ es := by
    refine Assoc.foldl_set ?_
    rwa [hes, keys_qualified]
  rw [mergedProcesses, hmerge]
  refine Assoc.foldl_set ?_
  rw [Assoc.keys, List.map_append, ← Assoc.keys, ← Assoc.keys, hes, hfa, keys_qualified,
    keys_qualified]
  exact hnames

/-- The document holds one plan of these definitions, without collisions, and declares what the
original one does. -/
structure Compiled (document : Fields) (ds : List Definition) (document' : Fields) : Prop where
  execution : IsOpen document' "execution"
  processes : ∃ pr, part? document' "execution" "processes" = some (.obj pr) ∧ Represents pr ds
  collisions : Records document' []
  schema : IsSection document' "schema"
  relations : (part? document' "schema" "relations").getD .null = .null ∨
    ∃ es, part? document' "schema" "relations" = some (.obj es)
  declared : ∀ r, r ∈ declaredIn document' ↔ r ∈ declaredIn document

theorem Compiled.sorted {ds : List Definition} (h : Compiled document ds document') :
    Compiled document ds (sorted document') := by
  obtain ⟨pr, hpr, hrepresents⟩ := h.processes
  refine ⟨h.execution.sorted, ⟨_, ?_, hrepresents.sorted⟩, h.collisions.sorted, h.schema.sorted, ?_,
    fun r => mem_declaredIn_sorted.trans (h.declared r)⟩
  · rw [part?_sorted, hpr, Option.map_some, sortKeys_obj]
  · rw [part?_sorted]
    cases hpart : part? document' "schema" "relations" with
    | none => exact .inl rfl
    | some v =>
      rcases h.relations with hnull | ⟨es, hes⟩
      · rw [hpart] at hnull
        obtain rfl : v = .null := hnull
        exact .inl (by simp [Json.sortKeys])
      · rw [hpart] at hes
        cases hes
        exact .inr ⟨_, by rw [Option.map_some, sortKeys_obj]⟩

/-- A shaped document is compiled. -/
theorem compile_of_shaped (h : Proper document) (hshaped : Shaped document) :
    ∃ document', compile (.obj document) = .ok (.obj document') ∧
      Compiled document (definitions document) document' := by
  have hcompilable : Compilable document :=
    ⟨fun o ho => h.sections o (by revert o; decide), hshaped.raw, fun e he _ => hshaped.processes e he⟩
  obtain ⟨c, ks, hrecorded, hc, hks⟩ := foldlM_recorded_texts hshaped.collisions (collided document)
  obtain rfl : ks = [] := hks.2 ⟨rfl, (collided_eq_nil h.once).2 hshaped.names⟩
  obtain ⟨-, hcompile, d, es', fa', rfl, rfl, hmakes, -, hprocesses⟩ :=
    (compile_both hcompilable h.once).right hrecorded
  obtain ⟨hes, hfa, hmerged⟩ := hmakes.lossless hshaped.names
  have hrepresents := represents_processes hprocesses
    (nodup_mergeFields fa' (nodup_mergeFields es' h.once))
  have hdefinitions : (mergedProcesses document es' fa').map ofDerived = definitions document := by
    rw [hmerged, List.map_append, List.map_append, hes, hfa, List.map_map, List.map_map]
    simp only [Function.comp_def, ofDerived_qualified]
    rfl
  rw [hdefinitions] at hrepresents
  refine ⟨d, hcompile, hmakes.holds.execution, ⟨_, hmakes.holds.processes, hrepresents⟩, hc,
    hmakes.changes.sections _ (h.sections "schema" (by decide)), ?_, fun r => ?_⟩
  · rw [hmakes.changes.part _ _ (by decide)]
    exact h.relations
  · unfold declaredIn entriesIn
    rw [hmakes.changes.part _ _ (by decide)]

/-- Only a shaped document is compiled without a collision. -/
theorem shaped_of_compile (h : Proper document) {v : Json} (hcompile : compile (.obj document) = .ok v)
    (hnone : Check.collisionMessages v.sortKeys = .ok []) : Shaped document := by
  have hcompilable := compilable_of_compile hcompile
  obtain ⟨ns, hrecords⟩ := h.collisions
  obtain ⟨c, ks, hrecorded, hc, hks⟩ := foldlM_recorded_texts hrecords (collided document)
  obtain ⟨-, hcompile', d, es', fa', rfl, rfl, hmakes, -, hprocesses⟩ :=
    (compile_both hcompilable h.once).right hrecorded
  obtain rfl : v = .obj d := Except.ok.inj (hcompile.symm.trans hcompile')
  have hsorted : Records (sorted d) ks := Records.sorted hc
  rw [sortKeys_obj, Check.collisionMessages_iff hmakes.holds.execution.sorted hsorted] at hnone
  obtain ⟨rfl, hcollided⟩ := hks.1 hnone
  have hnames := (collided_eq_nil h.once).1 hcollided
  obtain ⟨-, -, hmerged⟩ := hmakes.lossless hnames
  refine ⟨hcompilable.raw, fun e he => hprocesses e ?_, hrecords, hnames⟩
  rw [hmerged]
  simp [he]

end Document

end FlowPlan

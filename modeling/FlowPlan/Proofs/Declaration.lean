import FlowPlan.Proofs.Document.Grammar
import FlowPlan.Proofs.Gate
import FlowPlan.Proofs.Inventory
import FlowPlan.Proofs.Reordering
import Mathlib

/-!
# Declared relations

A relation that is declared need not be written by a process. The name under which it is declared gets the
kind of relations only if it has no kind so far, and the name under which it is read gets that kind unless
it has it. So the two are the same name, except where a relation is declared under the name of another kind:
those who read it are reported, as if it had not been declared.

## Main statements

* `Kind.declared_eq_qualify` — declared and read under the same name.
* `Document.qualify_mem_declaredIn` — which of the relations that are declared are known.
* `Pipeline.reported_iff` — which of them are reported when a plan has been compiled.
-/

namespace FlowPlan

open Document

namespace Kind

variable {n : String}

/-- A relation is declared and read under the same name, unless that is a name of another kind. -/
theorem declared_eq_qualify (hprocess : of? n ≠ some .process) (hfactor : of? n ≠ some .factor) :
    (if (of? n).isSome then n else data.lead ++ n) = data.qualify n := by
  rw [qualify_eq]
  cases hkind : of? n with
  | none => rfl
  | some k => cases k <;> simp_all

end Kind

variable {document rs : Fields} {n : String}

/-- A declared relation is known under the name that its readers use, unless it is declared under a name of
another kind only. -/
theorem Document.qualify_mem_declaredIn (h : part? document "schema" "relations" = some (.obj rs))
    (hn : n ∈ Assoc.keys rs) : Kind.data.qualify n ∈ declaredIn document ↔
      (Kind.of? n ≠ some .process ∧ Kind.of? n ≠ some .factor) ∨ Kind.data.qualify n ∈ Assoc.keys rs := by
  have hmem : ∀ r, r ∈ declaredIn document ↔
      ∃ m ∈ Assoc.keys rs, (if (Kind.of? m).isSome then m else Kind.data.lead ++ m) = r := by
    intro r
    rw [declaredIn, entriesIn, h]
    simp [fieldsOf, Assoc.keys]
  rw [hmem]
  constructor
  · rintro ⟨m, hm, hname⟩
    split at hname
    · exact .inr (hname ▸ hm)
    · rename_i hkind
      refine .inl ?_
      have hnone : Kind.of? m = none := by simpa using hkind
      by_cases hdata : Kind.of? n = some .data
      · simp [hdata]
      · rw [Kind.qualify_eq, if_neg hdata] at hname
        have hlists := congrArg String.toList hname
        rw [String.toList_append, String.toList_append] at hlists
        obtain rfl : m = n := String.toList_inj.1 (List.append_cancel_left hlists)
        simp [hnone]
  · rintro (⟨hprocess, hfactor⟩ | hkey)
    · exact ⟨n, hn, Kind.declared_eq_qualify hprocess hfactor⟩
    · exact ⟨_, hkey, by rw [Kind.of?_qualify]; rfl⟩

namespace Pipeline

open Workspace

variable {w : Workspace} {A : Address} {s t : Site} {finished : List Finished}

/-- When a document has been compiled, a relation that it declares is reported only if it is declared under
the name of another kind and not under its own. Then it is reported with every process that reads it, as
long as no process writes it. -/
theorem reported_iff (h : Workable w A s) (hdistinct : (Json.obj document).Distinct)
    (hrelations : part? document "schema" "relations" = some (.obj rs))
    (hrun : (run w (Stage.standard.map (·.1)) (.obj document)).run s = (.ok finished, t)) :
    ∃ c p, ∃ reports : List (String × String),
      t.disk.readJson (compiledPath w) = .ok c ∧ Plan.ofDocument c = .ok p ∧
      Check.inputsProduced.messages c = .ok (reports.map Check.unproducedText) ∧
      ∀ n ∈ Assoc.keys rs, ∀ name, (name, Kind.data.qualify n) ∈ reports ↔
        (Kind.of? n = some .process ∨ Kind.of? n = some .factor) ∧ Kind.data.qualify n ∉ Assoc.keys rs ∧
        (∃ node ∈ p.nodes, node.name = name ∧ .str (Kind.data.qualify n) ∈ node.inputs) ∧
        ¬ ∃ node ∈ p.nodes, node.output = some (.str (Kind.data.qualify n)) := by
  obtain ⟨v, hcompile, hedits, hholds⟩ := (run_standard h _).left hrun
  have honce := (Json.distinct_obj.1 (once_entries hdistinct "execution" "processes")).1
  obtain ⟨-, -, d, es, fa, rfl, -, hmakes, -, hprocesses⟩ :=
    (compile_both (compilable_of_compile hcompile) honce).left hcompile
  have hread := hholds.readJson (hedits.workable h)
  rw [sortKeys_obj] at hread
  have hrepresents := (represents_processes hprocesses
    (nodup_mergeFields fa (nodup_mergeFields es honce))).sorted
  have hprocesses' : part? (sorted d) "execution" "processes" =
      some (.obj (sorted (mergedProcesses document es fa))) := by
    rw [part?_sorted, hmakes.holds.processes, Option.map_some, sortKeys_obj]
  obtain ⟨p, hplan, hconsists⟩ := Plan.ofDocument_run hprocesses' hrepresents
  have hschema : part? d "schema" "relations" = some (.obj rs) := by
    rw [hmakes.changes.part _ _ (by decide), hrelations]
  have hschema' : part? (sorted d) "schema" "relations" = some (.obj (sorted rs)) := by
    rw [part?_sorted, hschema, Option.map_some, sortKeys_obj]
  obtain ⟨reports, hmessages, hreports⟩ := Check.unproducedMessages_run hplan hconsists
    (isOpen_of_part hschema').isSection (.inr ⟨_, hschema'⟩)
  refine ⟨_, p, reports, hread, hplan, hmessages, fun n hn name => ?_⟩
  rw [hreports, hconsists.reads, hconsists.writes, mem_declaredIn_sorted, qualify_mem_declaredIn hschema hn,
    not_or, not_and_or, not_not, not_not]
  exact ⟨fun ⟨hreads, hwrites, hkind, hkey⟩ => ⟨hkind, hkey, hreads, hwrites⟩,
    fun ⟨hkind, hkey, hreads, hwrites⟩ => ⟨hreads, hwrites, hkind, hkey⟩⟩

/-- A document that declares a relation under the name of a process, and has an extractor that reads it. -/
def misnamed : Fields :=
  [("extraction", .obj [("extractors", .obj [("a", .obj [("input_relations", .arr [.str "process/x"])])])]),
    ("schema", .obj [("relations", .obj [("process/x", .obj [])])])]

/-- The processes of that document. -/
def misnamedProcesses : Fields :=
  [("process/a", .obj [("input_relations", .arr [.str "process/x"]), ("dependencies_", .arr []),
    ("input_", .arr [.str "data/process/x"])])]

/-- The document when it has been compiled. -/
def misnamedCompiled : Fields :=
  [("extraction", .obj [("extractors", .obj misnamedProcesses)]),
    ("schema", .obj [("relations", .obj [("process/x", .obj [])])]),
    ("inference", .obj [("factors", .obj [])]),
    ("execution", .obj [("processes", .obj misnamedProcesses),
      ("dependencies", .obj [("process/a", .arr [])])])]

theorem reported_iff_misnamed :
    Workable specimen ["/"] specimenSite ∧ (Json.obj misnamed).Distinct ∧
      part? misnamed "schema" "relations" = some (.obj [("process/x", .obj [])]) ∧
      ∃ finished t c, ∃ reports : List (String × String),
        (run specimen (Stage.standard.map (·.1)) (.obj misnamed)).run specimenSite = (.ok finished, t) ∧
        t.disk.readJson (compiledPath specimen) = .ok c ∧
        Check.inputsProduced.messages c = .ok (reports.map Check.unproducedText) ∧
        ("process/a", "data/process/x") ∈ reports := by
  have hdistinct : (Json.obj misnamed).Distinct := by
    simp [misnamed, Json.Distinct, Json.DistinctFields, Json.DistinctList, Assoc.keys]
  have hworkable := new_specimen.toWorkable
  have hcompile : compile (.obj misnamed) = .ok (.obj misnamedCompiled) := by decide +kernel
  -- What the extractor reads is in the plan, however the compiled document is written.
  have hprocesses : ∀ e ∈ misnamedProcesses, IsProcess e := by
    intro e he
    obtain rfl := List.mem_singleton.1 he
    exact ⟨_, rfl, rfl⟩
  have hpart : part? (sorted misnamedCompiled) "execution" "processes" =
      some (.obj (sorted misnamedProcesses)) := by
    rw [part?_sorted, ← sortKeys_obj]
    rfl
  obtain ⟨p', hplan, hconsists⟩ :=
    Plan.ofDocument_run hpart (represents_processes hprocesses (by decide)).sorted
  obtain ⟨finished, t, hrun, hedits, hholds⟩ := (run_standard hworkable _).right hcompile
  obtain ⟨c, p, reports, hread, hplan', hmessages, hreports⟩ := reported_iff hworkable hdistinct rfl hrun
  obtain rfl : .obj (sorted misnamedCompiled) = c := by
    rw [← sortKeys_obj]
    exact Except.ok.inj ((hholds.readJson (hedits.workable hworkable)).symm.trans hread)
  obtain rfl : p' = p := Except.ok.inj (hplan.symm.trans hplan')
  refine ⟨hworkable, hdistinct, rfl, finished, t, _, reports, hrun, hread, hmessages,
    (hreports "process/x" (by decide) "process/a").2 ⟨by decide, by decide, ?_, ?_⟩⟩
  · exact hconsists.reads.1 (by decide)
  · rw [← hconsists.writes]
    decide

end Pipeline

end FlowPlan

import FlowPlan.Proofs.Document.Qualification
import FlowPlan.Proofs.Plan.Execution
import FlowPlan.Unit.Checks
import Mathlib

/-!
# What the checks say of a plan of definitions

The standard checks of a plan have nothing to say exactly if every dependency is defined, every
relation that is read is written or declared, and nothing waits for itself. The check of the fragments
has nothing to say if none of them is empty.

## Main definitions

* `Document.declaredIn` — the relations that a document declares.

## Main statements

* `Check.collisionMessages_iff`, `Check.unresolvedMessages_iff`, `Check.unproducedMessages_iff`,
  `Check.cycleMessages_iff` — when each check passes.
* `Check.unproducedMessages_run` — which relations are reported.
* `Check.emptyFragmentMessages_run` — fragments that are not empty pass.
-/

namespace FlowPlan

open Document

/-- The relations that a document declares, under their qualified names. -/
def Document.declaredIn (document : Fields) : List String :=
  (entriesIn document "schema" "relations").map fun e =>
    if (Kind.of? e.1).isSome then e.1 else Kind.data.lead ++ e.1

namespace Check

variable {p : Plan} {ds : List Definition} {subject : Json} {document : Fields}

theorem collisionMessages_iff {ns : List String} (hopen : IsOpen document "execution")
    (h : Records document ns) : collisionMessages (.obj document) = .ok [] ↔ ns = [] := by
  obtain ⟨execution, hexecution⟩ := hopen
  have hgiven : (Assoc.find? execution collisionsField).getD (.arr []) = .arr (ns.map .str) := by
    rw [← part?_of_open hexecution]
    exact h
  unfold collisionMessages
  rw [Json.getD_obj, Attempt.ok_bind, hexecution, Option.getD_some, Json.getD_obj, Attempt.ok_bind,
    hgiven, Json.elements_arr, Attempt.ok_bind, Attempt.pure_eq_ok, Except.ok.injEq]
  simp

theorem unresolvedMessages_iff (hplan : Plan.ofDocument subject = .ok p) (h : p.Consists ds) :
    unresolvedMessages subject = .ok [] ↔
      ∀ d ∈ ds, ∀ b ∈ d.dependencies, ∃ d' ∈ ds, d'.name = b := by
  have hresolved : ∀ n ∈ p.sorted, ∀ d : Definition, d.Says n →
      n.dependencies.filterM (fun v => do return !(← p.resolves v)) =
        .ok (n.dependencies.filter fun v => !p.contains (v.str?.getD "")) := by
    intro n hn d hnode
    refine Attempt.filterM_eq_ok fun v hv => ?_
    rw [hnode.dependencies] at hv
    obtain ⟨b, -, rfl⟩ := List.mem_map.1 hv
    rfl
  unfold unresolvedMessages
  rw [hplan, Attempt.ok_bind, Attempt.mapM_flatten_eq_nil]
  constructor
  · intro hnone d hd b hb
    obtain ⟨n, hn, hnode⟩ := h.node d hd
    have hmessages := hnone n (Plan.mem_sorted.2 hn)
    rw [hresolved n (Plan.mem_sorted.2 hn) d hnode, Attempt.ok_bind, Attempt.pure_eq_ok,
      Except.ok.injEq, List.map_eq_nil_iff, List.filter_eq_nil_iff, hnode.dependencies] at hmessages
    have := hmessages (.str b) (Json.mem_map_str.2 hb)
    exact h.contains.1 (by simpa [Json.str?] using this)
  · intro hall n hn
    obtain ⟨d, hd, hnode⟩ := h.definition n (Plan.mem_sorted.1 hn)
    rw [hresolved n hn d hnode, Attempt.ok_bind, Attempt.pure_eq_ok, Except.ok.injEq,
      List.map_eq_nil_iff, List.filter_eq_nil_iff, hnode.dependencies]
    intro v hv
    obtain ⟨b, hb, rfl⟩ := List.mem_map.1 hv
    simpa [Json.str?] using h.contains.2 (hall d hd b hb)

/-- The value under two names, where missing and null sections count as empty. -/
theorem orEmpty_part (hsection : IsSection document "schema")
    (hshape : (part? document "schema" "relations").getD .null = .null ∨
      ∃ es, part? document "schema" "relations" = some (.obj es)) :
    (do
      let schema := orEmpty (← (Json.obj document).getD "schema" .null)
      return orEmpty (← schema.getD "relations" .null) : Attempt Json) =
      .ok (.obj (entriesIn document "schema" "relations")) := by
  obtain ⟨fs, hpart, hfields⟩ := hsection.fields
  have hschema : orEmpty ((Assoc.find? document "schema").getD .null) = .obj fs := by
    rcases hfields with ⟨hnull, rfl⟩ | hobj
    · rw [hnull]
      rfl
    · rw [hobj]
      cases fs <;> rfl
  have hrelations : orEmpty ((Assoc.find? fs "relations").getD .null) =
      .obj (entriesIn document "schema" "relations") := by
    unfold entriesIn
    rw [← hpart]
    rcases hshape with hnull | ⟨es, hobj⟩
    · rw [hnull]
      rfl
    · rw [hobj]
      cases es <;> rfl
  rw [Json.getD_obj, Attempt.ok_bind]
  dsimp only
  rw [hschema, Json.getD_obj, Attempt.ok_bind, hrelations]
  rfl

theorem declaredName_run (n : String) :
    (do match ← Kind.ofValue? (.str n) with
        | some _ => return .str n
        | none => return .str (Kind.data.lead ++ (Json.str n).display) : Attempt Json) =
      .ok (.str (if (Kind.of? n).isSome then n else Kind.data.lead ++ n)) := by
  cases hkind : Kind.of? n <;> simp [Kind.ofValue?, hkind, Json.display]

/-- The keys of a mapping are names, and all names can be declared. -/
theorem declaredNames_obj (fs : Fields) :
    declaredNames (.obj fs) = .ok ((Assoc.keys fs).map fun n =>
      .str (if (Kind.of? n).isSome then n else Kind.data.lead ++ n)) := by
  have hkeys : (Json.obj fs).elements = .ok ((Assoc.keys fs).map .str) := by
    rw [Assoc.keys, List.map_map]
    rfl
  unfold declaredNames
  rw [hkeys, Attempt.ok_bind, List.mapM_map]
  exact Attempt.mapM_eq_ok fun n _ => declaredName_run n

theorem declaredNames_run (document : Fields) :
    declaredNames (.obj (entriesIn document "schema" "relations")) =
      .ok ((declaredIn document).map .str) := by
  rw [declaredNames_obj, declaredIn, Assoc.keys, List.map_map, List.map_map]
  rfl

theorem listed_keys {t : Table (List String)} {r : String} :
    Json.listed (t.map (·.1)) (.str r) = (t.find? (.str r)).isSome := by
  rw [Bool.eq_iff_iff]
  simp [Json.listed, Table.find?]

/-- What is said of a process and a relation that it reads. -/
def unproducedText (x : String × String) : Json := .str s!"{x.1} reads {x.2}, which nothing produces"

/-- The relations that are reported: each with a process that reads it, while none writes it and it is not
declared. -/
theorem unproducedMessages_run (hplan : Plan.ofDocument (.obj document) = .ok p) (h : p.Consists ds)
    (hsection : IsSection document "schema")
    (hshape : (part? document "schema" "relations").getD .null = .null ∨
      ∃ es, part? document "schema" "relations" = some (.obj es)) :
    ∃ reports : List (String × String),
      unproducedMessages (.obj document) = .ok (reports.map unproducedText) ∧
      ∀ name r, (name, r) ∈ reports ↔ (∃ d ∈ ds, d.name = name ∧ r ∈ d.inputs) ∧
        (¬ ∃ d ∈ ds, d.output = some r) ∧ r ∉ declaredIn document := by
  obtain ⟨t, hproducers, ht, -, hsome⟩ := Plan.producers_run h
  obtain ⟨known, hall⟩ : ∃ known, known = t.map (·.1) ++ (declaredIn document).map Json.str := ⟨_, rfl⟩
  have hknown : ∀ r, Json.listed known (.str r) = true ↔
      (∃ d ∈ ds, d.output = some r) ∨ r ∈ declaredIn document := by
    intro r
    rw [hall, ← hsome, ← Json.listed_texts, ← listed_keys]
    simp [Json.listed]
  have hmissing : ∀ n ∈ p.sorted, (do
      let missing ← n.inputs.filterM fun v => do
        if v.isHashable then return !Json.listed known v
        else Json.misuse (.unhashable v.kindName)
      return missing.map fun v => .str s!"{n.name} reads {v.display}, which nothing produces") =
      (.ok (((n.inputs.filter fun v => !Json.listed known v).map fun v => (n.name, v.display)).map
        unproducedText) : Attempt (List Json)) := by
    intro n hn
    obtain ⟨d, hd, hnode⟩ := h.definition n (Plan.mem_sorted.1 hn)
    rw [Attempt.filterM_eq_ok (p := fun v => !Json.listed known v), Attempt.ok_bind, List.map_map]
    · rfl
    · intro v hv
      rw [hnode.inputs] at hv
      obtain ⟨r, -, rfl⟩ := List.mem_map.1 hv
      rfl
  have hrun : unproducedMessages (.obj document) = (p.sorted.mapM fun n => do
      let missing ← n.inputs.filterM fun v => do
        if v.isHashable then return !Json.listed known v
        else Json.misuse (.unhashable v.kindName)
      return missing.map fun v => .str s!"{n.name} reads {v.display}, which nothing produces") >>=
        fun ms => pure ms.flatten := by
    obtain ⟨relations, hrelations, hdeclared⟩ := Attempt.bind_eq_ok.1 (orEmpty_part hsection hshape)
    obtain ⟨v, hv, hdeclared⟩ := Attempt.bind_eq_ok.1 hdeclared
    unfold unproducedMessages
    rw [hplan, Attempt.ok_bind, hrelations, Attempt.ok_bind]
    dsimp only
    rw [hv, Attempt.ok_bind, hproducers, Attempt.ok_bind, Except.ok.inj hdeclared, declaredNames_run,
      Attempt.ok_bind, hall]
  refine ⟨p.sorted.flatMap fun n =>
    (n.inputs.filter fun v => !Json.listed known v).map fun v => (n.name, v.display), ?_, fun name r => ?_⟩
  · rw [hrun, Attempt.mapM_eq_ok hmissing, Attempt.ok_bind, List.map_flatMap]
    rfl
  · rw [List.mem_flatMap, ← not_or, ← hknown]
    constructor
    · rintro ⟨n, hn, hmem⟩
      obtain ⟨v, hv, heq⟩ := List.mem_map.1 hmem
      obtain ⟨hv, hnot⟩ := List.mem_filter.1 hv
      obtain ⟨d, hd, hnode⟩ := h.definition n (Plan.mem_sorted.1 hn)
      rw [hnode.inputs] at hv
      obtain ⟨r', hr', rfl⟩ := List.mem_map.1 hv
      obtain ⟨rfl, rfl⟩ : n.name = name ∧ r' = r := Prod.mk.inj heq
      exact ⟨⟨d, hd, hnode.name.symm, hr'⟩, by simpa using hnot⟩
    · rintro ⟨⟨d, hd, rfl, hr⟩, hnot⟩
      obtain ⟨n, hn, hnode⟩ := h.node d hd
      refine ⟨n, Plan.mem_sorted.2 hn, List.mem_map.2 ⟨.str r, List.mem_filter.2 ⟨?_, ?_⟩, ?_⟩⟩
      · rw [hnode.inputs]
        exact List.mem_map_of_mem hr
      · simpa using hnot
      · rw [hnode.name]
        rfl

theorem unproducedMessages_iff (hplan : Plan.ofDocument (.obj document) = .ok p) (h : p.Consists ds)
    (hsection : IsSection document "schema")
    (hshape : (part? document "schema" "relations").getD .null = .null ∨
      ∃ es, part? document "schema" "relations" = some (.obj es)) :
    unproducedMessages (.obj document) = .ok [] ↔
      ∀ d ∈ ds, ∀ r ∈ d.inputs, (∃ d' ∈ ds, d'.output = some r) ∨ r ∈ declaredIn document := by
  obtain ⟨reports, hrun, hmem⟩ := unproducedMessages_run hplan h hsection hshape
  rw [hrun, Except.ok.injEq, List.map_eq_nil_iff, List.eq_nil_iff_forall_not_mem, Prod.forall]
  constructor
  · intro hnone d hd r hr
    by_contra hnot
    exact hnone d.name r ((hmem _ _).2 ⟨⟨d, hd, rfl, hr⟩, not_or.1 hnot⟩)
  · rintro hall name r hreport
    obtain ⟨⟨d, hd, -, hr⟩, hnot⟩ := (hmem name r).1 hreport
    exact (not_or.2 hnot) (hall d hd r hr)

theorem cycleMessages_iff (hplan : Plan.ofDocument subject = .ok p) (h : p.Consists ds) :
    cycleMessages subject = .ok [] ↔ ¬ ∃ n, Relation.TransGen (Definition.Upstream ds) n n := by
  rw [← Plan.topologicalOrder_iff h true (.inl rfl)]
  unfold cycleMessages
  rw [hplan, Attempt.ok_bind]
  cases horder : p.topologicalOrder true with
  | ok order => simp
  | error f =>
    cases f <;> simp [throw, throwThe, MonadExceptOf.throw]

theorem emptyFragmentMessage_of_full {fragments : Fields} {e : String × Json} (he : e ∈ fragments)
    (h : ∀ e ∈ fragments, ∃ f fs, e.2 = .obj (f :: fs)) :
    (do match ← (Json.obj fragments).lookup (.str e.1) with
        | .obj (_ :: _) => return none
        | _ => return some (.str s!"generator {(Json.str e.1).display} produced an empty fragment") :
      Attempt (Option Json)) = .ok none := by
  cases hfind : Assoc.find? fragments e.1 with
  | none => exact absurd (List.mem_map_of_mem he) (Assoc.find?_eq_none_iff.1 hfind)
  | some x =>
    obtain ⟨f, fs, hx⟩ := h _ (Assoc.mem_of_find? hfind)
    obtain rfl : x = .obj (f :: fs) := hx
    have hlookup : (Json.obj fragments).lookup (.str e.1) = .ok (.obj (f :: fs)) := by
      simp [Json.lookup, hfind]
    rw [hlookup]
    rfl

/-- Fragments that are not empty pass. -/
theorem emptyFragmentMessages_run {fragments : Fields}
    (h : ∀ e ∈ fragments, ∃ f fs, e.2 = .obj (f :: fs)) :
    emptyFragmentMessages (.obj fragments) = .ok [] := by
  have hkeys : (Json.obj fragments).elements = .ok ((fragments.map (·.1)).map .str) := by
    rw [List.map_map]
    rfl
  unfold emptyFragmentMessages
  rw [hkeys, Attempt.ok_bind, Json.sortValues_texts, Attempt.ok_bind]
  refine Attempt.bind_eq_ok.2 ⟨_, Attempt.mapM_eq_ok (g := fun _ => none) fun v hv => ?_, ?_⟩
  · obtain ⟨name, hname, rfl⟩ := List.mem_map.1 hv
    obtain ⟨e, he, rfl⟩ := List.mem_map.1 (Text.mem_sortOn.1 hname)
    exact emptyFragmentMessage_of_full he h
  · rw [Attempt.pure_eq_ok]
    simp

end Check

end FlowPlan

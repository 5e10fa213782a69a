import FlowPlan.Proofs.Plan.KeyOrder
import Mathlib

/-!
# The contracts of the standard stages

A stage has to work on whatever the stages before it have made of a document, and not only on what the
other standard stages make. Each one is taken by itself here: it accepts every document of its level
whose sections and collisions can be read, its result has the level that it promises, and it leaves
alone what is not its own.

## Main definitions

* `Document.namesIn` — the names in a record of collisions.
* `Document.Leaves` — only what the standard stages write has changed, and no collision is forgotten.

## Main statements

* `Document.initObjects_leaves`, `Document.qualify_leaves`, `Document.liftFactors_leaves`,
  `Document.deriveDependencies_leaves` — whatever a stage is given.
* `Stage.standard_contracts` — all of it.
-/

namespace FlowPlan

namespace Json

variable {v part w : Json} {xs ys seen : List Json} {n : String}

/-- Only a mapping takes a part under a name. -/
theorem obj_of_put (h : v.put (.str n) part = .ok w) :
    ∃ fs, v = .obj fs ∧ w = .obj (Assoc.set fs n part) := by
  cases v with
  | obj fs => exact ⟨fs, rfl, (Except.ok.inj h).symm⟩
  | _ => cases h

/-- Only a mapping has fields. -/
theorem obj_of_getD (h : v.getD n part = .ok w) : ∃ fs, v = .obj fs := by
  cases v with
  | obj fs => exact ⟨fs, rfl⟩
  | _ => cases h

theorem find?_of_field {fs : Fields} (h : (Json.obj fs).field n = .ok w) : Assoc.find? fs n = some w := by
  unfold field lookup at h
  dsimp only at h
  split at h
  · cases h
    assumption
  · cases h

/-! ## Texts in sets -/

theorem str_mem_insertDistinct (h : .str n ∈ seen ∨ .str n ∈ xs) :
    .str n ∈ xs.foldl insertDistinct seen := by
  induction xs generalizing seen with
  | nil => exact h.resolve_right List.not_mem_nil
  | cons x xs ih =>
    refine ih ?_
    unfold insertDistinct
    rw [List.mem_cons] at h
    split
    -- What is not added again is listed already, and only a text is the same as a text.
    · rename_i hlisted
      rcases h with h | rfl | h
      · exact .inl h
      · obtain ⟨y, hy, hsame⟩ := List.any_eq_true.1 hlisted
        exact .inl (same_str.1 hsame ▸ hy)
      · exact .inr h
    · rcases h with h | rfl | h
      · exact .inl (List.mem_append_left _ h)
      · exact .inl (List.mem_append_right _ List.mem_cons_self)
      · exact .inr h

/-- A set of values has all texts that were given. -/
theorem str_mem_of_set (h : (distinct xs >>= sortSet) = .ok ys) (hn : .str n ∈ xs) : .str n ∈ ys := by
  obtain ⟨zs, hzs, hys⟩ := Attempt.bind_eq_ok.1 h
  have hmem : .str n ∈ zs := by
    unfold distinct at hzs
    split at hzs
    · cases hzs
    · cases hzs
      exact str_mem_insertDistinct (.inr hn)
  unfold sortSet sortValues sortOnValue at hys
  dsimp only at hys
  split at hys
  · cases hys
  · cases hys
    rw [List.mem_mergeSort, List.mem_append, List.mem_filter]
    exact .inl ⟨hmem, rfl⟩

end Json

namespace Document

/-- The names in a record of collisions. -/
def namesIn (given : Option Json) : List String :=
  match (given.getD (.arr [])).elements with
  | .ok xs => xs.filterMap Json.str?
  | .error _ => []

/-- Only the parts that the standard stages write have changed, in sections that are null or mappings
where they are given, and the names that were recorded are recorded. -/
structure Leaves (document document' : Fields) : Prop where
  names : ∀ n ∈ namesIn (collisionsOf document), n ∈ namesIn (collisionsOf document')
  changes : Changes writtenParts document document'
  untouched : ∀ o, ¬IsSection document o → Assoc.find? document' o = Assoc.find? document o

variable {document document' document'' es fa pr : Fields} {outer inner : String} {v w : Json}
  {given c : Option Json} {names : List String} {kind : Kind} {parts : List (String × String)}

theorem mem_filterMap_str? {xs : List Json} {n : String} : n ∈ xs.filterMap Json.str? ↔ .str n ∈ xs := by
  rw [List.mem_filterMap]
  constructor
  · rintro ⟨x, hx, hstr⟩
    cases x <;> simp_all [Json.str?]
  · exact fun h => ⟨_, h, rfl⟩

/-- Recording names forgets none. -/
theorem mem_namesIn_of_recorded (h : recorded given names = .ok c) :
    ∀ n ∈ namesIn given, n ∈ namesIn c := by
  intro n hn
  unfold recorded at h
  split at h
  · cases h
    exact hn
  · obtain ⟨existing, hexisting, h⟩ := Attempt.bind_eq_ok.1 h
    obtain ⟨values, hvalues, h⟩ := Attempt.bind_eq_ok.1 h
    cases h
    unfold namesIn at hn
    rw [hexisting] at hn
    exact mem_filterMap_str?.2 (Json.str_mem_of_set hvalues
      (List.mem_append_left _ (mem_filterMap_str?.1 hn)))

/-! ## What is left alone -/

theorem Leaves.refl (document : Fields) : Leaves document document :=
  ⟨fun _ => id, .refl _ _, fun _ _ => rfl⟩

theorem Leaves.trans (h : Leaves document document') (h' : Leaves document' document'') :
    Leaves document document'' where
  names n hn := h'.names n (h.names n hn)
  changes := h.changes.within h'.changes
  untouched o ho := by
    have hsame := h.untouched o ho
    rw [h'.untouched o (mt (isSection_congr hsame).1 ho), hsame]

/-- Written parts of sections that can be written to have changed. -/
theorem Changes.leaves (h : Changes parts document document')
    (hparts : ∀ x ∈ parts, x ∈ writtenParts ∧ IsSection document x.1)
    (hnames : ∀ n ∈ namesIn (collisionsOf document), n ∈ namesIn (collisionsOf document')) :
    Leaves document document' where
  names := hnames
  changes := h.mono fun x hx => (hparts x hx).1
  untouched o ho := h.outside o fun hmem => by
    obtain ⟨x, hx, rfl⟩ := List.mem_map.1 hmem
    exact ho (hparts x hx).2

theorem Puts.leaves (h : Puts outer inner v document document') (hsection : IsSection document outer)
    (hmem : (outer, inner) ∈ writtenParts) (hne : (outer, inner) ≠ ("execution", collisionsField)) :
    Leaves document document' := by
  have hcollisions : collisionsOf document' = collisionsOf document :=
    h.changes.part _ _ (by simpa using Ne.symm hne)
  refine h.changes.leaves (fun x hx => ?_) fun n hn => hcollisions.symm ▸ hn
  obtain rfl := List.mem_singleton.1 hx
  exact ⟨hmem, hsection⟩

/-- Only a section that is a mapping, if anything, has been read from. -/
theorem mayOpen_of_getD
    (h : ((Assoc.find? (ensureSection document outer) outer).getD .null).getD inner v = .ok w) :
    MayOpen document outer := by
  obtain ⟨fs, hfs⟩ := Json.obj_of_getD h
  cases hfind : Assoc.find? document outer with
  | none => exact .inl hfind
  | some x =>
    rw [ensureSection, if_pos (contains_of_find? hfind), hfind, Option.getD_some] at hfs
    exact .inr ⟨fs, hfs ▸ hfind⟩

theorem mayOpen_of_givenIn (h : givenIn (ensureSection document outer) outer inner = .ok v) :
    MayOpen document outer := by
  unfold givenIn at h
  obtain ⟨w, hw, -⟩ := Attempt.bind_eq_ok.1 h
  exact mayOpen_of_getD hw

/-- Names can be recorded only where there is a plan, or room for one. -/
theorem mayOpen_of_recordCollisions (hnames : ¬ names.isEmpty = true)
    (h : recordCollisions (.obj document) names = .ok w) : MayOpen document "execution" := by
  rw [recordCollisions, if_neg hnames, Json.fieldsFor_obj, Attempt.ok_bind] at h
  obtain ⟨existing, hexisting, -⟩ := Attempt.bind_eq_ok.1 h
  exact mayOpen_of_getD hexisting

theorem recordCollisions_leaves (h : recordCollisions (.obj document) names = .ok w) :
    ∃ document', w = .obj document' ∧ Leaves document document' := by
  by_cases hempty : names.isEmpty = true
  · rw [recordCollisions, if_pos hempty] at h
    exact ⟨document, (Except.ok.inj h).symm, .refl document⟩
  · have hopen := mayOpen_of_recordCollisions hempty h
    obtain ⟨c, hc, document', rfl, rfl, hchanges, -⟩ := (recordCollisions_both hopen names).left h
    refine ⟨document', rfl, hchanges.leaves (fun x hx => ?_) (mem_namesIn_of_recorded hc)⟩
    obtain rfl := List.mem_singleton.1 hx
    exact ⟨by decide, hopen.isSection⟩

/-- A part is set, and names are recorded. -/
theorem recordAfter_leaves (hputs : Puts outer inner v document document')
    (hsection : IsSection document outer) (hmem : (outer, inner) ∈ writtenParts)
    (hne : (outer, inner) ≠ ("execution", collisionsField))
    (h : recordCollisions (.obj document') names = .ok w) :
    ∃ document'', w = .obj document'' ∧ Leaves document document'' := by
  obtain ⟨document'', hw, hleaves⟩ := recordCollisions_leaves h
  exact ⟨document'', hw, (hputs.leaves hsection hmem hne).trans hleaves⟩

theorem qualifySection_leaves (hmem : (outer, inner) ∈ writtenParts)
    (hne : (outer, inner) ≠ ("execution", collisionsField))
    (h : qualifySection (.obj document) outer inner kind = .ok w) :
    ∃ document', w = .obj document' ∧ Leaves document document' := by
  unfold qualifySection at h
  rw [Json.fieldsFor_obj, Attempt.ok_bind] at h
  obtain ⟨given, hgiven, h⟩ := Attempt.bind_eq_ok.1 h
  obtain ⟨⟨qualified, collisions⟩, -, h⟩ := Attempt.bind_eq_ok.1 h
  have hopen := mayOpen_of_givenIn hgiven
  exact recordAfter_leaves (setInSection_puts hopen _ _) hopen.isSection hmem hne h

theorem mergeSection_leaves (h : mergeSection (.obj document) v = .ok w) :
    ∃ document', w = .obj document' ∧ Leaves document document' := by
  unfold mergeSection at h
  rw [Json.fieldsFor_obj, Attempt.ok_bind] at h
  obtain ⟨given, hgiven, h⟩ := Attempt.bind_eq_ok.1 h
  obtain ⟨⟨merged, collisions⟩, -, h⟩ := Attempt.bind_eq_ok.1 h
  have hopen := mayOpen_of_givenIn hgiven
  exact recordAfter_leaves (setInSection_puts hopen _ _) hopen.isSection (by decide) (by decide) h

theorem qualify_leaves (h : qualify (.obj document) = .ok w) :
    ∃ document', w = .obj document' ∧ Leaves document document' := by
  unfold qualify at h
  obtain ⟨w₁, h₁, h⟩ := Attempt.bind_eq_ok.1 h
  obtain ⟨d₁, rfl, hleaves₁⟩ := qualifySection_leaves (by decide) (by decide) h₁
  obtain ⟨w₂, h₂, h⟩ := Attempt.bind_eq_ok.1 h
  obtain ⟨d₂, rfl, hleaves₂⟩ := qualifySection_leaves (by decide) (by decide) h₂
  obtain ⟨extractors, -, h⟩ := Attempt.bind_eq_ok.1 h
  obtain ⟨d₃, rfl, hleaves₃⟩ := mergeSection_leaves h
  exact ⟨d₃, rfl, (hleaves₁.trans hleaves₂).trans hleaves₃⟩

theorem liftFactors_leaves (h : Stage.liftFactors (.obj document) = .ok w) :
    ∃ document', w = .obj document' ∧ Leaves document document' := by
  unfold Stage.liftFactors at h
  obtain ⟨inference, -, h⟩ := Attempt.bind_eq_ok.1 h
  obtain ⟨factors, -, h⟩ := Attempt.bind_eq_ok.1 h
  obtain ⟨execution, hexecution, h⟩ := Attempt.bind_eq_ok.1 h
  obtain ⟨processes, -, h⟩ := Attempt.bind_eq_ok.1 h
  obtain ⟨⟨merged, collisions⟩, -, h⟩ := Attempt.bind_eq_ok.1 h
  obtain ⟨execution', hput, h⟩ := Attempt.bind_eq_ok.1 h
  obtain ⟨fs, rfl, rfl⟩ := Json.obj_of_put hput
  have hopen := Json.find?_of_field hexecution
  exact recordAfter_leaves (puts_set_of_open hopen) (IsOpen.isSection ⟨fs, hopen⟩) (by decide) (by decide) h

theorem deriveDependencies_leaves (h : Stage.deriveDependencies (.obj document) = .ok w) :
    ∃ document', w = .obj document' ∧ Leaves document document' := by
  unfold Stage.deriveDependencies at h
  obtain ⟨plan, -, h⟩ := Attempt.bind_eq_ok.1 h
  obtain ⟨awaited, -, h⟩ := Attempt.bind_eq_ok.1 h
  obtain ⟨execution, hexecution, h⟩ := Attempt.bind_eq_ok.1 h
  obtain ⟨execution', hput, h⟩ := Attempt.bind_eq_ok.1 h
  obtain ⟨fs, rfl, rfl⟩ := Json.obj_of_put hput
  have hopen := Json.find?_of_field hexecution
  cases h
  exact ⟨_, rfl, (puts_set_of_open hopen).leaves (IsOpen.isSection ⟨fs, hopen⟩) (by decide) (by decide)⟩

theorem ensureField_leaves (hmem : (outer, inner) ∈ writtenParts)
    (hne : (outer, inner) ≠ ("execution", collisionsField))
    (h : Stage.ensureField (.obj document) outer inner = .ok w) :
    ∃ document', w = .obj document' ∧ Leaves document document' := by
  have hsection := isSection_of_ensureField h
  obtain ⟨document', hrun, hputs⟩ := ensureField_puts hsection inner
  exact ⟨document', Except.ok.inj (h.symm.trans hrun), hputs.leaves hsection hmem hne⟩

theorem initObjects_leaves (h : Stage.initObjects.transform (.obj document) = .ok w) :
    ∃ document', w = .obj document' ∧ Leaves document document' := by
  unfold Stage.initObjects Stage.sections at h
  dsimp only at h
  simp only [List.foldlM_cons, List.foldlM_nil, bind_pure] at h
  obtain ⟨w₁, h₁, h⟩ := Attempt.bind_eq_ok.1 h
  obtain ⟨d₁, rfl, hleaves₁⟩ := ensureField_leaves (by decide) (by decide) h₁
  obtain ⟨w₂, h₂, h⟩ := Attempt.bind_eq_ok.1 h
  obtain ⟨d₂, rfl, hleaves₂⟩ := ensureField_leaves (by decide) (by decide) h₂
  obtain ⟨d₃, rfl, hleaves₃⟩ := ensureField_leaves (by decide) (by decide) h
  exact ⟨d₃, rfl, (hleaves₁.trans hleaves₂).trans hleaves₃⟩

/-! ## Documents of the qualified level -/

theorem isQualified_of_check {e : String × Json} {path : String} {fs : Fields} (hfs : e.2 = .obj fs)
    (h : checkDefinition .qualified kind path e.1 fs = .ok ()) :
    Definition.IsQualified e ∧ Kind.of? e.1 = some kind := by
  obtain ⟨n, v⟩ := e
  obtain rfl : v = .obj fs := hfs
  unfold checkDefinition at h
  dsimp only at h
  by_cases hkind : Kind.of? n = some kind
  · rw [if_pos hkind] at h
    obtain ⟨hdescribes, hkinded, hlisted⟩ := (Definition.checkQualifiedEntry_iff n).1 h
    exact ⟨⟨fs, rfl, hdescribes, hkinded, hlisted rfl⟩, hkind⟩
  · rw [if_neg hkind] at h
    cases h

/-- What the qualified shape says of the three sections. -/
theorem holds_of_qualified (h : check (.obj document) .qualified = .ok ()) :
    ∃ es fa pr, Holds document es fa pr ∧
      (∀ e ∈ es, Definition.IsQualified e ∧ Kind.of? e.1 = some .process) ∧
      (∀ e ∈ fa, Definition.IsQualified e ∧ Kind.of? e.1 = some .factor) ∧ ∀ e ∈ pr, IsProcess e := by
  obtain ⟨hsections, hprocesses⟩ := check_iff.1 h
  simp only [definitionSections, List.forall_mem_cons, List.not_mem_nil, false_implies, implies_true,
    and_true] at hsections
  obtain ⟨⟨hcontra, -⟩ | ⟨es, hes, hesall⟩, ⟨hcontra', -⟩ | ⟨fa, hfa, hfaall⟩⟩ := hsections
  case inl.inl => simp at hcontra
  case inl.inr => simp at hcontra
  case inr.inl => simp at hcontra'
  obtain ⟨hcontra, -⟩ | ⟨pr, hpr, hprall⟩ := hprocesses
  case inl => simp at hcontra
  refine ⟨es, fa, pr, ⟨isOpen_of_part hes, isOpen_of_part hfa, isOpen_of_part hpr, hes, hfa, hpr⟩,
    fun e he => ?_, fun e he => ?_, fun e he => ?_⟩
  · obtain ⟨fs, hfs, hcheck⟩ := hesall e he
    exact isQualified_of_check hfs hcheck
  · obtain ⟨fs, hfs, hcheck⟩ := hfaall e he
    exact isQualified_of_check hfs hcheck
  · obtain ⟨fs, hfs, hcheck⟩ := hprall e he
    exact ⟨fs, hfs, hcheck rfl⟩

end Document

namespace Stage

open Document

variable {document : Fields} {names : List String}

/-! ## One stage -/

/-- Missing and empty sections are created. -/
theorem initObjects_contract (hraw : check (.obj document) .raw = .ok ())
    (hsections : ∀ x ∈ sections, IsSection document x.1) :
    ∃ document', initObjects.transform (.obj document) = .ok (.obj document') ∧
      check (.obj document') .raw = .ok () ∧
      ∀ x ∈ sections, ∃ es, part? document' x.1 x.2 = some (.obj es) := by
  obtain ⟨hgiven, -⟩ := entries_of_raw hraw
  have hnamed : ∀ o ∈ ["extraction", "inference", "execution"], IsSection document o := by
    simpa [sections] using hsections
  obtain ⟨document', hrun, hholds, -⟩ := initObjects_run hnamed hgiven
  refine ⟨document', hrun, check_raw_of_holds hraw hholds, ?_⟩
  simp only [sections, List.forall_mem_cons, List.not_mem_nil, false_implies, implies_true, and_true]
  exact ⟨⟨_, hholds.extractors⟩, ⟨_, hholds.factors⟩, _, hholds.processes⟩

/-- Raw definitions are qualified next to processes that are qualified already. -/
theorem qualifyNames_contract (honce : (Json.obj document).Distinct)
    (hraw : check (.obj document) .raw = .ok ()) (hsections : ∀ x ∈ sections, MayOpen document x.1)
    (hprocesses : ∀ e ∈ entriesIn document "execution" "processes", IsProcess e)
    (hrecords : Records document names) :
    ∃ document' names', qualifyNames.transform (.obj document) = .ok (.obj document') ∧
      check (.obj document') .qualified = .ok () ∧ Records document' names' := by
  obtain ⟨hgiven, hes, hfa⟩ := entries_of_raw hraw
  have hnamed : ∀ o ∈ ["extraction", "inference", "execution"], MayOpen document o := by
    simpa [sections] using hsections
  obtain ⟨c, ks, hrecorded, hc, -⟩ := foldlM_recorded_texts hrecords
    (doubled (entriesIn document "extraction" "extractors") (entriesIn document "inference" "factors")
      (entriesIn document "execution" "processes"))
  obtain ⟨w, hrun, document', rfl, hholds, rfl, -⟩ :=
    (qualify_given_both hnamed hgiven hes hfa).right hrecorded
  have hes' := gathers_gathered .process (entriesIn document "extraction" "extractors")
  have hfa' := gathers_gathered .factor (entriesIn document "inference" "factors")
  have hkeys := (Json.distinct_obj.1 (once_entries honce "execution" "processes")).1
  exact ⟨document', ks, hrun, check_qualified_of_holds hholds hes'.qualified hfa'.qualified
    (isProcess_of_merge (.inl rfl) hkeys hes' fun e he _ => hprocesses e he), hc⟩

/-- Factors have the shape of processes. -/
theorem factorProcesses_contract (honce : (Json.obj document).Distinct)
    (hqualified : check (.obj document) .qualified = .ok ()) (hrecords : Records document names) :
    ∃ document' names', factorProcesses.transform (.obj document) = .ok (.obj document') ∧
      check (.obj document') .qualified = .ok () ∧ Records document' names' := by
  obtain ⟨es, fa, pr, hholds, hes, hfa, hpr⟩ := holds_of_qualified hqualified
  have hkeys : ∀ outer inner, (Assoc.keys (entriesIn document outer inner)).Nodup := fun outer inner =>
    (Json.distinct_obj.1 (once_entries honce outer inner)).1
  obtain ⟨-, rfl, rfl⟩ := hholds.entries
  obtain ⟨c, ks, hrecorded, hc, -⟩ := recorded_texts hrecords
    (Text.common (Assoc.keys (entriesIn document "inference" "factors"))
      (Assoc.keys (entriesIn document "execution" "processes")))
  obtain ⟨w, hrun, document', rfl, hholds', rfl, -⟩ :=
    (liftFactors_both hholds (hkeys "inference" "factors")).right hrecorded
  refine ⟨document', ks, hrun, check_qualified_of_holds hholds' hes hfa fun e he => ?_, hc⟩
  rcases Assoc.mem_foldl_set (hkeys "execution" "processes") he with he | ⟨he, -⟩
  · exact isProcess_of_qualified (hfa e he).1 (.inr (hfa e he).2)
  · exact hpr e he

/-- What the processes wait for can be told from their shape. -/
theorem dependencies_contract (honce : (Json.obj document).Distinct)
    (hqualified : check (.obj document) .qualified = .ok ()) (hrecords : Records document names) :
    ∃ document' names', dependencies.transform (.obj document) = .ok (.obj document') ∧
      check (.obj document') .qualified = .ok () ∧ Records document' names' := by
  obtain ⟨es, fa, pr, hholds, hes, hfa, hpr⟩ := holds_of_qualified hqualified
  have hkeys := (Json.distinct_obj.1 (once_entries honce "execution" "processes")).1
  obtain ⟨-, -, rfl⟩ := hholds.entries
  obtain ⟨p, hplan, hconsists⟩ := Plan.ofDocument_run hholds.processes (represents_processes hpr hkeys)
  obtain ⟨waits, hwaits, -⟩ := Plan.allPrerequisites_run hconsists
  obtain ⟨document', hrun, hputs⟩ := deriveDependencies_run hholds.execution hplan hwaits
  have hholds' := hholds.of_changes hputs.changes (by decide)
  refine ⟨document', names, hrun, check_qualified_of_holds hholds' hes hfa hpr, ?_⟩
  rwa [Records, collisionsOf, hputs.changes.part _ _ (by decide), ← collisionsOf, ← Records]

/-- Whatever a standard stage is given, it leaves the rest alone. -/
theorem standard_leaves {e : Stage × String} (he : e ∈ standard) {v : Json}
    (h : e.1.transform (.obj document) = .ok v) :
    ∃ document', v = .obj document' ∧ Leaves document document' := by
  simp only [standard, List.mem_cons, List.not_mem_nil, or_false] at he
  rcases he with rfl | rfl | rfl | rfl
  · exact initObjects_leaves h
  · exact qualify_leaves h
  · exact liftFactors_leaves h
  · exact deriveDependencies_leaves h

/-- The contracts of all standard stages. A document binds no key twice, and its collisions are names
where a stage may have to add to them. -/
theorem standard_contracts (document : Fields) (honce : (Json.obj document).Distinct) :
    (check (.obj document) .raw = .ok () → (∀ x ∈ sections, IsSection document x.1) →
      ∃ document', initObjects.transform (.obj document) = .ok (.obj document') ∧
        check (.obj document') .raw = .ok () ∧
        ∀ x ∈ sections, ∃ es, part? document' x.1 x.2 = some (.obj es)) ∧
    (check (.obj document) .raw = .ok () → (∀ x ∈ sections, MayOpen document x.1) →
      (∀ e ∈ entriesIn document "execution" "processes", IsProcess e) →
      (∃ names, Records document names) →
      ∃ document' names, qualifyNames.transform (.obj document) = .ok (.obj document') ∧
        check (.obj document') .qualified = .ok () ∧ Records document' names) ∧
    (∀ s ∈ [factorProcesses, dependencies], check (.obj document) .qualified = .ok () →
      (∃ names, Records document names) →
      ∃ document' names, s.transform (.obj document) = .ok (.obj document') ∧
        check (.obj document') .qualified = .ok () ∧ Records document' names) ∧
    ∀ e ∈ standard, ∀ v, e.1.transform (.obj document) = .ok v →
      ∃ document', v = .obj document' ∧ Leaves document document' := by
  refine ⟨initObjects_contract, ?_, ?_, fun e he v => standard_leaves he⟩
  · rintro hraw hsections hprocesses ⟨names, hrecords⟩
    exact qualifyNames_contract honce hraw hsections hprocesses hrecords
  · rintro s hs hqualified ⟨names, hrecords⟩
    simp only [List.mem_cons, List.not_mem_nil, or_false] at hs
    rcases hs with rfl | rfl
    · exact factorProcesses_contract honce hqualified hrecords
    · exact dependencies_contract honce hqualified hrecords

/-- A document before qualification, with a process and a collision that were there before, and without
factors. -/
def rawDraft : Fields :=
  [("extraction", .obj [("extractors", .obj [("a", .obj [("output_relation", .str "r")])])]),
    ("execution", .obj [("processes", .obj [("process/a", .obj [])]), (collisionsField, .arr [.str "x"])])]

/-- A document after qualification, with a factor that is not in the plan. -/
def qualifiedDraft : Fields :=
  [("extraction", .obj [("extractors", .obj [])]),
    ("inference", .obj [("factors",
      .obj [("factor/f", .obj [(dependenciesField, .arr [.str "process/a"]), (inputField, .arr [])])])]),
    ("execution", .obj [("processes", .obj [("process/a", .obj [])])])]

theorem standard_contracts_drafts :
    (Json.obj rawDraft).Distinct ∧ check (.obj rawDraft) .raw = .ok () ∧
    (∃ document', initObjects.transform (.obj rawDraft) = .ok (.obj document') ∧
      check (.obj document') .raw = .ok () ∧
      ∀ x ∈ sections, ∃ es, part? document' x.1 x.2 = some (.obj es)) ∧
    (∃ document' names, qualifyNames.transform (.obj rawDraft) = .ok (.obj document') ∧
      check (.obj document') .qualified = .ok () ∧ Records document' names) ∧
    (Json.obj qualifiedDraft).Distinct ∧ check (.obj qualifiedDraft) .qualified = .ok () ∧
    ∀ s ∈ [factorProcesses, dependencies], ∃ document' names,
      s.transform (.obj qualifiedDraft) = .ok (.obj document') ∧
      check (.obj document') .qualified = .ok () ∧ Records document' names := by
  have hraw : check (.obj rawDraft) .raw = .ok () := rfl
  have hqualified : check (.obj qualifiedDraft) .qualified = .ok () := rfl
  have honce : (Json.obj rawDraft).Distinct := by
    simp [rawDraft, collisionsField, Json.Distinct, Json.DistinctFields, Json.DistinctList, Assoc.keys]
  have honce' : (Json.obj qualifiedDraft).Distinct := by
    simp [qualifiedDraft, dependenciesField, inputField, Json.Distinct, Json.DistinctFields,
      Json.DistinctList, Assoc.keys]
  have hopen : ∀ x ∈ sections, MayOpen rawDraft x.1 := by
    simp only [sections, List.forall_mem_cons, List.not_mem_nil, false_implies, implies_true, and_true]
    exact ⟨.inr ⟨_, rfl⟩, .inl rfl, .inr ⟨_, rfl⟩⟩
  have hprocesses : ∀ e ∈ entriesIn rawDraft "execution" "processes", IsProcess e :=
    List.forall_mem_singleton.2 ⟨[], rfl, rfl⟩
  refine ⟨honce, hraw, (standard_contracts rawDraft honce).1 hraw fun x hx => (hopen x hx).isSection,
    (standard_contracts rawDraft honce).2.1 hraw hopen hprocesses ⟨["x"], rfl⟩, honce', hqualified,
    fun s hs => (standard_contracts qualifiedDraft honce').2.2.1 s hs hqualified ⟨[], rfl⟩⟩

end Stage

end FlowPlan

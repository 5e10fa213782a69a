import FlowPlan.Proofs.Plan.Alike

/-!
# Compilation and the order of keys

The names that collide, and whether a document is compiled at all, do not depend on the order of its
keys. Where nothing collides, what it is compiled to does not either: only then no definition is lost to
a later one of its name.

## Main statements

* `Document.collided_alike`, `Document.Compilable.alike` — alike documents collide and are read alike.
* `Document.compile_alike` — alike documents are compiled alike.
* `Document.distinct_of_makes` — a compiled document binds no key twice.
* `Document.makes_alike` — without collisions the compiled documents are alike.
-/

namespace FlowPlan.Document

open Definition

variable {document document' d d' : Fields} {es es' fa fa' : Fields} {outer inner : String}

/-! ## Alike entries -/

theorem mem_alike (h : (Json.obj es).Alike (.obj es')) {e : String × Json} (he : e ∈ es') :
    ∃ x ∈ es, x.1 = e.1 ∧ x.2.sortKeys = e.2.sortKeys := by
  have hmem : (e.1, e.2.sortKeys) ∈ Json.sortKeysFields es := by
    rw [h.perm.mem_iff, Json.sortKeysFields_eq_map]
    exact List.mem_map_of_mem he
  rw [Json.sortKeysFields_eq_map] at hmem
  obtain ⟨x, hx, heq⟩ := List.mem_map.1 hmem
  exact ⟨x, hx, (Prod.mk.inj heq).1, (Prod.mk.inj heq).2⟩

theorem qualifiedKeys_perm (h : (Json.obj es).Alike (.obj es')) (kind : Kind) :
    (qualifiedKeys kind es).Perm (qualifiedKeys kind es') := by
  have hkeys : ∀ xs : Fields, qualifiedKeys kind xs = (Assoc.keys xs).map kind.qualify := by
    intro xs
    rw [Assoc.keys, List.map_map]
    rfl
  rw [hkeys, hkeys]
  exact h.keys.map _

theorem isProcess_sortKeys {n : String} {v : Json} : IsProcess (n, v.sortKeys) ↔ IsProcess (n, v) := by
  unfold IsProcess
  dsimp only
  constructor
  · rintro ⟨fs, hfs, hcheck⟩
    cases v with
    | obj gs =>
      obtain rfl : sorted gs = fs := Json.obj.inj (sortKeys_obj gs ▸ hfs)
      exact ⟨gs, rfl, checkProcess_sorted _ n gs ▸ hcheck⟩
    | _ => simp [Json.sortKeys] at hfs
  · rintro ⟨fs, rfl, hcheck⟩
    exact ⟨sorted fs, sortKeys_obj fs, (checkProcess_sorted _ n fs).trans hcheck⟩

theorem once_entries (h : (Json.obj document).Distinct) (outer inner : String) :
    (Json.obj (entriesIn document outer inner)).Distinct := by
  unfold entriesIn part?
  split
  · rename_i fs hfs
    cases hfind : Assoc.find? fs inner with
    | none => simp [fieldsOf, Json.Distinct, Json.DistinctFields, Assoc.keys]
    | some v =>
      have hv : v.Distinct := (h.find? hfs).find? hfind
      cases v with
      | obj es => exact hv
      | _ => simp [fieldsOf, Json.Distinct, Json.DistinctFields, Assoc.keys]
  · simp [fieldsOf, Json.Distinct, Json.DistinctFields, Assoc.keys]

/-! ## Alike documents -/

/-- Alike documents have the same collisions. -/
theorem collided_alike (h : (Json.obj document).Alike (.obj document')) :
    collided document = collided document' := by
  have hextractors := qualifiedKeys_perm (entriesIn_alike h "extraction" "extractors") .process
  have hfactors := qualifiedKeys_perm (entriesIn_alike h "inference" "factors") .factor
  have hprocesses := (entriesIn_alike h "execution" "processes").keys
  unfold collided
  dsimp only
  rw [Text.repeated_of_perm hextractors, Text.repeated_of_perm hfactors,
    Text.common_of_mem (fun _ => hextractors.mem_iff) fun _ => hprocesses.mem_iff,
    Text.common_of_mem (fun _ => hfactors.mem_iff) fun _ => (hprocesses.append hextractors).mem_iff]

theorem Compilable.alike (h : Compilable document) (halike : (Json.obj document).Alike (.obj document')) :
    Compilable document' where
  sections o ho := by
    rw [← isSection_sorted, ← alike_iff.1 halike, isSection_sorted]
    exact h.sections o ho
  raw := (check_alike halike).1 h.raw
  processes e he hnew := by
    obtain ⟨x, hx, hkey, hvalue⟩ := mem_alike (entriesIn_alike halike "execution" "processes") he
    have hextractors := qualifiedKeys_perm (entriesIn_alike halike "extraction" "extractors") .process
    have hprocess : IsProcess x := h.processes x hx fun hmem => hnew (hkey ▸ hextractors.mem_iff.1 hmem)
    rw [← Prod.eta e, ← isProcess_sortKeys, ← hkey, ← hvalue, isProcess_sortKeys]
    exact hprocess

/-- Alike documents are compiled alike, and record the same collisions. -/
theorem compile_alike (halike : (Json.obj document).Alike (.obj document'))
    (hdistinct : (Json.obj document).Distinct) (hdistinct' : (Json.obj document').Distinct) {v : Json}
    (hcompile : compile (.obj document) = .ok v) :
    ∃ d d' es es' fa fa', v = .obj d ∧ compile (.obj document') = .ok (.obj d') ∧
      Makes document d es fa ∧ Makes document' d' es' fa' ∧
      check (.obj d) .qualified = .ok () ∧ check (.obj d') .qualified = .ok () ∧
      (collided document).foldlM recorded (collisionsOf document) = .ok (collisionsOf d) ∧
      (collisionsOf d).map Json.sortKeys = (collisionsOf d').map Json.sortKeys := by
  have hcompilable := compilable_of_compile hcompile
  have honce := (Json.distinct_obj.1 (once_entries hdistinct "execution" "processes")).1
  have honce' := (Json.distinct_obj.1 (once_entries hdistinct' "execution" "processes")).1
  obtain ⟨c, hrecorded, d, es, fa, rfl, rfl, hmakes, hcheck, -⟩ :=
    (compile_both hcompilable honce).left hcompile
  obtain ⟨c', hrecorded', hc⟩ := foldlM_recorded_alike (part?_alike halike "execution" collisionsField) hrecorded
  rw [collided_alike halike] at hrecorded'
  obtain ⟨-, hcompile', d', es', fa', rfl, rfl, hmakes', hcheck', -⟩ :=
    (compile_both (hcompilable.alike halike) honce').right hrecorded'
  exact ⟨d, d', es, es', fa, fa', rfl, hcompile', hmakes, hmakes', hcheck, hcheck', hrecorded, hc⟩

/-- Where no collisions are recorded, the checks and the generators of the plan do not see the order of
keys. -/
theorem judged_alike (halike : (Json.obj document).Alike (.obj document'))
    (hcheck : check (.obj document) .qualified = .ok ())
    (honce : (Assoc.keys (entriesIn document "execution" "processes")).Nodup)
    (hnone : collisionsOf document = none) :
    (∀ c ∈ Check.standard, c.1.phase = .str planPhase → ∀ examine, c.1.judge = .function examine →
      (examine (.obj document)).1 = (examine (.obj document')).1) ∧
    ∀ g ∈ Generator.standard, g.1.generate (.obj document) = g.1.generate (.obj document') := by
  have hcheck' := (check_alike halike).1 hcheck
  have honce' := (entriesIn_alike halike "execution" "processes").keys.nodup_iff.1 honce
  have hnone' : collisionsOf document' = none := by
    have hpart := part?_alike halike "execution" collisionsField
    rw [show part? document "execution" collisionsField = none from hnone, Option.map_none] at hpart
    exact Option.map_eq_none_iff.1 hpart.symm
  refine ⟨fun c hc hphase examine hjudge => ?_, fun g hg => ?_⟩
  · rw [Check.examine_sorted hcheck honce hnone c hc hphase examine hjudge,
      Check.examine_sorted hcheck' honce' hnone' c hc hphase examine hjudge]
    exact congrArg (fun v => (examine v).1) halike
  · rw [Generator.generate_sorted hcheck honce g hg, Generator.generate_sorted hcheck' honce' g hg]
    exact congrArg g.1.generate halike

/-! ## Keys of a compiled document -/

theorem once_of_distinct (h : (Json.obj document).Distinct) : Once document :=
  ⟨(Json.distinct_obj.1 h).1, fun _ _ hfs => (Json.distinct_obj.1 (h.find? hfs)).1⟩

/-- A part that is a mapping has been set by a stage, or was there before. -/
theorem distinct_of_changes {parts : List (String × String)} (hchanges : Changes parts document d)
    (hdistinct : (Json.obj document).Distinct) (hopen : ∀ o ∈ parts.map (·.1), IsOpen d o)
    (hparts : ∀ x ∈ parts, ∀ v, part? d x.1 x.2 = some v → v.Distinct) : (Json.obj d).Distinct := by
  have honce' := hchanges.once (once_of_distinct hdistinct)
  refine Json.distinct_obj.2 ⟨honce'.keys, fun e he => ?_⟩
  have hfind := Assoc.find?_of_mem honce'.keys he
  by_cases ho : e.1 ∈ parts.map (·.1)
  · obtain ⟨fs, hfs⟩ := hopen _ ho
    obtain hvalue : e.2 = .obj fs := Option.some.inj (hfind.symm.trans hfs)
    rw [hvalue]
    have hnodup := honce'.inside _ _ hfs
    refine Json.distinct_obj.2 ⟨hnodup, fun x hx => ?_⟩
    have hpart : part? d e.1 x.1 = some x.2 := by
      rw [part?_of_open hfs, Assoc.find?_of_mem hnodup hx]
    by_cases hset : (e.1, x.1) ∈ parts
    · exact hparts _ hset _ hpart
    · rw [hchanges.part _ _ hset] at hpart
      unfold part? at hpart
      split at hpart
      · rename_i gs hgs
        exact (hdistinct.find? hgs).find? hpart
      · cases hpart
  · rw [hchanges.outside _ ho] at hfind
    exact hdistinct.find? hfind

theorem distinct_onto {entry : Fields} (h : (Json.obj entry).Distinct) (x : Definition) :
    (Json.obj (x.onto entry)).Distinct := by
  have hlists := (h.set (Json.distinct_arr_texts x.dependencies) dependenciesField).set
    (Json.distinct_arr_texts x.inputs) inputField
  unfold onto
  dsimp only
  split
  · exact hlists.erase _
  · exact hlists.set (Json.distinct_arr_texts [_]) _

theorem distinct_fieldsOf {v : Json} (h : v.Distinct) : (Json.obj (fieldsOf v)).Distinct := by
  cases v with
  | obj fs => exact h
  | _ => simp [fieldsOf, Json.Distinct, Json.DistinctFields, Assoc.keys]

theorem Gathers.distinct {kind : Kind} (h : Gathers kind es es') (hes : (Json.obj es).Distinct) :
    (Json.obj es').Distinct := by
  refine Json.distinct_obj.2 ⟨h.once, fun x hx => ?_⟩
  obtain ⟨e, he, rfl⟩ := h.entry x hx
  exact distinct_onto (distinct_fieldsOf ((Json.distinct_obj.1 hes).2 e he)) _

theorem distinct_mergeFields (hes : (Json.obj es).Distinct) (hfa : (Json.obj fa).Distinct) :
    (Json.obj (mergeFields es fa).1).Distinct := by
  have hnodup := (Json.distinct_obj.1 hes).1
  refine Json.distinct_obj.2 ⟨nodup_mergeFields fa hnodup, fun x hx => ?_⟩
  rcases Assoc.mem_foldl_set hnodup hx with hx | ⟨hx, -⟩
  · exact (Json.distinct_obj.1 hfa).2 x hx
  · exact (Json.distinct_obj.1 hes).2 x hx

/-- What the processes of a qualified plan wait for has each process once. -/
theorem distinct_awaited {p : Plan} {ds : List Definition} (h : p.Consists ds)
    {awaited : List (String × List Json)} (hawaited : p.allPrerequisites = .ok awaited) :
    (Json.obj (awaited.map fun e => (e.1, .arr e.2))).Distinct := by
  obtain ⟨waits, hwaits, hnames, -⟩ := Plan.allPrerequisites_run h
  obtain rfl : waits.values = awaited := Except.ok.inj (hwaits.symm.trans hawaited)
  refine Json.distinct_obj.2 ⟨?_, fun x hx => ?_⟩
  · have hkeys : Assoc.keys (waits.values.map fun e => (e.1, Json.arr e.2)) = p.sorted.map (·.name) := by
      rw [← hnames, ← waits.keys_values, Assoc.keys, List.map_map]
      rfl
    exact hkeys ▸ Plan.nodup_sorted h
  · obtain ⟨e, he, rfl⟩ := List.mem_map.1 hx
    obtain ⟨e, -, rfl⟩ := List.mem_map.1 he
    exact Json.distinct_arr_texts e.2

/-- The plan of a compiled document consists of the definitions that its processes hold. -/
theorem plan_of_makes (hmakes : Makes document d es fa) (hcheck : check (.obj d) .qualified = .ok ())
    (hdistinct : (Json.obj document).Distinct) :
    ∃ (p : Plan) (awaited : List (String × List Json)), p.Consists (processesIn d) ∧
      p.allPrerequisites = .ok awaited ∧
      part? d "execution" "dependencies" = some (.obj (awaited.map fun e => (e.1, .arr e.2))) := by
  have hentries : entriesIn d "execution" "processes" = mergedProcesses document es fa := by
    rw [entriesIn, hmakes.holds.processes]
    rfl
  have honce := (Json.distinct_obj.1 (once_entries hdistinct "execution" "processes")).1
  have honce' : (Assoc.keys (entriesIn d "execution" "processes")).Nodup :=
    hentries ▸ nodup_mergeFields fa (nodup_mergeFields es honce)
  obtain ⟨p, awaited, hplan, hawaited, hpart⟩ := hmakes.dependencies
  obtain ⟨p', hplan', hconsists, -⟩ := plan_of_qualified hcheck honce'
  obtain rfl : p = p' := Except.ok.inj (hplan.symm.trans hplan')
  exact ⟨p, awaited, hconsists, hawaited, hpart⟩

/-- A compiled document binds no key twice. -/
theorem distinct_of_makes (hmakes : Makes document d es fa) (hcheck : check (.obj d) .qualified = .ok ())
    (hdistinct : (Json.obj document).Distinct)
    (hrecorded : (collided document).foldlM recorded (collisionsOf document) = .ok (collisionsOf d)) :
    (Json.obj d).Distinct := by
  have hes := hmakes.extractors.distinct (once_entries hdistinct "extraction" "extractors")
  have hfa := hmakes.factors.distinct (once_entries hdistinct "inference" "factors")
  have hcollisions : ∀ v ∈ collisionsOf d, v.Distinct := by
    refine foldlM_recorded_distinct hrecorded fun v hv => ?_
    unfold collisionsOf part? at hv
    split at hv
    · rename_i fs hfs
      exact (hdistinct.find? hfs).find? hv
    · cases hv
  obtain ⟨p, awaited, hconsists, hawaited, hpart⟩ := plan_of_makes hmakes hcheck hdistinct
  refine distinct_of_changes hmakes.changes hdistinct (fun o ho => ?_) fun x hx v hv => ?_
  · simp only [writtenParts, List.map_cons, List.map_nil, List.mem_cons, List.not_mem_nil, or_false] at ho
    obtain rfl | rfl | rfl | rfl | rfl := ho
    · exact hmakes.holds.extraction
    · exact hmakes.holds.inference
    all_goals exact hmakes.holds.execution
  · simp only [writtenParts, List.mem_cons, List.not_mem_nil, or_false] at hx
    obtain rfl | rfl | rfl | rfl | rfl := hx
    · rw [hmakes.holds.extractors] at hv
      cases hv
      exact hes
    · rw [hmakes.holds.factors] at hv
      cases hv
      exact hfa
    · rw [hmakes.holds.processes] at hv
      cases hv
      exact distinct_mergeFields
        (distinct_mergeFields (once_entries hdistinct "execution" "processes") hes) hfa
    · exact hcollisions v hv
    · rw [hpart] at hv
      cases hv
      exact distinct_awaited hconsists hawaited

/-! ## Without collisions -/

/-- A definition is qualified in the same way whatever the order of its keys. -/
theorem sortKeys_qualified {kind : Kind} {n : String} {v : Json} (hv : v.Distinct) :
    (qualified kind (n, v.sortKeys)).2.sortKeys = (qualified kind (n, v)).2.sortKeys := by
  have hof : ofRaw kind (n, v.sortKeys) = ofRaw kind (n, v) := by
    unfold ofRaw
    dsimp only
    rw [fieldsOf_sortKeys, namesAt_sorted, namesAt_sorted, find?_sorted]
    cases Assoc.find? (fieldsOf v) "output_relation" with
    | none => rfl
    | some w => rw [Option.map_some, Option.bind_some, Option.bind_some, Json.str?_sortKeys]
  unfold qualified
  dsimp only
  rw [hof, fieldsOf_sortKeys]
  have hfields := distinct_fieldsOf hv
  have hnodup : (Assoc.keys (sorted (fieldsOf v))).Nodup :=
    (keys_sorted_perm _).nodup_iff.2 (Json.distinct_obj.1 hfields).1
  -- Only the keys of the definition itself have to be different, not those of its parts.
  have honto : ∀ fs : Fields, (Assoc.keys fs).Nodup →
      (Assoc.keys ((ofRaw kind (n, v)).onto fs)).Nodup := by
    intro fs hfs
    have hlists := Assoc.nodup_set (Assoc.nodup_set hfs dependenciesField
      (.arr ((ofRaw kind (n, v)).dependencies.map .str))) inputField
      (.arr ((ofRaw kind (n, v)).inputs.map .str))
    unfold onto
    dsimp only
    split
    · exact hlists.sublist (List.filter_sublist.map _)
    · exact Assoc.nodup_set hlists _ _
  refine Json.alike_of_find? (honto _ hnodup) (honto _ (Json.distinct_obj.1 hfields).1) fun k => ?_
  rw [find?_onto, find?_onto, find?_sorted]
  cases Assoc.find? (fieldsOf v) k with
  | none => rfl
  | some w =>
    rw [Option.map_some]
    split_ifs
    · rfl
    · rfl
    · rfl
    · exact congrArg some (Json.sortKeys_sortKeys w)

theorem perm_qualified {kind : Kind} (h : (Json.obj es).Alike (.obj es')) (hes : (Json.obj es).Distinct)
    (hes' : (Json.obj es').Distinct) : (Json.sortKeysFields (es.map (qualified kind))).Perm
      (Json.sortKeysFields (es'.map (qualified kind))) := by
  have hmap : ∀ xs : Fields, (Json.obj xs).Distinct → Json.sortKeysFields (xs.map (qualified kind)) =
      (Json.sortKeysFields xs).map fun e => (kind.qualify e.1, (qualified kind e).2.sortKeys) := by
    intro xs hxs
    rw [Json.sortKeysFields_eq_map, Json.sortKeysFields_eq_map, List.map_map, List.map_map]
    refine List.map_congr_left fun e he => ?_
    dsimp only [Function.comp_apply]
    rw [sortKeys_qualified ((Json.distinct_obj.1 hxs).2 e he)]
    rfl
  rw [hmap es hes, hmap es' hes']
  exact h.perm.map _

theorem sortKeysFields_append (xs ys : Fields) :
    Json.sortKeysFields (xs ++ ys) = Json.sortKeysFields xs ++ Json.sortKeysFields ys := by
  rw [Json.sortKeysFields_eq_map, Json.sortKeysFields_eq_map, Json.sortKeysFields_eq_map, List.map_append]

/-- Documents that are alike and have no collisions are compiled to alike documents. -/
theorem makes_alike (halike : (Json.obj document).Alike (.obj document'))
    (hdistinct : (Json.obj document).Distinct) (hdistinct' : (Json.obj document').Distinct)
    (hmakes : Makes document d es fa) (hmakes' : Makes document' d' es' fa')
    (hcheck : check (.obj d) .qualified = .ok ()) (hcheck' : check (.obj d') .qualified = .ok ())
    (hcollisions : (collisionsOf d).map Json.sortKeys = (collisionsOf d').map Json.sortKeys)
    (hnames : ((definitions document).map (·.name)).Nodup)
    (hnames' : ((definitions document').map (·.name)).Nodup)
    (honce : Once d) (honce' : Once d') : (Json.obj d).Alike (.obj d') := by
  obtain ⟨hes, hfa, hmerged⟩ := hmakes.lossless hnames
  obtain ⟨hes', hfa', hmerged'⟩ := hmakes'.lossless hnames'
  have hextractors : (Json.sortKeysFields es).Perm (Json.sortKeysFields es') := by
    rw [hes, hes']
    exact perm_qualified (entriesIn_alike halike _ _) (once_entries hdistinct _ _)
      (once_entries hdistinct' _ _)
  have hfactors : (Json.sortKeysFields fa).Perm (Json.sortKeysFields fa') := by
    rw [hfa, hfa']
    exact perm_qualified (entriesIn_alike halike _ _) (once_entries hdistinct _ _)
      (once_entries hdistinct' _ _)
  have hprocesses : (Json.obj (mergedProcesses document es fa)).Alike
      (.obj (mergedProcesses document' es' fa')) := by
    refine Json.alike_of_perm ?_ ?_
    · exact nodup_mergeFields fa (nodup_mergeFields es
        (Json.distinct_obj.1 (once_entries hdistinct "execution" "processes")).1)
    · rw [hmerged, hmerged', sortKeysFields_append, sortKeysFields_append, sortKeysFields_append,
        sortKeysFields_append]
      exact ((entriesIn_alike halike "execution" "processes").perm.append hextractors).append hfactors
  -- The plans have the same definitions, hence the same prerequisites.
  obtain ⟨p, awaited, hconsists, hawaited, hpart⟩ := plan_of_makes hmakes hcheck hdistinct
  obtain ⟨p', awaited', hconsists', hawaited', hpart'⟩ := plan_of_makes hmakes' hcheck' hdistinct'
  have hdefinitions : ∀ x, x ∈ processesIn d ↔ x ∈ processesIn d' := by
    intro x
    have hentries : entriesIn d "execution" "processes" = mergedProcesses document es fa := by
      rw [entriesIn, hmakes.holds.processes]
      rfl
    have hentries' : entriesIn d' "execution" "processes" = mergedProcesses document' es' fa' := by
      rw [entriesIn, hmakes'.holds.processes]
      rfl
    have hsorted : processesIn (sorted d) = processesIn (sorted d') := by
      unfold processesIn
      rw [entriesIn_sorted, entriesIn_sorted, hentries, hentries', alike_iff.1 hprocesses]
    rw [← mem_processesIn_sorted, hsorted, mem_processesIn_sorted]
  have hsame : awaited = awaited' := by
    have := (hconsists.alike (hconsists'.of_mem fun x => (hdefinitions x).symm)).allPrerequisites
    rw [hawaited, hawaited'] at this
    exact Except.ok.inj this
  have hopen : ∀ o ∈ ["extraction", "inference", "execution"], IsOpen d o := by
    simpa using ⟨hmakes.holds.extraction, hmakes.holds.inference, hmakes.holds.execution⟩
  have hopen' : ∀ o ∈ ["extraction", "inference", "execution"], IsOpen d' o := by
    simpa using ⟨hmakes'.holds.extraction, hmakes'.holds.inference, hmakes'.holds.execution⟩
  refine alike_of_parts honce honce' hopen hopen' (fun o _ i => ?_) fun o ho => ?_
  · by_cases hwritten : (o, i) ∈ writtenParts
    · simp only [writtenParts, List.mem_cons, List.not_mem_nil, or_false, Prod.mk.injEq] at hwritten
      obtain ⟨rfl, rfl⟩ | ⟨rfl, rfl⟩ | ⟨rfl, rfl⟩ | ⟨rfl, rfl⟩ | ⟨rfl, rfl⟩ := hwritten
      · rw [hmakes.holds.extractors, hmakes'.holds.extractors]
        exact congrArg some (Json.alike_of_perm hmakes.extractors.once hextractors)
      · rw [hmakes.holds.factors, hmakes'.holds.factors]
        exact congrArg some (Json.alike_of_perm hmakes.factors.once hfactors)
      · rw [hmakes.holds.processes, hmakes'.holds.processes]
        exact congrArg some hprocesses
      · exact hcollisions
      · rw [hpart, hpart', hsame]
    · rw [hmakes.changes.part _ _ hwritten, hmakes'.changes.part _ _ hwritten, part?_alike halike]
  · have hwritten : o ∉ writtenParts.map (·.1) := by
      simpa [writtenParts] using ho
    rw [hmakes.changes.outside _ hwritten, hmakes'.changes.outside _ hwritten, halike.find?]

end FlowPlan.Document

import FlowPlan.Proofs.Plan.Generation

/-!
# Names that are repeated

The definition of a process may name a dependency or a relation more than once, and a qualified document with
such a definition is accepted. What a process waits for is a set and does not show it. The index of relations
and the graph do: the index lists a process as a consumer as often as it names the relation, and the graph has
an edge for each name.

## Main statements

* `Plan.writers_increasing` — the producers of a relation are listed once.
* `Plan.readers_increasing_iff` — when its consumers are.
* `Generator.edges_nodup_iff` — when no edge is repeated.
* `Plan.listed_once_iff` — what the index and the graph of a qualified document repeat.
-/

namespace FlowPlan

open Document Generator

variable {p : Plan} {ds : List Definition}

namespace Plan

/-! ## Processes of a relation -/

theorem increasing_sorted (h : p.Consists ds) : (p.sorted.map (·.name)).Pairwise (Text.lt · · = true) :=
  Text.increasing_sortOn h.nodup

/-- A process writes one relation, so that it is listed once. -/
theorem writers_increasing (h : p.Consists ds) (r : String) :
    (p.writers r).Pairwise (Text.lt · · = true) :=
  (increasing_sorted h).sublist (List.filter_sublist.map _)

/-- The processes that read a relation are in order, by any order of names that is fine with a name being
repeated as often as a process repeats the relation. -/
theorem readers_pairwise_iff (h : p.Consists ds) {R : String → String → Prop}
    (hR : ∀ a b, Text.lt a b = true → R a b) (r : String) :
    (p.readers r).Pairwise R ↔ ∀ d ∈ ds, d.inputs.count r ≤ 1 ∨ R d.name d.name := by
  have hnames : ∀ {d : Definition} {n : Node}, d.Says n →
      ((n.inputs.filter (· = .str r)).map fun _ => n.name) = List.replicate (d.inputs.count r) d.name := by
    intro d n hnode
    rw [List.map_const', hnode.name, hnode.inputs, List.filter_map, List.length_map, List.count_eq_length_filter]
    simp [Function.comp_def, Bool.beq_eq_decide_eq]
  rw [readers, readersIn, List.pairwise_flatMap]
  have hacross : p.sorted.Pairwise fun n m => ∀ a ∈ (n.inputs.filter (· = .str r)).map fun _ => n.name,
      ∀ b ∈ (m.inputs.filter (· = .str r)).map fun _ => m.name, R a b := by
    refine (List.pairwise_map.1 (increasing_sorted h)).imp fun hlt a ha b hb => ?_
    obtain ⟨-, -, rfl⟩ := List.mem_map.1 ha
    obtain ⟨-, -, rfl⟩ := List.mem_map.1 hb
    exact hR _ _ hlt
  rw [and_iff_left hacross]
  constructor
  · intro hwithin d hd
    obtain ⟨n, hn, hnode⟩ := h.node d hd
    have := hwithin n (mem_sorted.2 hn)
    rwa [hnames hnode, List.pairwise_replicate] at this
  · intro hwithin n hn
    obtain ⟨d, hd, hnode⟩ := h.definition n (mem_sorted.1 hn)
    rw [hnames hnode, List.pairwise_replicate]
    exact hwithin d hd

/-- The processes that read a relation are in the order of their names. -/
theorem readers_ordered (h : p.Consists ds) (r : String) : (p.readers r).Pairwise (Text.le · · = true) :=
  (readers_pairwise_iff h (fun _ _ => Text.le_of_lt) r).2 fun d _ => .inr (Text.le_refl d.name)

/-- They are listed once exactly if none of them names the relation twice. -/
theorem readers_increasing_iff (h : p.Consists ds) (r : String) :
    (p.readers r).Pairwise (Text.lt · · = true) ↔ ∀ d ∈ ds, d.inputs.count r ≤ 1 := by
  rw [readers_pairwise_iff h (fun _ _ => id)]
  simp [Text.lt_irrefl]

/-! ## The index -/

/-- The keys of the table are texts, and none is listed twice. -/
def Indexed (t : Table Usage) : Prop := t.Texts ∧ (t.map (·.1)).Nodup

theorem Indexed.upsert {t : Table Usage} (h : Indexed t) (k : String) (start : Usage)
    (change : Usage → Usage) : Indexed (t.upsert (.str k) start change) :=
  ⟨h.1.upsert k start change, Table.once_upsert h.1 h.2 k start change⟩

/-- Entering a process lists no relation twice. -/
theorem addUsage_indexed {d : Definition} {n : Node} (hnode : d.Says n) {t : Table Usage} (h : Indexed t) :
    ∃ t', addUsage t n = .ok t' ∧ Indexed t' := by
  have hinputs : ∀ t : Table Usage, Indexed t → ∃ t', n.inputs.foldlM (fun t relation =>
      Table.upsertKey t relation ⟨[], []⟩ fun u => { u with consumers := u.consumers ++ [n.name] }) t =
        .ok t' ∧ Indexed t' := by
    intro t ht
    refine Attempt.foldlM_along (P := fun _ t => Indexed t) ht fun done t₁ ht₁ v hv => ?_
    rw [hnode.inputs] at hv
    obtain ⟨w, -, rfl⟩ := List.mem_map.1 hv
    exact ⟨_, rfl, ht₁.upsert w _ _⟩
  unfold addUsage
  cases hout : n.output with
  | none => exact hinputs t h
  | some v =>
    obtain ⟨w, rfl⟩ := written_of_node hnode v hout
    exact hinputs _ (h.upsert w _ _)

/-- The index lists each relation once, in the order of the relations. -/
theorem relations_increasing (h : p.Consists ds) : ∃ t, p.relations = .ok t ∧ Indexed t ∧
    (t.map (·.1.keyText)).Pairwise (Text.lt · · = true) := by
  obtain ⟨t, hrun, ht, honce⟩ : ∃ t, p.sorted.foldlM addUsage [] = .ok t ∧ Indexed t := by
    refine Attempt.foldlM_along (P := fun _ t => Indexed t) ⟨by simp [Table.Texts], .nil⟩ fun done t ht n hn => ?_
    obtain ⟨d, -, hnode⟩ := h.definition n (mem_sorted.1 hn)
    exact addUsage_indexed hnode ht
  have hkeys : (t.map (·.1.keyText)).Nodup := by
    refine List.pairwise_map.2 ((List.pairwise_map.1 honce).imp_of_mem fun {a b} ha hb hne heq => hne ?_)
    rw [ht.key a ha, ht.key b hb, heq]
  refine ⟨Text.sortOn (·.1.keyText) t, ?_, ⟨fun e he => ht e (Text.mem_sortOn.1 he), ?_⟩,
    Text.increasing_sortOn hkeys⟩
  · unfold relations
    rw [hrun, Attempt.ok_bind]
    exact Json.sortOnValue_texts ht.key
  · exact ((Text.sortOn_perm _ t).map _).nodup_iff.2 honce

/-- An entry of the index tells who writes its relation and who reads it. -/
theorem relations_entries (h : p.Consists ds) : ∃ t, p.relations = .ok t ∧
    (t.map (·.1.keyText)).Pairwise (Text.lt · · = true) ∧
    ∀ e ∈ t, ∃ r, e = (.str r, ⟨p.writers r, p.readers r⟩) := by
  obtain ⟨t, hrun, -, husage⟩ := relations_run h
  obtain ⟨t', hrun', ⟨ht, honce⟩, hincreasing⟩ := relations_increasing h
  obtain rfl : t' = t := Except.ok.inj (hrun'.symm.trans hrun)
  refine ⟨t', hrun, hincreasing, fun ⟨v, u⟩ he => ?_⟩
  obtain ⟨r, rfl⟩ : ∃ r, v = .str r := ht _ he
  have hfind : t'.find? (.str r) = some u := Table.find?_of_mem ht honce he
  refine ⟨r, ?_⟩
  rw [← husage r, usageOf, hfind]
  rfl

end Plan

/-! ## Edges -/

namespace Generator

variable {n m : Node} {e : Json}

theorem edge_injective (target : Json) (kind : String) : Function.Injective (edge · target kind) := by
  intro a b hab
  simpa [edge] using hab

/-- The edges that meet a process are different if its names are. -/
theorem edgesOf_nodup_iff : (edgesOf n).Nodup ↔ n.dependencies.Nodup ∧ n.inputs.Nodup := by
  have houtput : (n.output.toList.map (edge (.str n.name) · "output")).Nodup := by
    cases n.output <;> simp
  have hkinds : ∀ a ∈ n.dependencies.map (edge · (.str n.name) "dependency"),
      ∀ b ∈ n.inputs.map (edge · (.str n.name) "input"), a ≠ b := by
    simp [edge]
  have hkinds' : ∀ a ∈ n.dependencies.map (edge · (.str n.name) "dependency") ++
      n.inputs.map (edge · (.str n.name) "input"),
      ∀ b ∈ n.output.toList.map (edge (.str n.name) · "output"), a ≠ b := by
    simp only [List.mem_append, List.mem_map]
    rintro _ (⟨a, -, rfl⟩ | ⟨a, -, rfl⟩) _ ⟨b, -, rfl⟩ <;> simp [edge]
  rw [edgesOf, List.nodup_append, List.nodup_append, List.nodup_map_iff (edge_injective _ _),
    List.nodup_map_iff (edge_injective _ _)]
  exact ⟨fun h => ⟨h.1.1, h.1.2.1⟩, fun h => ⟨⟨h.1, h.2, hkinds⟩, houtput, hkinds'⟩⟩

/-- An edge meets one process as its source or its target. -/
theorem name_eq_of_mem_edgesOf (hn : e ∈ edgesOf n) (hm : e ∈ edgesOf m) : n.name = m.name := by
  simp only [edgesOf, List.mem_append, List.mem_map] at hn
  rcases hn with (⟨v, -, rfl⟩ | ⟨v, -, rfl⟩) | ⟨v, -, rfl⟩
  · exact Json.str_injective (dependency_mem_edgesOf.1 hm).2
  · exact Json.str_injective (input_mem_edgesOf.1 hm).2
  · exact Json.str_injective (output_mem_edgesOf.1 hm).2

/-- No edge is repeated exactly if no definition repeats a dependency or a relation that it reads. -/
theorem edges_nodup_iff (h : p.Consists ds) : (p.sorted.flatMap edgesOf).Nodup ↔
    ∀ d ∈ ds, d.dependencies.Nodup ∧ d.inputs.Nodup := by
  have hnames : ∀ {d : Definition} {n : Node}, d.Says n →
      ((edgesOf n).Nodup ↔ d.dependencies.Nodup ∧ d.inputs.Nodup) := by
    intro d n hnode
    rw [edgesOf_nodup_iff, hnode.dependencies, hnode.inputs, List.nodup_map_iff fun _ _ => Json.str_injective,
      List.nodup_map_iff fun _ _ => Json.str_injective]
  have hacross : p.sorted.Pairwise (Function.onFun List.Disjoint edgesOf) := by
    refine (List.pairwise_map.1 (Plan.nodup_sorted h)).imp fun hne e hn hm => ?_
    exact hne (name_eq_of_mem_edgesOf hn hm)
  rw [List.nodup_flatMap, and_iff_left hacross]
  constructor
  · intro hwithin d hd
    obtain ⟨n, hn, hnode⟩ := h.node d hd
    exact (hnames hnode).1 (hwithin n (Plan.mem_sorted.2 hn))
  · intro hwithin n hn
    obtain ⟨d, hd, hnode⟩ := h.definition n (Plan.mem_sorted.1 hn)
    exact (hnames hnode).2 (hwithin d hd)

end Generator

/-! ## The views of a qualified document -/

namespace Plan

variable {document : Fields}

/-- A qualified document has an index of relations and a graph. The index lists each relation once and the
processes that write it once. The processes that read it are in order, each as often as it names the relation,
so that they are listed once exactly if none names it twice. No edge is repeated exactly if no process repeats a
dependency or a relation that it reads. -/
theorem listed_once_iff (hcheck : check (.obj document) .qualified = .ok ())
    (honce : (Assoc.keys (entriesIn document "execution" "processes")).Nodup) :
    ∃ p usages nodes edges, ofDocument (.obj document) = .ok p ∧ p.relations = .ok usages ∧
      dataflowFragment (.obj document) = .ok (.obj [("nodes", nodes), ("edges", .arr edges)]) ∧
      (usages.map (·.1.keyText)).Pairwise (Text.lt · · = true) ∧
      (∀ e ∈ usages, ∃ r, e.1 = .str r ∧ e.2.producers.Pairwise (Text.lt · · = true) ∧
        e.2.consumers.Pairwise (Text.le · · = true) ∧
        (e.2.consumers.Pairwise (Text.lt · · = true) ↔ ∀ d ∈ processesIn document, d.inputs.count r ≤ 1)) ∧
      (edges.Nodup ↔ ∀ d ∈ processesIn document, d.dependencies.Nodup ∧ d.inputs.Nodup) := by
  obtain ⟨p, hplan, h, hkinds, hkinded⟩ := plan_of_qualified hcheck honce
  obtain ⟨usages, husages, hincreasing, hentries⟩ := relations_entries h
  obtain ⟨nodes, hfragment, -⟩ := dataflowFragment_run hplan h hkinds hkinded
  refine ⟨p, usages, _, _, hplan, husages, hfragment, hincreasing, fun e he => ?_, edges_nodup_iff h⟩
  obtain ⟨r, rfl⟩ := hentries e he
  exact ⟨r, rfl, writers_increasing h r, readers_ordered h r, readers_increasing_iff h r⟩

/-- A process that reads a relation twice is accepted, and is listed twice. -/
theorem listed_once_iff_twice :
    let document : Fields := [("extraction", .obj [("extractors", .obj [])]),
      ("inference", .obj [("factors", .obj [])]),
      ("execution", .obj [("processes", .obj
        [("process/a", .obj [("input_", .arr [.str "data/x", .str "data/x"])])])])]
    check (.obj document) .qualified = .ok () ∧
      (Assoc.keys (entriesIn document "execution" "processes")).Nodup ∧
      ∃ p usages nodes edges, ofDocument (.obj document) = .ok p ∧ p.relations = .ok usages ∧
        usages = [(.str "data/x", ⟨[], ["process/a", "process/a"]⟩)] ∧
        dataflowFragment (.obj document) = .ok (.obj [("nodes", nodes), ("edges", .arr edges)]) ∧
        ¬ edges.Nodup := by
  intro document
  have hcheck : check (.obj document) .qualified = .ok () := by rfl
  have honce : (Assoc.keys (entriesIn document "execution" "processes")).Nodup := by decide
  obtain ⟨p, usages, nodes, edges, hplan, husages, hfragment, -, -, hedges⟩ := listed_once_iff hcheck honce
  refine ⟨hcheck, honce, p, usages, nodes, edges, hplan, husages, ?_, hfragment, ?_⟩
  · have hnode : ofDocument (.obj document) =
        .ok ⟨[⟨"process/a", [], [.str "data/x", .str "data/x"], none, []⟩]⟩ := by rfl
    obtain rfl := Except.ok.inj (hplan.symm.trans hnode)
    refine Except.ok.inj (husages.symm.trans ?_)
    rw [relations, sorted, Text.sortOn, List.mergeSort_singleton]
    change Json.sortOnValue (·.1) [(Json.str "data/x", Usage.mk [] ["process/a", "process/a"])] = _
    rw [Json.sortOnValue, List.mergeSort_singleton]
    rfl
  · rw [hedges]
    decide

end Plan

end FlowPlan

import FlowPlan.Proofs.Document.Definition
import FlowPlan.Plan.Order

/-!
# Plans of definitions

A plan that has been made from definitions speaks of names only. Who writes a relation and what a
process waits for can be told from the definitions.

## Main definitions

* `Plan.Consists` — the processes of a plan are those of the definitions.
* `Definition.Upstream` — one name waits for another one.

## Main statements

* `Plan.producers_run` — who writes what.
* `Plan.allPrerequisites_run` — who waits for whom.
-/

namespace FlowPlan

/-- The definition of the first name waits for the second name: it depends on it, or it reads what the
second one writes. What it writes itself it does not wait for. -/
def Definition.Upstream (ds : List Definition) (a b : String) : Prop :=
  ∃ d ∈ ds, d.name = a ∧ (b ∈ d.dependencies ∨
    ∃ r ∈ d.inputs, ∃ d' ∈ ds, d'.output = some r ∧ d'.name = b ∧ b ≠ a)

namespace Graph

/-- A waiting relation with those that are waited for as values. -/
def values (g : Graph) : List (String × List Json) := g.map fun e => (e.1, e.2.map .str)

theorem keys_values (g : Graph) : g.values.map (·.1) = Assoc.keys g := by
  rw [values, List.map_map]
  rfl

end Graph

namespace Plan

/-- The processes of the plan are those of the definitions, each with a name of its own. -/
structure Consists (p : Plan) (ds : List Definition) : Prop where
  definition : ∀ n ∈ p.nodes, ∃ d ∈ ds, d.Says n
  node : ∀ d ∈ ds, ∃ n ∈ p.nodes, d.Says n
  nodup : (p.nodes.map (·.name)).Nodup

variable {p : Plan} {ds : List Definition}

theorem mem_sorted {n : Node} : n ∈ p.sorted ↔ n ∈ p.nodes := Text.mem_sortOn

theorem contains_iff {name : String} : p.contains name = true ↔ ∃ n ∈ p.nodes, n.name = name := by
  simp [contains]

theorem Consists.contains (h : p.Consists ds) {name : String} :
    p.contains name = true ↔ ∃ d ∈ ds, d.name = name := by
  rw [contains_iff]
  constructor
  · rintro ⟨n, hn, rfl⟩
    obtain ⟨d, hd, hnode⟩ := h.definition n hn
    exact ⟨d, hd, hnode.name.symm⟩
  · rintro ⟨d, hd, rfl⟩
    obtain ⟨n, hn, hnode⟩ := h.node d hd
    exact ⟨n, hn, hnode.name⟩

theorem nodup_sorted (h : p.Consists ds) : (p.sorted.map (·.name)).Nodup :=
  ((Text.sortOn_perm _ p.nodes).map _).nodup_iff.2 h.nodup

/-- A name belongs to one process only. -/
theorem Consists.eq_of_name (h : p.Consists ds) {n n' : Node} (hn : n ∈ p.nodes) (hn' : n' ∈ p.nodes)
    (hname : n.name = n'.name) : n = n' := by
  have hpairs : ((p.nodes.map fun n => (n.name, n)).map (·.1)).Nodup := by
    rw [List.map_map]
    exact h.nodup
  have := Assoc.eq_of_key hpairs (List.mem_map_of_mem hn) (List.mem_map_of_mem hn') hname
  exact congrArg Prod.snd this

theorem says_unique {d d' : Definition} {n : Node} (h : d.Says n) (h' : d'.Says n) : d = d' := by
  obtain ⟨name, dependencies, inputs, output⟩ := d
  obtain ⟨name', dependencies', inputs', output'⟩ := d'
  have hname : name = name' := h.name.symm.trans h'.name
  have hdependencies : dependencies = dependencies' :=
    Json.texts_injective (h.dependencies.symm.trans h'.dependencies)
  have hinputs : inputs = inputs' := Json.texts_injective (h.inputs.symm.trans h'.inputs)
  have houtput : output = output' := by
    have hmap : output.map Json.str = output'.map Json.str := h.output.symm.trans h'.output
    cases output <;> cases output' <;> simp_all
  rw [hname, hdependencies, hinputs, houtput]

/-- A name belongs to one definition only. -/
theorem Consists.definition_of_name (h : p.Consists ds) {d d' : Definition} (hd : d ∈ ds)
    (hd' : d' ∈ ds) (hname : d.name = d'.name) : d = d' := by
  obtain ⟨n, hn, hnode⟩ := h.node d hd
  obtain ⟨n', hn', hnode'⟩ := h.node d' hd'
  obtain rfl : n = n' := h.eq_of_name hn hn' (hnode.name.trans (hname.trans hnode'.name.symm))
  exact says_unique hnode hnode'

/-! ## Producers -/

/-- The relation that a process writes is a text, if there is one. -/
def Written (n : Node) : Prop := ∀ v, n.output = some v → ∃ r, v = .str r

theorem written_of_node {d : Definition} {n : Node} (h : d.Says n) : Written n := by
  intro v hv
  rw [h.output] at hv
  obtain ⟨r, -, rfl⟩ := Option.map_eq_some_iff.1 hv
  exact ⟨r, rfl⟩

theorem output_of_node {d : Definition} {n : Node} (h : d.Says n) {r : String} :
    n.output = some (.str r) ↔ d.output = some r := by
  rw [h.output]
  simp

/-- What a process reads can be told from its definition, and what it writes. -/
theorem Consists.reads (h : p.Consists ds) {name r : String} :
    (∃ d ∈ ds, d.name = name ∧ r ∈ d.inputs) ↔ ∃ n ∈ p.nodes, n.name = name ∧ .str r ∈ n.inputs := by
  constructor
  · rintro ⟨d, hd, rfl, hr⟩
    obtain ⟨n, hn, hnode⟩ := h.node d hd
    exact ⟨n, hn, hnode.name, hnode.inputs ▸ List.mem_map_of_mem hr⟩
  · rintro ⟨n, hn, rfl, hr⟩
    obtain ⟨d, hd, hnode⟩ := h.definition n hn
    rw [hnode.inputs, Json.mem_map_str] at hr
    exact ⟨d, hd, hnode.name.symm, hr⟩

theorem Consists.writes (h : p.Consists ds) {r : String} :
    (∃ d ∈ ds, d.output = some r) ↔ ∃ n ∈ p.nodes, n.output = some (.str r) := by
  constructor
  · rintro ⟨d, hd, hr⟩
    obtain ⟨n, hn, hnode⟩ := h.node d hd
    exact ⟨n, hn, (output_of_node hnode).2 hr⟩
  · rintro ⟨n, hn, hr⟩
    obtain ⟨d, hd, hnode⟩ := h.definition n hn
    exact ⟨d, hd, (output_of_node hnode).1 hr⟩

/-- The names of the processes that write a relation. -/
def writersIn (ns : List Node) (relation : String) : List String :=
  (ns.filter (·.output = some (.str relation))).map (·.name)

/-- The processes of a plan that write a relation, in the order of their names. -/
def writers (p : Plan) (relation : String) : List String := writersIn p.sorted relation

theorem mem_writers (h : p.Consists ds) {r b : String} :
    b ∈ p.writers r ↔ ∃ d ∈ ds, d.output = some r ∧ d.name = b := by
  simp only [writers, writersIn, List.mem_map, List.mem_filter, decide_eq_true_eq, mem_sorted]
  constructor
  · rintro ⟨n, ⟨hn, hout⟩, rfl⟩
    obtain ⟨d, hd, hnode⟩ := h.definition n hn
    exact ⟨d, hd, (output_of_node hnode).1 hout, hnode.name.symm⟩
  · rintro ⟨d, hd, hout, rfl⟩
    obtain ⟨n, hn, hnode⟩ := h.node d hd
    exact ⟨n, ⟨hn, (output_of_node hnode).2 hout⟩, hnode.name⟩

/-- The producers of a plan are those of the definitions. -/
theorem producers_run (h : p.Consists ds) :
    ∃ t, p.producers = .ok t ∧ t.Texts ∧ (∀ r, (t.find? (.str r)).getD [] = p.writers r) ∧
      ∀ r, (t.find? (.str r)).isSome ↔ ∃ d ∈ ds, d.output = some r := by
  obtain ⟨t, hrun, ht, hnames, hsome⟩ : ∃ t, p.producers = .ok t ∧ t.Texts ∧
      (∀ r, (t.find? (.str r)).getD [] = p.writers r) ∧
      ∀ r, (t.find? (.str r)).isSome ↔ ∃ n ∈ p.sorted, n.output = some (.str r) := by
    refine Attempt.foldlM_along (P := fun (done : List Node) (t : Table (List String)) => t.Texts ∧
      (∀ r, (t.find? (.str r)).getD [] = writersIn done r) ∧
      ∀ r, (t.find? (.str r)).isSome ↔ ∃ n ∈ done, n.output = some (.str r))
      (by simp [Table.Texts, Table.find?, writersIn]) ?_
    rintro done t ⟨ht, hnames, hsome⟩ n hn
    obtain ⟨d, -, hnode⟩ := h.definition n (mem_sorted.1 hn)
    cases hout : n.output with
    | none =>
      refine ⟨t, rfl, ht, fun r => ?_, fun r => ?_⟩
      · simp [hnames, writersIn, hout]
      · simp [hsome, hout]
    | some v =>
      obtain ⟨w, rfl⟩ := written_of_node hnode v hout
      refine ⟨_, rfl, ht.upsert w [] (· ++ [n.name]), fun r => ?_, fun r => ?_⟩
      · rw [Table.find?_upsert ht, writersIn, List.filter_append, List.map_append, ← writersIn, ← hnames]
        by_cases hw : w = r
        · subst hw
          simp [hout]
        · simp [hout, hw]
      · rw [Table.find?_upsert ht]
        by_cases hw : w = r <;> simp [hw, hsome, hout]
  refine ⟨t, hrun, ht, hnames, fun r => ?_⟩
  rw [hsome, h.writes]
  simp only [mem_sorted]

/-! ## Waiting -/

/-- Lists of names that are gathered one after another. -/
theorem mapM_flatten {α : Type} {xs : List α} {f : α → Attempt (List Json)} {P : α → String → Prop}
    (h : ∀ x ∈ xs, ∃ ms : List String, f x = .ok (ms.map .str) ∧ ∀ b, b ∈ ms ↔ P x b) :
    ∃ ys, ∃ ms : List String, xs.mapM f = .ok ys ∧ ys.flatten = ms.map .str ∧
      ∀ b, b ∈ ms ↔ ∃ x ∈ xs, P x b := by
  induction xs with
  | nil => exact ⟨[], [], rfl, rfl, by simp⟩
  | cons x xs ih =>
    obtain ⟨ms, hx, hmem⟩ := h x List.mem_cons_self
    obtain ⟨ys, ks, hxs, hflatten, hks⟩ := ih fun y hy => h y (List.mem_cons_of_mem x hy)
    refine ⟨ms.map .str :: ys, ms ++ ks, ?_, ?_, fun b => ?_⟩
    · rw [List.mapM_cons, hx, Attempt.ok_bind, hxs, Attempt.ok_bind]
      rfl
    · rw [List.flatten_cons, hflatten, List.map_append]
    · rw [List.mem_append, hmem, hks]
      simp

/-- What a process waits for, by its definition. -/
theorem prerequisitesWith_run (h : p.Consists ds) {t : Table (List String)}
    (hproducers : ∀ r, (t.find? (.str r)).getD [] = p.writers r) {n : Node} (hn : n ∈ p.nodes) :
    ∃ ms : List String, prerequisitesWith (producersIn t) n = .ok (ms.map .str) ∧
      ms.Pairwise (Text.lt · · = true) ∧ ∀ b, b ∈ ms ↔ Definition.Upstream ds n.name b := by
  obtain ⟨d, hd, hnode⟩ := h.definition n hn
  obtain ⟨ks, hks, hkmem, honce⟩ := Json.distinct_texts d.dependencies
  have hwriters : ∀ v ∈ n.inputs, ∃ ms : List String,
      (do Json.distinct ((← producersIn t v).filter fun w => !Json.same w (.str n.name))) =
        .ok (ms.map .str) ∧
      ∀ b, b ∈ ms ↔ ∃ r, v = .str r ∧ ∃ d' ∈ ds, d'.output = some r ∧ d'.name = b ∧ b ≠ n.name := by
    intro v hv
    rw [hnode.inputs] at hv
    obtain ⟨r, -, rfl⟩ := List.mem_map.1 hv
    have hfilter : (((t.find? (.str r)).getD []).map Json.str).filter
        (fun w => !Json.same w (.str n.name)) =
        (((t.find? (.str r)).getD []).filter (· ≠ n.name)).map .str := by
      rw [List.filter_map]
      congr 1
      refine List.filter_congr fun b _ => ?_
      have hsame : Json.same (.str b) (.str n.name) = decide (b = n.name) := by
        simp [Json.same, Bool.beq_eq_decide_eq]
      simp [hsame]
    obtain ⟨ms, hms, hmem, -⟩ := Json.distinct_texts (((t.find? (.str r)).getD []).filter (· ≠ n.name))
    refine ⟨ms, ?_, fun b => ?_⟩
    · rw [producersIn, if_pos (by rfl), Attempt.ok_bind, hfilter, hms]
    · rw [hmem, List.mem_filter, hproducers, mem_writers h]
      simp only [Json.str.injEq, exists_eq_left', decide_eq_true_eq]
      constructor
      · rintro ⟨⟨d', hd', hout, hname⟩, hne⟩
        exact ⟨d', hd', hout, hname, hne⟩
      · rintro ⟨d', hd', hout, hname, hne⟩
        exact ⟨⟨d', hd', hout, hname⟩, hne⟩
  obtain ⟨ys, ws, hys, hflatten, hwmem⟩ := mapM_flatten hwriters
  obtain ⟨us, hus, humem, hunodup⟩ := Json.foldl_insertDistinct ks ws
  refine ⟨Text.sort us, ?_, Text.increasing_sort (hunodup honce), fun b => ?_⟩
  · unfold prerequisitesWith
    rw [hnode.dependencies, hks, Attempt.ok_bind, hys, Attempt.ok_bind, hflatten, hus,
      Json.sortSet_texts]
  · rw [Text.sort, Text.mem_sortOn, humem, hkmem, hwmem, hnode.inputs, hnode.name]
    constructor
    · rintro (hdep | ⟨v, hv, r, rfl, d', hd', hout, rfl, hne⟩)
      · exact ⟨d, hd, rfl, .inl hdep⟩
      · exact ⟨d, hd, rfl, .inr ⟨r, Json.mem_map_str.1 hv, d', hd', hout, rfl, hne⟩⟩
    · rintro ⟨d₁, hd₁, hname, hwaits⟩
      obtain rfl := h.definition_of_name hd₁ hd hname
      rcases hwaits with hdep | ⟨r, hr, d', hd', hout, rfl, hne⟩
      · exact .inl hdep
      · exact .inr ⟨_, Json.mem_map_str.2 hr, r, rfl, d', hd', hout, rfl, hne⟩

/-- What every process waits for, by the definitions. -/
theorem allPrerequisites_run (h : p.Consists ds) :
    ∃ waits : Graph, p.allPrerequisites = .ok waits.values ∧
      Assoc.keys waits = p.sorted.map (·.name) ∧
      ∀ e ∈ waits, e.2.Pairwise (Text.lt · · = true) ∧ ∀ b, b ∈ e.2 ↔ Definition.Upstream ds e.1 b := by
  obtain ⟨t, hrun, -, hproducers, -⟩ := producers_run h
  have hall : ∀ n ∈ p.sorted, ∃ ms : List String,
      prerequisitesWith (producersIn t) n = .ok (ms.map .str) ∧
        ms.Pairwise (Text.lt · · = true) ∧ ∀ b, b ∈ ms ↔ Definition.Upstream ds n.name b :=
    fun n hn => prerequisitesWith_run h hproducers (mem_sorted.1 hn)
  unfold allPrerequisites
  rw [hrun, Attempt.ok_bind]
  generalize p.sorted = ns at hall
  induction ns with
  | nil => exact ⟨[], rfl, rfl, by simp⟩
  | cons n ns ih =>
    obtain ⟨ms, hms, hmem⟩ := hall n List.mem_cons_self
    obtain ⟨waits, hwaits, hnames, hupstream⟩ := ih fun m hm => hall m (List.mem_cons_of_mem n hm)
    refine ⟨(n.name, ms) :: waits, ?_, ?_, ?_⟩
    · rw [List.mapM_cons, hms, Attempt.ok_bind, Attempt.pure_eq_ok, Attempt.ok_bind, hwaits,
        Attempt.ok_bind]
      rfl
    · rw [Assoc.keys, List.map_cons, ← Assoc.keys, hnames, List.map_cons]
    · rw [List.forall_mem_cons]
      exact ⟨hmem, hupstream⟩

end Plan

end FlowPlan

import FlowPlan.Proofs.Plan.Definitions
import FlowPlan.Unit.Generators

/-!
# The views of a plan of definitions

A plan is looked at in several ways: by the producers of every relation, by its producers and consumers
together, by what every process waits for, and as a graph of processes and relations. Each view is told
here by the definitions alone.

## Main definitions

* `Plan.usageOf` — the producers and consumers that a table has for a relation.
* `Generator.HasEdge` — an edge of a fragment.

## Main statements

* `Plan.relations_run` — the producers and consumers of every relation.
* `Generator.processesFragment_run`, `Generator.dataflowFragment_run`,
  `Generator.relationsFragment_run` — the fragments.
* `Generator.hasEdge_dependency`, `Generator.hasEdge_input`, `Generator.hasEdge_output` — the edges.
-/

namespace FlowPlan

namespace Plan

variable {p : Plan} {ds : List Definition}

/-! ## Producers and consumers -/

/-- What a table says of a relation; one that it does not know has no processes. -/
def usageOf (t : Table Usage) (relation : Json) : Usage := (t.find? relation).getD ⟨[], []⟩

/-- The names of the processes that read a relation, as often as they name it. -/
def readersIn (ns : List Node) (relation : String) : List String :=
  ns.flatMap fun n => (n.inputs.filter (· = .str relation)).map fun _ => n.name

/-- The processes of a plan that read a relation, in the order of their names. -/
def readers (p : Plan) (relation : String) : List String := readersIn p.sorted relation

theorem mem_readers (h : p.Consists ds) {r b : String} :
    b ∈ p.readers r ↔ ∃ d ∈ ds, r ∈ d.inputs ∧ d.name = b := by
  simp only [readers, readersIn, List.mem_flatMap, List.mem_map, List.mem_filter, decide_eq_true_eq,
    mem_sorted]
  constructor
  · rintro ⟨n, hn, v, ⟨hv, rfl⟩, rfl⟩
    obtain ⟨d, hd, hnode⟩ := h.definition n hn
    rw [hnode.inputs, Json.mem_map_str] at hv
    exact ⟨d, hd, hv, hnode.name.symm⟩
  · rintro ⟨d, hd, hr, rfl⟩
    obtain ⟨n, hn, hnode⟩ := h.node d hd
    refine ⟨n, hn, .str r, ⟨?_, rfl⟩, hnode.name⟩
    rw [hnode.inputs]
    exact Json.mem_map_str.2 hr

theorem usageOf_upsert {t : Table Usage} (ht : t.Texts) (k r : String) (change : Usage → Usage) :
    usageOf (t.upsert (.str k) ⟨[], []⟩ change) (.str r) =
      if k = r then change (usageOf t (.str r)) else usageOf t (.str r) := by
  unfold usageOf
  rw [Table.find?_upsert ht]
  by_cases hk : k = r
  · subst hk
    simp
  · simp [hk]

/-- One process is entered with the relation that it writes and with those that it reads. -/
theorem addUsage_run {d : Definition} {n : Node} (hnode : d.Says n) {t : Table Usage} (ht : t.Texts) :
    ∃ t', addUsage t n = .ok t' ∧ t'.Texts ∧ ∀ r, usageOf t' (.str r) =
      ⟨(usageOf t (.str r)).producers ++ writersIn [n] r,
        (usageOf t (.str r)).consumers ++ readersIn [n] r⟩ := by
  have hinputs : ∀ t : Table Usage, t.Texts → ∃ t', n.inputs.foldlM (fun t relation =>
      Table.upsertKey t relation ⟨[], []⟩ fun u => { u with consumers := u.consumers ++ [n.name] }) t =
        .ok t' ∧ t'.Texts ∧ ∀ r, usageOf t' (.str r) = ⟨(usageOf t (.str r)).producers,
          (usageOf t (.str r)).consumers ++ readersIn [n] r⟩ := by
    intro t ht
    obtain ⟨t', hrun, ht', husage⟩ : ∃ t', n.inputs.foldlM (fun t relation =>
        Table.upsertKey t relation ⟨[], []⟩ fun u => { u with consumers := u.consumers ++ [n.name] }) t =
          .ok t' ∧ t'.Texts ∧ ∀ r, usageOf t' (.str r) =
            ⟨(usageOf t (.str r)).producers, (usageOf t (.str r)).consumers ++
              (n.inputs.filter (· = .str r)).map fun _ => n.name⟩ := by
      refine Attempt.foldlM_along (P := fun (done : List Json) (t' : Table Usage) => t'.Texts ∧
        ∀ r, usageOf t' (.str r) = ⟨(usageOf t (.str r)).producers, (usageOf t (.str r)).consumers ++
          (done.filter (· = .str r)).map fun _ => n.name⟩) ⟨ht, by simp⟩ ?_
      rintro done t₁ ⟨ht₁, husage⟩ v hv
      rw [hnode.inputs] at hv
      obtain ⟨w, -, rfl⟩ := List.mem_map.1 hv
      refine ⟨_, rfl, ht₁.upsert w _ _, fun r => ?_⟩
      rw [usageOf_upsert ht₁, husage]
      by_cases hw : w = r <;> simp [hw]
    exact ⟨t', hrun, ht', fun r => by simpa [readersIn] using husage r⟩
  unfold addUsage
  cases hout : n.output with
  | none =>
    obtain ⟨t', hrun, ht', husage⟩ := hinputs t ht
    exact ⟨t', hrun, ht', fun r => by simp [husage, writersIn, hout]⟩
  | some v =>
    obtain ⟨w, rfl⟩ := written_of_node hnode v hout
    obtain ⟨t', hrun, ht', husage⟩ := hinputs _ (ht.upsert w ⟨[], []⟩ fun u =>
      { u with producers := u.producers ++ [n.name] })
    refine ⟨t', hrun, ht', fun r => ?_⟩
    rw [husage, usageOf_upsert ht]
    by_cases hw : w = r <;> simp [hw, writersIn, hout]

/-- The relations of a plan have the processes that write and that read them. -/
theorem relations_run (h : p.Consists ds) :
    ∃ t, p.relations = .ok t ∧ t.Texts ∧ ∀ r, usageOf t (.str r) = ⟨p.writers r, p.readers r⟩ := by
  obtain ⟨t, hrun, ht, husage⟩ : ∃ t, p.sorted.foldlM addUsage [] = .ok t ∧ t.Texts ∧
      ∀ r, usageOf t (.str r) = ⟨p.writers r, p.readers r⟩ := by
    refine Attempt.foldlM_along (P := fun (done : List Node) (t : Table Usage) => t.Texts ∧
      ∀ r, usageOf t (.str r) = ⟨writersIn done r, readersIn done r⟩)
      ⟨by simp [Table.Texts], fun _ => rfl⟩ ?_
    rintro done t ⟨ht, husage⟩ n hn
    obtain ⟨d, -, hnode⟩ := h.definition n (mem_sorted.1 hn)
    obtain ⟨t', hrun, ht', husage'⟩ := addUsage_run hnode ht
    refine ⟨t', hrun, ht', fun r => ?_⟩
    rw [husage', husage]
    simp [writersIn, readersIn]
  refine ⟨Text.sortOn (·.1.keyText) t, ?_, fun e he => ht e (Text.mem_sortOn.1 he), fun r => ?_⟩
  · unfold relations
    rw [hrun, Attempt.ok_bind]
    exact Json.sortOnValue_texts ht.key
  · rw [usageOf, Table.find?_sortOn ht, ← husage r]
    rfl

end Plan

namespace Generator

variable {p : Plan} {ds : List Definition} {subject : Json}

theorem relationsFragment_run (hplan : Plan.ofDocument subject = .ok p) (h : p.Consists ds) :
    ∃ f fs, relationsFragment subject = .ok (.obj (f :: fs)) := by
  obtain ⟨usages, husages, -⟩ := Plan.relations_run h
  unfold relationsFragment
  rw [hplan, Attempt.ok_bind, husages, Attempt.ok_bind]
  exact ⟨_, _, rfl⟩

/-! ## What every process waits for -/

theorem kindOf_run {name : String} (h : (Kind.of? name).isSome) : ∃ v, kindOf name = .ok v := by
  unfold kindOf
  cases hkind : Kind.of? name with
  | none => simp [hkind] at h
  | some k => exact ⟨_, rfl⟩

/-- Where there is an order of execution, the run specifications tell what every process waits for. -/
theorem processesFragment_run (hplan : Plan.ofDocument subject = .ok p) (h : p.Consists ds)
    (hkinds : ∀ d ∈ ds, (Kind.of? d.name).isSome) {awaited : List (String × List Json)}
    (hawaited : p.allPrerequisites = .ok awaited)
    (hnames : awaited.map (·.1) = p.sorted.map (·.name)) {order : List String}
    (horder : p.topologicalOrder = .ok order) :
    ∃ specs, processesFragment subject =
        .ok (.obj [("order", .arr (order.map .str)), ("processes", .obj specs)]) ∧
      (specs.mapM fun e => return (e.1, ← e.2.field "upstream")) =
        .ok (awaited.map fun e => (e.1, .arr e.2)) := by
  have hspecs : ∀ x ∈ p.sorted.zip awaited, ∃ y, runSpec x.1 x.2.2 = .ok y := by
    intro x hx
    obtain ⟨d, hd, hnode⟩ := h.definition x.1 (Plan.mem_sorted.1 (List.of_mem_zip hx).1)
    obtain ⟨kind, hkind⟩ := kindOf_run (hkinds d hd)
    unfold runSpec
    rw [hnode.name, hkind]
    exact ⟨_, rfl⟩
  obtain ⟨specs, hspecs⟩ := Attempt.mapM_isOk.2 hspecs
  refine ⟨specs, ?_, ?_⟩
  · unfold processesFragment
    rw [hplan, Attempt.ok_bind, hawaited, Attempt.ok_bind]
    refine Attempt.bind_eq_ok.2 ⟨specs, hspecs, ?_⟩
    rw [horder]
    rfl
  · have hreads : (specs.mapM fun e => return (e.1, ← e.2.field "upstream")) =
        .ok ((p.sorted.zip awaited).map fun x => (x.1.name, .arr x.2.2)) := by
      refine Attempt.mapM_of_mapM hspecs fun x _ y hy => ?_
      obtain ⟨kind, -, hy⟩ := Attempt.bind_eq_ok.1 hy
      cases hy
      rfl
    rw [hreads]
    congr 1
    have hzip : ∀ (ns : List Node) (ws : List (String × List Json)),
        ws.map (·.1) = ns.map (·.name) →
        (ns.zip ws).map (fun x => (x.1.name, Json.arr x.2.2)) = ws.map fun e => (e.1, .arr e.2) := by
      intro ns
      induction ns with
      | nil => intro ws hws; simp_all
      | cons n ns ih =>
        intro ws hws
        cases ws with
        | nil => rfl
        | cons w ws =>
          rw [List.map_cons, List.map_cons, List.cons.injEq] at hws
          rw [List.zip_cons_cons, List.map_cons, List.map_cons, ih ws hws.2, hws.1]
    exact hzip _ _ hnames

/-! ## The graph of processes and relations -/

/-- The fragment has an edge of that kind. -/
def HasEdge (fragment source target : Json) (kind : String) : Prop :=
  ∃ edges, fragment.field "edges" = .ok (.arr edges) ∧ ∃ e ∈ edges,
    e.field "from" = .ok source ∧ e.field "to" = .ok target ∧ e.field "kind" = .ok (.str kind)

/-- A node of the graph as a fragment lists it. -/
def nodeJson (x : String × Kind) : Json := .obj [("id", .str x.1), ("kind", .str x.2.name)]

/-- The nodes are names with their kinds, each listed once. -/
structure Kinds (nodes : Table Json) : Prop where
  entry : ∀ e ∈ nodes, ∃ n k, e = (.str n, .str k.name) ∧ Kind.of? n = some k
  once : (nodes.map (·.1)).Nodup

theorem Kinds.texts {nodes : Table Json} (h : Kinds nodes) : nodes.Texts := by
  intro e he
  obtain ⟨n, k, rfl, -⟩ := h.entry e he
  exact ⟨n, rfl⟩

theorem Kinds.upsert {nodes : Table Json} (h : Kinds nodes) {n : String} {k : Kind}
    (hk : Kind.of? n = some k) (change : Json → Json) (hchange : change (.str k.name) = .str k.name) :
    Kinds (nodes.upsert (.str n) (.str k.name) change) ∧
      ∀ m, Json.str m ∈ (nodes.upsert (.str n) (.str k.name) change).map (·.1) ↔
        Json.str m ∈ nodes.map (·.1) ∨ m = n := by
  refine ⟨⟨Table.forall_upsert h.entry ⟨n, k, by rw [hchange], hk⟩ ?_,
    Table.once_upsert h.texts h.once n (.str k.name) change⟩, fun m => ?_⟩
  · rintro e he hkey
    obtain ⟨n', k', rfl, hk'⟩ := h.entry e he
    obtain rfl := Json.str_injective hkey
    rw [hk] at hk'
    cases hk'
    exact ⟨n', k, by rw [hchange], hk⟩
  · rw [Table.keys_upsert h.texts n (.str k.name) change]
    split
    · rename_i hthere
      exact ⟨.inl, fun hm => hm.elim id fun heq => heq ▸ hthere⟩
    · simp

/-- A process is listed, and the relations that it mentions. -/
theorem listNode_run {d : Definition} {n : Node} (hnode : d.Says n) (hkind : (Kind.of? d.name).isSome)
    (hkinded : d.Kinded) {nodes : Table Json} (h : Kinds nodes) :
    ∃ nodes', listNode nodes n = .ok nodes' ∧ Kinds nodes' ∧
      ∀ m, Json.str m ∈ nodes'.map (·.1) ↔
        Json.str m ∈ nodes.map (·.1) ∨ m = d.name ∨ m ∈ d.inputs ∨ d.output = some m := by
  obtain ⟨k, hk⟩ := Option.isSome_iff_exists.1 hkind
  have hkindOf : kindOf n.name = .ok (.str k.name) := by
    rw [kindOf, hnode.name, hk]
  have hrelation : ∀ v ∈ n.inputs ++ n.output.toList, ∃ r, v = .str r ∧ Kind.of? r = some .data := by
    intro v hv
    rw [hnode.inputs, hnode.output] at hv
    rcases List.mem_append.1 hv with hv | hv
    · obtain ⟨r, hr, rfl⟩ := List.mem_map.1 hv
      exact ⟨r, rfl, hkinded.inputs r hr⟩
    · cases hout : d.output with
      | none => simp [hout] at hv
      | some r => exact ⟨r, by simpa [hout] using hv, hkinded.output r hout⟩
  obtain ⟨hkinds, hkeys⟩ := h.upsert (n := n.name) (by rwa [hnode.name])
    (fun _ => .str k.name) rfl
  obtain ⟨nodes', hrun, hkinds', hkeys'⟩ : ∃ nodes', (n.inputs ++ n.output.toList).foldlM listRelation
      (nodes.upsert (.str n.name) (.str k.name) fun _ => .str k.name) = .ok nodes' ∧ Kinds nodes' ∧
      ∀ m, Json.str m ∈ nodes'.map (·.1) ↔
        Json.str m ∈ (nodes.upsert (.str n.name) (.str k.name) fun _ => .str k.name).map (·.1) ∨
          Json.str m ∈ n.inputs ++ n.output.toList := by
    refine Attempt.foldlM_along (P := fun (done : List Json) (t : Table Json) => Kinds t ∧
      ∀ m, Json.str m ∈ t.map (·.1) ↔
        Json.str m ∈ (nodes.upsert (.str n.name) (.str k.name) fun _ => .str k.name).map (·.1) ∨
          Json.str m ∈ done) ⟨hkinds, by simp⟩ ?_
    rintro done t ⟨ht, hmem⟩ v hv
    obtain ⟨r, rfl, hr⟩ := hrelation v hv
    obtain ⟨ht', hmem'⟩ := ht.upsert hr id rfl
    refine ⟨_, rfl, ht', fun m => ?_⟩
    rw [hmem', hmem]
    simp [or_assoc]
  refine ⟨nodes', ?_, hkinds', fun m => ?_⟩
  · unfold listNode
    rw [hkindOf]
    exact hrun
  · rw [hkeys', hkeys, hnode.inputs, hnode.output, hnode.name]
    cases d.output <;> simp [or_assoc, eq_comm]

/-- The graph has the processes and the relations that they mention as nodes, in order and with their
kinds. -/
theorem dataflowFragment_run (hplan : Plan.ofDocument subject = .ok p) (h : p.Consists ds)
    (hkinds : ∀ d ∈ ds, (Kind.of? d.name).isSome) (hkinded : ∀ d ∈ ds, d.Kinded) :
    ∃ nodes : List (String × Kind), dataflowFragment subject =
        .ok (.obj [("nodes", .arr (nodes.map nodeJson)), ("edges", .arr (p.sorted.flatMap edgesOf))]) ∧
      (nodes.map (·.1)).Pairwise (Text.lt · · = true) ∧ (∀ x ∈ nodes, Kind.of? x.1 = some x.2) ∧
      ∀ m, m ∈ nodes.map (·.1) ↔ ∃ d ∈ ds, m = d.name ∨ m ∈ d.inputs ∨ d.output = some m := by
  obtain ⟨listed, hrun, hlisted, hmem⟩ : ∃ listed : Table Json, p.sorted.foldlM listNode [] = .ok listed ∧
      Kinds listed ∧ ∀ m, Json.str m ∈ listed.map (·.1) ↔ ∃ n ∈ p.sorted, ∃ d ∈ ds, d.Says n ∧
        (m = d.name ∨ m ∈ d.inputs ∨ d.output = some m) := by
    refine Attempt.foldlM_along (P := fun (done : List Node) (t : Table Json) => Kinds t ∧
      ∀ m, Json.str m ∈ t.map (·.1) ↔ ∃ n ∈ done, ∃ d ∈ ds, d.Says n ∧
        (m = d.name ∨ m ∈ d.inputs ∨ d.output = some m)) (b := []) ⟨⟨by simp, by simp⟩, by simp⟩ ?_
    rintro done t ⟨ht, hmem⟩ n hn
    obtain ⟨d, hd, hnode⟩ := h.definition n (Plan.mem_sorted.1 hn)
    obtain ⟨t', hstep, ht', hmem'⟩ := listNode_run hnode (hkinds d hd) (hkinded d hd) ht
    refine ⟨t', hstep, ht', fun m => ?_⟩
    rw [hmem', hmem]
    constructor
    · rintro (⟨n', hn', hd'⟩ | hm)
      · exact ⟨n', List.mem_append_left _ hn', hd'⟩
      · exact ⟨n, by simp, d, hd, hnode, hm⟩
    · rintro ⟨n', hn', d', hd', hnode', hm⟩
      rcases List.mem_append.1 hn' with hn' | hn'
      · exact .inl ⟨n', hn', d', hd', hnode', hm⟩
      · rw [List.mem_singleton] at hn'
        subst hn'
        exact .inr (Plan.says_unique hnode hnode' ▸ hm)
  have hsorted := Json.sortOnValue_texts hlisted.texts.key
  have hentry : ∀ e ∈ Text.sortOn (·.1.keyText) listed,
      Json.obj [("id", e.1), ("kind", e.2)] =
        nodeJson (e.1.keyText, (Kind.of? e.1.keyText).getD .data) ∧
      Kind.of? e.1.keyText = some ((Kind.of? e.1.keyText).getD .data) := by
    intro e he
    obtain ⟨n, k, rfl, hk⟩ := hlisted.entry e (Text.mem_sortOn.1 he)
    simp [nodeJson, Json.keyText, hk]
  refine ⟨(Text.sortOn (·.1.keyText) listed).map fun e =>
    (e.1.keyText, (Kind.of? e.1.keyText).getD .data), ?_, ?_, ?_, fun m => ?_⟩
  · unfold dataflowFragment
    rw [hplan, Attempt.ok_bind, hrun, Attempt.ok_bind, hsorted, Attempt.ok_bind, Attempt.pure_eq_ok,
      List.map_map]
    have hnodes := List.map_congr_left fun e he => (hentry e he).1
    exact congrArg (fun xs => Except.ok (Json.obj [("nodes", .arr xs), _])) hnodes
  · have honce : (listed.map (·.1.keyText)).Nodup := by
      refine List.pairwise_map.2 ((List.pairwise_map.1 hlisted.once).imp_of_mem ?_)
      intro a b ha hb hne heq
      rw [hlisted.texts.key a ha, hlisted.texts.key b hb] at hne
      exact hne (congrArg Json.str heq)
    rw [List.map_map]
    exact Text.increasing_sortOn honce
  · intro x hx
    obtain ⟨e, he, rfl⟩ := List.mem_map.1 hx
    exact (hentry e he).2
  · have hkey : m ∈ (Text.sortOn (fun e : Json × Json => e.1.keyText) listed).map (·.1.keyText) ↔
        Json.str m ∈ listed.map (·.1) := by
      simp only [List.mem_map, Text.mem_sortOn]
      constructor
      · rintro ⟨e, he, rfl⟩
        exact ⟨e, he, hlisted.texts.key e he⟩
      · rintro ⟨e, he, heq⟩
        exact ⟨e, he, by rw [heq, Json.keyText]⟩
    rw [List.map_map]
    refine hkey.trans ((hmem m).trans ⟨?_, ?_⟩)
    · rintro ⟨n, -, d, hd, -, hm⟩
      exact ⟨d, hd, hm⟩
    · rintro ⟨d, hd, hm⟩
      obtain ⟨n, hn, hnode⟩ := h.node d hd
      exact ⟨n, Plan.mem_sorted.2 hn, d, hd, hnode, hm⟩

/-! ## Edges -/

theorem hasEdge_iff {nodes s t : Json} {kind : String} :
    HasEdge (.obj [("nodes", nodes), ("edges", .arr (p.sorted.flatMap edgesOf))]) s t kind ↔
      ∃ n ∈ p.nodes, edge s t kind ∈ edgesOf n := by
  have hfield : (Json.obj [("nodes", nodes), ("edges", .arr (p.sorted.flatMap edgesOf))]).field "edges" =
      .ok (.arr (p.sorted.flatMap edgesOf)) := Json.field_obj (by simp [Assoc.find?_cons])
  have hends : ∀ a b : Json, ∀ k : String, (edge a b k).field "from" = .ok a ∧
      (edge a b k).field "to" = .ok b ∧ (edge a b k).field "kind" = .ok (.str k) :=
    fun _ _ _ => ⟨rfl, rfl, rfl⟩
  constructor
  · rintro ⟨edges, hedges, e, he, hfrom, hto, hkind⟩
    rw [hfield] at hedges
    cases hedges
    obtain ⟨n, hn, he⟩ := List.mem_flatMap.1 he
    have hedge : ∃ a b k, e = edge a b k := by
      simp only [edgesOf, List.mem_append, List.mem_map] at he
      rcases he with (⟨v, -, rfl⟩ | ⟨v, -, rfl⟩) | ⟨v, -, rfl⟩ <;> exact ⟨_, _, _, rfl⟩
    obtain ⟨a, b, k, rfl⟩ := hedge
    cases hfrom
    cases hto
    cases hkind
    exact ⟨n, Plan.mem_sorted.1 hn, he⟩
  · rintro ⟨n, hn, he⟩
    exact ⟨_, hfield, edge s t kind, List.mem_flatMap.2 ⟨n, Plan.mem_sorted.2 hn, he⟩, hends s t kind⟩

section Edges

variable {n : Node} {nodes s t : Json}

theorem dependency_mem_edgesOf :
    edge s t "dependency" ∈ edgesOf n ↔ s ∈ n.dependencies ∧ t = .str n.name := by
  simp only [edgesOf, edge]
  grind

theorem input_mem_edgesOf : edge s t "input" ∈ edgesOf n ↔ s ∈ n.inputs ∧ t = .str n.name := by
  simp only [edgesOf, edge]
  grind

theorem output_mem_edgesOf : edge s t "output" ∈ edgesOf n ↔ n.output = some t ∧ s = .str n.name := by
  simp [edgesOf, edge, eq_comm]

/-- A process depends on the names that its definition lists. -/
theorem hasEdge_dependency (h : p.Consists ds) :
    HasEdge (.obj [("nodes", nodes), ("edges", .arr (p.sorted.flatMap edgesOf))]) s t "dependency" ↔
      ∃ d ∈ ds, t = .str d.name ∧ ∃ b ∈ d.dependencies, s = .str b := by
  simp only [hasEdge_iff, dependency_mem_edgesOf]
  constructor
  · rintro ⟨n, hn, hs, rfl⟩
    obtain ⟨d, hd, hnode⟩ := h.definition n hn
    rw [hnode.dependencies] at hs
    obtain ⟨b, hb, rfl⟩ := List.mem_map.1 hs
    exact ⟨d, hd, congrArg Json.str hnode.name, b, hb, rfl⟩
  · rintro ⟨d, hd, rfl, b, hb, rfl⟩
    obtain ⟨n, hn, hnode⟩ := h.node d hd
    rw [← hnode.name]
    exact ⟨n, hn, hnode.dependencies ▸ List.mem_map_of_mem hb, rfl⟩

/-- A process reads the relations that its definition lists. -/
theorem hasEdge_input (h : p.Consists ds) :
    HasEdge (.obj [("nodes", nodes), ("edges", .arr (p.sorted.flatMap edgesOf))]) s t "input" ↔
      ∃ d ∈ ds, t = .str d.name ∧ ∃ r ∈ d.inputs, s = .str r := by
  simp only [hasEdge_iff, input_mem_edgesOf]
  constructor
  · rintro ⟨n, hn, hs, rfl⟩
    obtain ⟨d, hd, hnode⟩ := h.definition n hn
    rw [hnode.inputs] at hs
    obtain ⟨r, hr, rfl⟩ := List.mem_map.1 hs
    exact ⟨d, hd, congrArg Json.str hnode.name, r, hr, rfl⟩
  · rintro ⟨d, hd, rfl, r, hr, rfl⟩
    obtain ⟨n, hn, hnode⟩ := h.node d hd
    rw [← hnode.name]
    exact ⟨n, hn, hnode.inputs ▸ List.mem_map_of_mem hr, rfl⟩

/-- A process writes the relation that its definition gives. -/
theorem hasEdge_output (h : p.Consists ds) :
    HasEdge (.obj [("nodes", nodes), ("edges", .arr (p.sorted.flatMap edgesOf))]) s t "output" ↔
      ∃ d ∈ ds, s = .str d.name ∧ ∃ r, d.output = some r ∧ t = .str r := by
  simp only [hasEdge_iff, output_mem_edgesOf]
  constructor
  · rintro ⟨n, hn, hout, rfl⟩
    obtain ⟨d, hd, hnode⟩ := h.definition n hn
    obtain ⟨r, rfl⟩ := Plan.written_of_node hnode t hout
    exact ⟨d, hd, congrArg Json.str hnode.name, r, (Plan.output_of_node hnode).1 hout, rfl⟩
  · rintro ⟨d, hd, rfl, r, hr, rfl⟩
    obtain ⟨n, hn, hnode⟩ := h.node d hd
    rw [← hnode.name]
    exact ⟨n, hn, (Plan.output_of_node hnode).2 hr, rfl⟩

end Edges

end Generator

end FlowPlan

import FlowPlan.Proofs.Plan.Definitions
import FlowPlan.Proofs.Plan.Order

/-!
# The order of execution of a plan

The waiting relation inside a plan is that of its definitions. A plan has an order exactly if this
relation has no cycle, and the order is the smallest that respects it. A plan without an order is
refused for a name that is not defined, or with the names that reach a cycle.

## Main definitions

* `Definition.Awaits` — one name waits for another that is defined.
* `Definition.Misses` — one name depends on another that is not defined.
* `Graph.Shows` — a graph is the waiting relation of the definitions.
* `Plan.ofDefinitions` — the plan of definitions.

## Main statements

* `Plan.exists_consists_iff` — which plans are made of definitions.
* `Plan.graph_run` — the waiting relation inside a plan.
* `Plan.topologicalOrder_run`, `Plan.topologicalOrder_unknown` — the order, or why there is none.
* `Plan.topologicalOrder_iff` — when there is an order.
* `Plan.topologicalOrder_complete` — it has every process, behind what it waits for.
* `Plan.topologicalOrder_least` — it is the smallest one.
* `Plan.topologicalOrder_faults` — what is told where there is none.
-/

namespace FlowPlan

namespace Definition

variable {ds : List Definition} {a b : String}

/-- The first name waits for the second, which is defined. -/
def Awaits (ds : List Definition) (a b : String) : Prop := Upstream ds a b ∧ ∃ d ∈ ds, d.name = b

/-- The definition of the first name depends on the second, which is not defined. -/
def Misses (ds : List Definition) (a b : String) : Prop :=
  ∃ d ∈ ds, d.name = a ∧ b ∈ d.dependencies ∧ ¬ ∃ d' ∈ ds, d'.name = b

/-- Only a dependency can be undefined: whoever writes a relation is defined. -/
theorem misses_iff : Misses ds a b ↔ Upstream ds a b ∧ ¬ ∃ d ∈ ds, d.name = b := by
  constructor
  · rintro ⟨d, hd, hname, hdep, hundefined⟩
    exact ⟨⟨d, hd, hname, .inl hdep⟩, hundefined⟩
  · rintro ⟨⟨d, hd, hname, hdep | ⟨r, -, d', hd', -, hname', -⟩⟩, hundefined⟩
    · exact ⟨d, hd, hname, hdep, hundefined⟩
    · exact absurd ⟨d', hd', hname'⟩ hundefined

theorem not_misses_iff : (¬ ∃ a b, Misses ds a b) ↔
    ∀ d ∈ ds, ∀ b ∈ d.dependencies, ∃ d' ∈ ds, d'.name = b := by
  constructor
  · intro h d hd b hb
    exact Classical.byContradiction fun hundefined => h ⟨d.name, b, d, hd, rfl, hb, hundefined⟩
  · rintro h ⟨a, b, d, hd, -, hb, hundefined⟩
    exact hundefined (h d hd b hb)

theorem Upstream.defined (h : Upstream ds a b) : ∃ d ∈ ds, d.name = a := by
  obtain ⟨d, hd, hname, -⟩ := h
  exact ⟨d, hd, hname⟩

/-- Whoever is on the way of a cycle is defined. -/
theorem transGen_awaits {n : String} :
    Relation.TransGen (Awaits ds) n n ↔ Relation.TransGen (Upstream ds) n n := by
  have hdefined : ∀ {a c}, Relation.TransGen (Upstream ds) a c → (∃ d ∈ ds, d.name = c) →
      Relation.TransGen (Awaits ds) a c := by
    intro a c h
    induction h with
    | single hab => exact fun hc => .single ⟨hab, hc⟩
    | tail _ hbc ih => exact fun hc => (ih hbc.defined).tail ⟨hbc, hc⟩
  constructor
  · exact Relation.TransGen.mono (fun _ _ hab => hab.1) _ _
  · intro h
    obtain ⟨_, hup, -⟩ := Relation.TransGen.head'_iff.1 h
    exact hdefined h hup.defined

end Definition

open Definition

/-! ## The plan of definitions -/

/-- The process that a definition describes. -/
def Definition.node (d : Definition) : Node :=
  ⟨d.name, d.dependencies.map .str, d.inputs.map .str, d.output.map .str, []⟩

theorem Definition.says_node (d : Definition) : d.Says d.node := ⟨rfl, rfl, rfl, rfl⟩

namespace Plan

/-- The plan of definitions, in their order. -/
def ofDefinitions (ds : List Definition) : Plan := ⟨ds.map Definition.node⟩

/-- Definitions of different names make a plan. -/
theorem consists_ofDefinitions {ds : List Definition} (h : (ds.map (·.name)).Nodup) :
    (ofDefinitions ds).Consists ds where
  definition n hn := by
    obtain ⟨d, hd, rfl⟩ := List.mem_map.1 hn
    exact ⟨d, hd, d.says_node⟩
  node d hd := ⟨d.node, List.mem_map_of_mem hd, d.says_node⟩
  nodup := by
    rw [ofDefinitions, List.map_map]
    exact h

/-- Every plan is made of definitions whose processes have different names and name only texts. -/
theorem exists_consists_iff {p : Plan} : (∃ ds, p.Consists ds) ↔
    (p.nodes.map (·.name)).Nodup ∧ ∀ n ∈ p.nodes, ∃ d : Definition, d.Says n := by
  constructor
  · rintro ⟨ds, h⟩
    refine ⟨h.nodup, fun n hn => ?_⟩
    obtain ⟨d, -, hd⟩ := h.definition n hn
    exact ⟨d, hd⟩
  · rintro ⟨hnodup, hsays⟩
    choose d hd using hsays
    refine ⟨p.nodes.attach.map fun n => d n.1 n.2, fun n hn => ?_, fun x hx => ?_, hnodup⟩
    · exact ⟨d n hn, List.mem_map.2 ⟨⟨n, hn⟩, List.mem_attach _ _, rfl⟩, hd n hn⟩
    · obtain ⟨n, -, rfl⟩ := List.mem_map.1 hx
      exact ⟨n.1, n.2, hd n.1 n.2⟩

end Plan

/-! ## The waiting relation of the definitions -/

/-- The graph is the waiting relation of the definitions, in order. -/
structure Graph.Shows (g : Graph) (ds : List Definition) : Prop where
  increasing : (Assoc.keys g).Pairwise (Text.lt · · = true)
  each : ∀ e ∈ g, e.2.Pairwise (Text.lt · · = true)
  process : ∀ a, a ∈ Assoc.keys g ↔ ∃ d ∈ ds, d.name = a
  awaits : ∀ e ∈ g, ∀ b, b ∈ e.2 ↔ Awaits ds e.1 b

namespace Graph.Shows

variable {g : Graph} {ds : List Definition}

theorem wellFormed (h : g.Shows ds) : g.WellFormed where
  once := Text.nodup_of_increasing h.increasing
  each e he := Text.nodup_of_increasing (h.each e he)
  inside e he d hd := (h.process d).2 ((h.awaits e he d).1 hd).2

theorem waits (h : g.Shows ds) : g.Waits = Awaits ds := by
  ext a b
  constructor
  · rintro ⟨⟨e, he, rfl, hb⟩, -⟩
    exact (h.awaits e he b).1 hb
  · rintro hab
    obtain ⟨e, he, rfl⟩ := Graph.mem_keys.1 ((h.process a).2 hab.1.defined)
    exact ⟨⟨e, he, rfl, (h.awaits e he b).2 hab⟩, (h.process b).2 hab.2⟩

end Graph.Shows

namespace Plan

variable {p : Plan} {ds : List Definition} {ignoreUnknown : Bool}

/-! ## The waiting relation inside a plan -/

/-- Names outside the plan are left aside, or there are none. -/
theorem prerequisitesInside_run (ignoreUnknown : Bool) (name : String) {ms : List String}
    (hinside : ignoreUnknown = true ∨ ∀ m ∈ ms, p.contains m = true) :
    p.prerequisitesInside ignoreUnknown name (ms.map .str) = .ok (ms.filter p.contains) := by
  have hfold : ∀ (ks inside : List String),
      (ks.map Json.str).foldl (fun inside dep => inside ++ dep.str?.toList.filter p.contains) inside =
        inside ++ ks.filter p.contains := by
    intro ks
    induction ks with
    | nil => simp
    | cons k ks ih =>
      intro inside
      rw [List.map_cons, List.foldl_cons, ih, List.append_assoc]
      cases hk : p.contains k <;> simp [Json.str?, hk]
  unfold prerequisitesInside
  refine (Attempt.foldlM_eq_ok (g := fun inside dep => inside ++ dep.str?.toList.filter p.contains) []
    fun inside dep hdep => ?_).trans (congrArg Except.ok (hfold ms []))
  obtain ⟨m, hm, rfl⟩ := List.mem_map.1 hdep
  have hresolves : p.resolves (.str m) = .ok (p.contains m) := rfl
  rw [hresolves, Attempt.ok_bind]
  cases hknown : p.contains m with
  | true => simp [Json.str?, hknown]
  | false =>
    have hignore : ignoreUnknown = true := hinside.resolve_right fun h => by simp [h m hm] at hknown
    simp [Json.str?, hknown, hignore]

/-- The first name outside the plan is told. -/
theorem prerequisitesInside_unknown (name : String) {ks ms : List String} {m : String}
    (hks : ∀ k ∈ ks, p.contains k = true) (hm : p.contains m = false) :
    p.prerequisitesInside false name ((ks ++ m :: ms).map .str) =
      .error (.unknownDependency s!"Process '{name}' depends on unknown process '{m}'") := by
  have hknown := prerequisitesInside_run false name (.inr hks)
  unfold prerequisitesInside at hknown ⊢
  have hresolves : p.resolves (.str m) = .ok false := congrArg Except.ok hm
  rw [List.map_append, List.foldlM_append, hknown, Attempt.ok_bind, List.map_cons, List.foldlM_cons,
    hresolves]
  rfl

/-- Where no name is unknown, or unknown names are dropped, the waiting relation inside the plan is that
of the definitions. -/
theorem graph_run (h : p.Consists ds) : ∃ g : Graph, g.Shows ds ∧ ∀ ignoreUnknown,
    (ignoreUnknown = true ∨ ¬ ∃ a b, Misses ds a b) → p.graph ignoreUnknown = .ok g := by
  obtain ⟨waits, hwaits, hnames, hupstream⟩ := allPrerequisites_run h
  have hkeys : Assoc.keys (waits.map fun e => (e.1, e.2.filter p.contains)) = p.sorted.map (·.name) := by
    rw [← hnames, Assoc.keys, List.map_map]
    rfl
  refine ⟨waits.map fun e => (e.1, e.2.filter p.contains), ⟨?_, ?_, fun a => ?_, ?_⟩, fun ignore hinside => ?_⟩
  · rw [hkeys]
    exact Text.increasing_sortOn h.nodup
  · rw [List.forall_mem_map]
    exact fun e he => (hupstream e he).1.filter _
  · rw [hkeys, ← h.contains, contains_iff, List.mem_map]
    simp only [mem_sorted]
  · rw [List.forall_mem_map]
    intro e he b
    rw [List.mem_filter, (hupstream e he).2, h.contains, Awaits]
  · unfold graph
    rw [hwaits, Attempt.ok_bind, Graph.values, List.mapM_map]
    refine Attempt.mapM_eq_ok fun e he => ?_
    have hknown : ignore = true ∨ ∀ m ∈ e.2, p.contains m = true := by
      refine hinside.imp_right fun hnone m hm => h.contains.2 ?_
      refine Classical.byContradiction fun hundefined => hnone ⟨e.1, m, misses_iff.2 ⟨?_, hundefined⟩⟩
      exact ((hupstream e he).2 m).1 hm
    change (p.prerequisitesInside ignore e.1 (e.2.map .str) >>= fun inside => pure (e.1, inside)) = _
    rw [prerequisitesInside_run ignore e.1 hknown]
    rfl

/-- The first in a list that increases is the least. -/
theorem exists_first {α : Type} {xs : List α} (name : α → String) (P : α → Bool)
    (hxs : (xs.map name).Pairwise (Text.lt · · = true)) (h : ∃ x ∈ xs, P x = true) :
    ∃ before x after, xs = before ++ x :: after ∧ (∀ y ∈ before, P y = false) ∧ P x = true ∧
      ∀ y ∈ xs, P y = true → Text.le (name x) (name y) = true := by
  obtain ⟨x, hx⟩ := Option.isSome_iff_exists.1 (List.find?_isSome.2 h)
  obtain ⟨hPx, before, after, rfl, hbefore⟩ := List.find?_eq_some_iff_append.1 hx
  refine ⟨before, x, after, rfl, fun y hy => by simpa using hbefore y hy, hPx, fun y hy hPy => ?_⟩
  rcases List.mem_append.1 hy with hy | hy
  · simpa [hPy] using hbefore y hy
  · rcases List.mem_cons.1 hy with rfl | hy
    · exact Text.le_refl _
    · have hafter := (List.pairwise_append.1 (List.pairwise_map.1 hxs)).2.1
      exact Text.le_of_lt ((List.pairwise_cons.1 hafter).1 y hy)

/-- Where a name is unknown and none is dropped, the least process that misses one is told with the least
one that it misses. -/
theorem graph_unknown (h : p.Consists ds) (hmisses : ∃ a b, Misses ds a b) :
    ∃ a b, Misses ds a b ∧ (∀ a' b', Misses ds a' b' → Text.le a a' = true) ∧
      (∀ b', Misses ds a b' → Text.le b b' = true) ∧ p.graph false =
        .error (.unknownDependency s!"Process '{a}' depends on unknown process '{b}'") := by
  obtain ⟨waits, hwaits, hnames, hupstream⟩ := allPrerequisites_run h
  have hkeys : (waits.map (·.1)).Pairwise (Text.lt · · = true) := by
    rw [← Assoc.keys, hnames]
    exact Text.increasing_sortOn h.nodup
  have hmem : ∀ e ∈ waits, ∀ b, b ∈ e.2 ∧ (!p.contains b) = true ↔ Misses ds e.1 b := by
    intro e he b
    rw [misses_iff, (hupstream e he).2, ← h.contains]
    simp
  have hentry : ∀ {a b}, Misses ds a b → ∃ e ∈ waits, e.1 = a := by
    rintro a b ⟨d, hd, rfl, -⟩
    obtain ⟨n, hn, hsays⟩ := h.node d hd
    refine Graph.mem_keys.1 ?_
    rw [hnames, ← hsays.name]
    exact List.mem_map_of_mem (mem_sorted.2 hn)
  have hsome : ∃ e ∈ waits, e.2.any (!p.contains ·) = true := by
    obtain ⟨a, b, hab⟩ := hmisses
    obtain ⟨e, he, rfl⟩ := hentry hab
    exact ⟨e, he, List.any_eq_true.2 ⟨b, (hmem e he b).2 hab⟩⟩
  -- The first process that misses one, and the first that it misses.
  obtain ⟨before, e, after, hwhole, hbefore, hany, hleast⟩ := exists_first _ _ hkeys hsome
  have he : e ∈ waits := by simp [hwhole]
  obtain ⟨known, b, later, hnames', hknown, hb, hleast'⟩ := exists_first id _
    (by simpa using (hupstream e he).1) (List.any_eq_true.1 hany)
  refine ⟨e.1, b, (hmem e he b).1 ⟨by simp [hnames'], hb⟩, fun a' b' hab => ?_, fun b' hab => ?_, ?_⟩
  · obtain ⟨e', he', rfl⟩ := hentry hab
    exact hleast e' he' (List.any_eq_true.2 ⟨b', (hmem e' he' b').2 hab⟩)
  · obtain ⟨hb', hnot⟩ := (hmem e he b').2 hab
    exact hleast' b' hb' hnot
  · unfold graph
    rw [hwaits, Attempt.ok_bind, Graph.values, List.mapM_map, hwhole]
    refine Attempt.mapM_eq_error (fun x hx => ⟨(x.1, x.2.filter p.contains), ?_⟩) ?_
    · have hall : ∀ m ∈ x.2, p.contains m = true := by simpa using hbefore x hx
      simp [prerequisitesInside_run false x.1 (.inr hall)]
    · have hall : ∀ m ∈ known, p.contains m = true := by simpa using hknown
      simp only [Function.comp, hnames', prerequisitesInside_unknown e.1 hall (by simpa using hb),
        Attempt.error_bind]

/-! ## The order of a plan -/

/-- A plan is ordered by its waiting relation, or what has no place is told. -/
theorem topologicalOrder_run {g : Graph} (hg : p.graph ignoreUnknown = .ok g) :
    p.topologicalOrder ignoreUnknown = if g.order.length = g.length then .ok g.order
      else .error (.cycle (Text.sort ((Assoc.keys g).filter (!g.order.contains ·)))) := by
  unfold topologicalOrder
  rw [hg, Attempt.ok_bind]
  rfl

/-- Where a name is unknown and none is dropped, there is no order. -/
theorem topologicalOrder_unknown (h : p.Consists ds) (hmisses : ∃ a b, Misses ds a b) :
    ∃ a b, Misses ds a b ∧ (∀ a' b', Misses ds a' b' → Text.le a a' = true) ∧
      (∀ b', Misses ds a b' → Text.le b b' = true) ∧ p.topologicalOrder false =
        .error (.unknownDependency s!"Process '{a}' depends on unknown process '{b}'") := by
  obtain ⟨a, b, hab, ha, hb, hgraph⟩ := graph_unknown h hmisses
  refine ⟨a, b, hab, ha, hb, ?_⟩
  unfold topologicalOrder
  rw [hgraph, Attempt.error_bind]

theorem not_misses_of_order (h : p.Consists ds) {order : List String}
    (hrun : p.topologicalOrder false = .ok order) : ¬ ∃ a b, Misses ds a b := by
  intro hmisses
  obtain ⟨a, b, -, -, -, hfault⟩ := topologicalOrder_unknown h hmisses
  cases hfault.symm.trans hrun

/-- An order is that of the waiting relation, which is placed completely. -/
theorem graph_of_order (h : p.Consists ds) {order : List String}
    (hrun : p.topologicalOrder ignoreUnknown = .ok order) :
    ∃ g : Graph, g.Shows ds ∧ g.order = order ∧ g.order.length = g.length := by
  obtain ⟨g, hshows, hgraph⟩ := graph_run h
  have hknown : ignoreUnknown = true ∨ ¬ ∃ a b, Misses ds a b := by
    cases ignoreUnknown with
    | true => exact .inl rfl
    | false => exact .inr (not_misses_of_order h hrun)
  rw [topologicalOrder_run (hgraph _ hknown)] at hrun
  split at hrun
  · rename_i hfull
    exact ⟨g, hshows, Except.ok.inj hrun, hfull⟩
  · cases hrun

/-- There is an order exactly if nothing awaits itself. -/
theorem exists_order_iff (h : p.Consists ds) (hknown : ignoreUnknown = true ∨ ¬ ∃ a b, Misses ds a b) :
    (∃ order, p.topologicalOrder ignoreUnknown = .ok order) ↔
      ¬ ∃ n, Relation.TransGen (Awaits ds) n n := by
  obtain ⟨g, hshows, hgraph⟩ := graph_run h
  rw [topologicalOrder_run (hgraph _ hknown), ← hshows.waits, ← Graph.length_order_iff hshows.wellFormed]
  split <;> simp_all

/-- There is an order of execution exactly if no name waits for itself. -/
theorem topologicalOrder_iff (h : p.Consists ds) (ignoreUnknown : Bool)
    (hinside : ignoreUnknown = true ∨ ∀ d ∈ ds, ∀ b ∈ d.dependencies, ∃ d' ∈ ds, d'.name = b) :
    (∃ order, p.topologicalOrder ignoreUnknown = .ok order) ↔
      ¬ ∃ n, Relation.TransGen (Upstream ds) n n := by
  rw [exists_order_iff h (hinside.imp_right not_misses_iff.2)]
  simp only [transGen_awaits]

/-- An order has every process once, behind those that it waits for. -/
theorem inOrder_of_order (h : p.Consists ds) {order : List String}
    (hrun : p.topologicalOrder ignoreUnknown = .ok order) :
    InOrder (fun n => ∃ d ∈ ds, d.name = n) (Awaits ds) order := by
  obtain ⟨g, hshows, rfl, hfull⟩ := graph_of_order h hrun
  have horder := Graph.inOrder_order hshows.wellFormed hfull
  rw [hshows.waits] at horder
  exact ⟨horder.once, fun n => (horder.mem n).trans (hshows.process n), horder.behind⟩

/-- There is an order exactly if no process waits for itself inside the plan, directly or through others,
and it has every process once, behind those of the plan that it waits for. -/
theorem topologicalOrder_complete (h : p.Consists ds) (ignoreUnknown : Bool)
    (hknown : ignoreUnknown = true ∨ ∀ a b, Upstream ds a b → ∃ d ∈ ds, d.name = b) :
    ((∃ order, p.topologicalOrder ignoreUnknown = .ok order) ↔
        ¬ ∃ n, Relation.TransGen (Awaits ds) n n) ∧
      ∀ order, p.topologicalOrder ignoreUnknown = .ok order →
        InOrder (fun n => ∃ d ∈ ds, d.name = n) (Awaits ds) order := by
  refine ⟨exists_order_iff h (hknown.imp_right ?_), fun order hrun => inOrder_of_order h hrun⟩
  rintro hall ⟨a, b, hab⟩
  exact (misses_iff.1 hab).2 (hall a b (misses_iff.1 hab).1)

/-- Two processes write a relation that both one of them and a third read, and a dependency is named
twice. -/
def shared : List Definition :=
  [⟨"extractor/a", ["process/b"], [], some "data/r"⟩,
    ⟨"factor/c", ["extractor/a", "extractor/a"], ["data/r", "data/s"], some "data/r"⟩,
    ⟨"process/b", [], [], some "data/s"⟩,
    ⟨"process/d", [], ["data/r"], none⟩]

theorem consists_shared : (ofDefinitions shared).Consists shared := consists_ofDefinitions (by decide)

theorem topologicalOrder_complete_shared :
    (∀ a b, Upstream shared a b → ∃ d ∈ shared, d.name = b) ∧
      (ofDefinitions shared).topologicalOrder false =
        .ok ["process/b", "extractor/a", "factor/c", "process/d"] ∧
      (¬ ∃ n, Relation.TransGen (Awaits shared) n n) ∧
      InOrder (fun n => ∃ d ∈ shared, d.name = n) (Awaits shared)
        ["process/b", "extractor/a", "factor/c", "process/d"] := by
  have hknown : ∀ a b, Upstream shared a b → ∃ d ∈ shared, d.name = b := by
    have hdependencies : ∀ d ∈ shared, ∀ b ∈ d.dependencies, ∃ d' ∈ shared, d'.name = b := by decide
    rintro a b ⟨d, hd, -, hdep | ⟨-, -, d', hd', -, hname, -⟩⟩
    · exact hdependencies d hd b hdep
    · exact ⟨d', hd', hname⟩
  have horder : (ofDefinitions shared).topologicalOrder false =
      .ok ["process/b", "extractor/a", "factor/c", "process/d"] := by cbv
  obtain ⟨hiff, hinOrder⟩ := topologicalOrder_complete consists_shared false (.inr hknown)
  exact ⟨hknown, horder, hiff.1 ⟨_, horder⟩, hinOrder _ horder⟩

/-- Among the lists that have every process once, behind those of the plan that it waits for, the order
is the smallest one in the order of the names. -/
theorem topologicalOrder_least (h : p.Consists ds) {order : List String}
    (hrun : p.topologicalOrder ignoreUnknown = .ok order) :
    InOrder (fun n => ∃ d ∈ ds, d.name = n) (Awaits ds) order ∧
      ∀ other, InOrder (fun n => ∃ d ∈ ds, d.name = n) (Awaits ds) other →
        order = other ∨ List.Lex (Text.lt · · = true) order other := by
  refine ⟨inOrder_of_order h hrun, fun other hother => ?_⟩
  obtain ⟨g, hshows, rfl, hfull⟩ := graph_of_order h hrun
  refine Graph.order_le hshows.wellFormed hfull ?_
  rw [hshows.waits]
  exact ⟨hother.once, fun n => (hother.mem n).trans (hshows.process n).symm, hother.behind⟩

theorem topologicalOrder_least_shared :
    (ofDefinitions shared).topologicalOrder false =
        .ok ["process/b", "extractor/a", "factor/c", "process/d"] ∧
      ∀ other, InOrder (fun n => ∃ d ∈ shared, d.name = n) (Awaits shared) other →
        ["process/b", "extractor/a", "factor/c", "process/d"] = other ∨
          List.Lex (Text.lt · · = true) ["process/b", "extractor/a", "factor/c", "process/d"] other := by
  have horder : (ofDefinitions shared).topologicalOrder false =
      .ok ["process/b", "extractor/a", "factor/c", "process/d"] := by cbv
  exact ⟨horder, (topologicalOrder_least consists_shared horder).2⟩

/-! ## Plans without an order -/

/-- What is left without a place is what reaches a cycle. -/
theorem mem_remaining_iff {g : Graph} (hshows : g.Shows ds) {n : String} :
    n ∈ Text.sort ((Assoc.keys g).filter (!g.order.contains ·)) ↔ ReachesCycle (Awaits ds) n := by
  have hdefined : ReachesCycle (Awaits ds) n → n ∈ Assoc.keys g := by
    rintro ⟨c, hreach, hcycle⟩
    rw [hshows.process]
    obtain ⟨b, hab, -⟩ := Relation.TransGen.head'_iff.1 (Relation.TransGen.trans_right hreach hcycle)
    exact hab.1.defined
  have hplaced := Graph.mem_order_iff hshows.wellFormed (n := n)
  rw [hshows.waits] at hplaced
  simp only [Text.sort, Text.mem_sortOn, List.mem_filter, Bool.not_eq_true', List.contains_eq_mem,
    decide_eq_false_iff_not, hplaced, not_and, not_not]
  constructor
  · rintro ⟨hn, hreaches⟩
    exact hreaches hn
  · exact fun hreaches => ⟨hdefined hreaches, fun _ => hreaches⟩

/-- Without unknown names, or if they are dropped, the fault tells all that reach a cycle. -/
theorem cycle_of_fault (h : p.Consists ds) (hknown : ignoreUnknown = true ∨ ¬ ∃ a b, Misses ds a b)
    {f : Fault} (hrun : p.topologicalOrder ignoreUnknown = .error f) :
    ∃ remaining, f = .cycle remaining ∧ remaining.Pairwise (Text.lt · · = true) ∧
      ∀ n, n ∈ remaining ↔ ReachesCycle (Awaits ds) n := by
  obtain ⟨g, hshows, hgraph⟩ := graph_run h
  rw [topologicalOrder_run (hgraph _ hknown)] at hrun
  split at hrun
  · cases hrun
  · cases hrun
    refine ⟨_, rfl, Text.increasing_sort ?_, fun n => mem_remaining_iff hshows⟩
    exact hshows.wellFormed.once.sublist List.filter_sublist

/-- Where unknown names are not dropped, they are the fault exactly if a process depends on one, whether
there is a cycle or not, and the least such process is told with the least such name. In every other
case the fault is a cycle, and it tells those that reach one inside the plan, in order. -/
theorem topologicalOrder_faults (h : p.Consists ds) :
    ((∃ text, p.topologicalOrder false = .error (.unknownDependency text)) ↔ ∃ a b, Misses ds a b) ∧
    (∀ text, p.topologicalOrder false = .error (.unknownDependency text) →
      ∃ a b, text = s!"Process '{a}' depends on unknown process '{b}'" ∧ Misses ds a b ∧
        (∀ a' b', Misses ds a' b' → Text.le a a' = true) ∧
        ∀ b', Misses ds a b' → Text.le b b' = true) ∧
    ∀ ignoreUnknown f, p.topologicalOrder ignoreUnknown = .error f →
      (ignoreUnknown = true ∨ ∀ text, f ≠ .unknownDependency text) →
      ∃ remaining, f = .cycle remaining ∧ remaining.Pairwise (Text.lt · · = true) ∧
        ∀ n, n ∈ remaining ↔ ReachesCycle (Awaits ds) n := by
  have hmissed : ∀ text, p.topologicalOrder false = .error (.unknownDependency text) →
      ∃ a b, Misses ds a b := by
    intro text hrun
    refine Classical.byContradiction fun hnone => ?_
    obtain ⟨remaining, hcycle, -⟩ := cycle_of_fault h (.inr hnone) hrun
    cases hcycle
  refine ⟨⟨fun ⟨text, hrun⟩ => hmissed text hrun, fun hmisses => ?_⟩, fun text hrun => ?_,
    fun ignoreUnknown f hrun hother => ?_⟩
  · obtain ⟨a, b, -, -, -, hrun⟩ := topologicalOrder_unknown h hmisses
    exact ⟨_, hrun⟩
  · obtain ⟨a, b, hab, ha, hb, hrun'⟩ := topologicalOrder_unknown h (hmissed text hrun)
    rw [hrun] at hrun'
    cases hrun'
    exact ⟨a, b, rfl, hab, ha, hb⟩
  · refine cycle_of_fault h ?_ hrun
    cases ignoreUnknown with
    | true => exact .inl rfl
    | false =>
      refine .inr fun hmisses => ?_
      obtain ⟨a, b, -, -, -, hrun'⟩ := topologicalOrder_unknown h hmisses
      exact hother.resolve_left (by simp) _ (Except.error.inj (hrun.symm.trans hrun'))

/-- Two processes wait for each other, another one for one of them and for names that no definition has,
and one for nothing. -/
def tangled : List Definition :=
  [⟨"process/a", ["process/b"], [], some "data/r"⟩,
    ⟨"process/b", [], ["data/r"], none⟩,
    ⟨"process/c", [], [], none⟩,
    ⟨"process/d", ["process/a", "process/y", "process/z"], [], none⟩]

theorem topologicalOrder_faults_tangled :
    (ofDefinitions tangled).Consists tangled ∧
      (ofDefinitions tangled).topologicalOrder false =
        .error (.unknownDependency "Process 'process/d' depends on unknown process 'process/y'") ∧
      (∃ a b, Misses tangled a b) ∧
      (ofDefinitions tangled).topologicalOrder true =
        .error (.cycle ["process/a", "process/b", "process/d"]) ∧
      ∀ n, n ∈ ["process/a", "process/b", "process/d"] ↔ ReachesCycle (Awaits tangled) n := by
  have hconsists : (ofDefinitions tangled).Consists tangled := consists_ofDefinitions (by decide)
  have hunknown : (ofDefinitions tangled).topologicalOrder false =
      .error (.unknownDependency "Process 'process/d' depends on unknown process 'process/y'") := by
    cbv
  have hcycle : (ofDefinitions tangled).topologicalOrder true =
      .error (.cycle ["process/a", "process/b", "process/d"]) := by cbv
  obtain ⟨hiff, -, hrest⟩ := topologicalOrder_faults hconsists
  obtain ⟨remaining, heq, -, hmem⟩ := hrest true _ hcycle (.inl rfl)
  obtain rfl := Fault.cycle.inj heq
  exact ⟨hconsists, hunknown, hiff.1 ⟨_, hunknown⟩, hcycle, hmem⟩

end Plan

end FlowPlan

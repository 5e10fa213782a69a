import FlowPlan.Proofs.Plan.Compilation
import FlowPlan.Proofs.Plan.Views
import Mathlib

/-!
# A plan that passes can be generated

Two checks look at different parts of a plan: one at the names that processes depend on, the other at
the order that is left when unknown names are dropped. Together they say that the order exists with no
name dropped, and then every standard fragment can be made.

## Main definitions

* `Document.processesIn` — the definitions that the processes of a document hold.

## Main statements

* `Document.plan_of_qualified` — a qualified document has a plan.
* `Plan.contains_of_inside` — an order in which no name is dropped has no unknown name.
* `Plan.graph_resolved` — without unknown names it does not matter whether they are dropped.
* `Generator.generated_iff_passed` — when a plan passes, and what can be made of it.
-/

namespace FlowPlan

open Document

/-- The definitions that the processes of a document hold. -/
def Document.processesIn (document : Fields) : List Definition :=
  (entriesIn document "execution" "processes").map .ofDerived

variable {document : Fields} {p : Plan} {ds : List Definition}

/-- A qualified document has a plan, made from the definitions that its processes hold. -/
theorem Document.plan_of_qualified (hcheck : check (.obj document) .qualified = .ok ())
    (honce : (Assoc.keys (entriesIn document "execution" "processes")).Nodup) :
    ∃ p, Plan.ofDocument (.obj document) = .ok p ∧ p.Consists (processesIn document) ∧
      (∀ d ∈ processesIn document, (Kind.of? d.name).isSome) ∧
      ∀ d ∈ processesIn document, d.Kinded := by
  obtain ⟨-, hprocesses⟩ := check_iff.1 hcheck
  obtain ⟨pr, hpr⟩ : ∃ pr, part? document "execution" "processes" = some (.obj pr) := by
    obtain ⟨hrequired, -⟩ | ⟨pr, hpr, -⟩ := id hprocesses
    · simp at hrequired
    · exact ⟨pr, hpr⟩
  have hentries : entriesIn document "execution" "processes" = pr := by
    rw [entriesIn, hpr]
    rfl
  have hall : ∀ e ∈ pr, IsProcess e := by
    intro e he
    obtain ⟨fs, hfs, hprocess⟩ := hprocesses.entries e (hentries ▸ he)
    exact ⟨fs, hfs, hprocess rfl⟩
  unfold processesIn
  rw [hentries] at honce ⊢
  obtain ⟨p, hplan, hconsists⟩ := Plan.ofDocument_run hpr (represents_processes hall honce)
  refine ⟨p, hplan, hconsists, fun d hd => ?_, fun d hd => ?_⟩
  · obtain ⟨e, he, rfl⟩ := List.mem_map.1 hd
    exact (hall e he).kind
  · obtain ⟨e, he, rfl⟩ := List.mem_map.1 hd
    exact (hall e he).kinded

namespace Plan

/-! ## Unknown names -/

/-- Where there is an order with no name dropped, all names are known. -/
theorem resolved_of_order (h : p.Consists ds) {order : List String}
    (horder : p.topologicalOrder = .ok order) :
    ∀ d ∈ ds, ∀ b ∈ d.dependencies, ∃ d' ∈ ds, d'.name = b :=
  Definition.not_misses_iff.1 (not_misses_of_order h horder)

/-- Without unknown names it does not matter whether they are dropped. -/
theorem graph_resolved (h : p.Consists ds)
    (hresolved : ∀ d ∈ ds, ∀ b ∈ d.dependencies, ∃ d' ∈ ds, d'.name = b) :
    p.graph true = p.graph false := by
  obtain ⟨g, -, hgraph⟩ := graph_run h
  rw [hgraph true (.inl rfl), hgraph false (.inr (Definition.not_misses_iff.2 hresolved))]

end Plan

namespace Generator

/-- For a plan that has an order of execution with every name known each standard generator makes a
mapping that is not empty. -/
theorem generate_ok (hplan : Plan.ofDocument (.obj document) = .ok p) (h : p.Consists ds)
    (hkinds : ∀ d ∈ ds, (Kind.of? d.name).isSome) (hkinded : ∀ d ∈ ds, d.Kinded) {order : List String}
    (horder : p.topologicalOrder false = .ok order) :
    ∀ x ∈ standard, ∃ f fs, x.1.generate (.obj document) = .ok (.obj (f :: fs)) := by
  simp only [standard, List.forall_mem_cons, List.not_mem_nil, false_implies, implies_true, and_true]
  obtain ⟨waits, hwaits, hnames, -⟩ := Plan.allPrerequisites_run h
  obtain ⟨specs, hspecs, -⟩ :=
    processesFragment_run hplan h hkinds hwaits (waits.keys_values.trans hnames) horder
  obtain ⟨nodes, hnodes, -⟩ := dataflowFragment_run hplan h hkinds hkinded
  exact ⟨⟨_, _, hspecs⟩, ⟨_, _, hnodes⟩, relationsFragment_run hplan h⟩

/-- The fragments of such a plan. -/
theorem standard_run (hplan : Plan.ofDocument (.obj document) = .ok p) (h : p.Consists ds)
    (hkinds : ∀ d ∈ ds, (Kind.of? d.name).isSome) (hkinded : ∀ d ∈ ds, d.Kinded) {order : List String}
    (horder : p.topologicalOrder false = .ok order) :
    ∃ fragments : Fields,
      (standard.mapM fun (g, _) => return (g.name, ← g.generate (.obj document))) = .ok fragments ∧
      ∀ e ∈ fragments, ∃ f fs, e.2 = .obj (f :: fs) := by
  have hall := generate_ok hplan h hkinds hkinded horder
  have hrun : ∀ x ∈ standard,
      ∃ e, (do return (x.1.name, ← x.1.generate (.obj document)) : Attempt (String × Json)) = .ok e := by
    intro x hx
    obtain ⟨f, fs, hgenerate⟩ := hall x hx
    exact ⟨_, by rw [hgenerate, Attempt.ok_bind, Attempt.pure_eq_ok]⟩
  obtain ⟨fragments, hfragments⟩ := Attempt.mapM_isOk.2 hrun
  refine ⟨fragments, hfragments, fun e he => ?_⟩
  obtain ⟨x, hx, hrun⟩ := Attempt.mem_of_mapM hfragments he
  obtain ⟨f, fs, hgenerate⟩ := hall x hx
  rw [hgenerate, Attempt.ok_bind, Attempt.pure_eq_ok] at hrun
  cases hrun
  exact ⟨f, fs, rfl⟩

/-- The two checks of what processes wait for pass exactly if there is an order of execution in which no
name is dropped. It is then the order with names dropped, too, and the standard generators make
fragments that pass their check. -/
theorem generated_iff_passed (hcheck : check (.obj document) .qualified = .ok ())
    (honce : (Assoc.keys (entriesIn document "execution" "processes")).Nodup) :
    ∃ p, Plan.ofDocument (.obj document) = .ok p ∧
      (Check.unresolvedMessages (.obj document) = .ok [] ∧
          Check.cycleMessages (.obj document) = .ok [] ↔
        ∃ order, p.topologicalOrder false = .ok order) ∧
      ∀ order, p.topologicalOrder false = .ok order →
        p.topologicalOrder true = .ok order ∧
        ∃ fragments : Fields,
          (standard.mapM fun (g, _) => return (g.name, ← g.generate (.obj document))) = .ok fragments ∧
          (∀ e ∈ fragments, ∃ f fs, e.2 = .obj (f :: fs)) ∧
          Check.emptyFragmentMessages (.obj fragments) = .ok [] := by
  obtain ⟨p, hplan, h, hkinds, hkinded⟩ := plan_of_qualified hcheck honce
  refine ⟨p, hplan, ?_, fun order horder => ?_⟩
  · rw [Check.unresolvedMessages_iff hplan h, Check.cycleMessages_iff hplan h]
    constructor
    · rintro ⟨hresolved, hacyclic⟩
      exact (Plan.topologicalOrder_iff h false (.inr hresolved)).2 hacyclic
    · rintro ⟨order, horder⟩
      have hresolved := Plan.resolved_of_order h horder
      exact ⟨hresolved, (Plan.topologicalOrder_iff h false (.inr hresolved)).1 ⟨order, horder⟩⟩
  · have hresolved := Plan.resolved_of_order h horder
    obtain ⟨fragments, hfragments, hfull⟩ := standard_run hplan h hkinds hkinded horder
    refine ⟨?_, fragments, hfragments, hfull, Check.emptyFragmentMessages_run hfull⟩
    rw [← horder]
    unfold Plan.topologicalOrder
    rw [Plan.graph_resolved h hresolved]

/-- A factor depends on a process, reads what that process writes and what it writes itself. -/
theorem generated_iff_passed_pair :
    let document : Fields := [("extraction", .obj [("extractors", .obj [])]),
      ("inference", .obj [("factors", .obj [])]),
      ("execution", .obj [("processes", .obj
        [("factor/b", .obj [("dependencies_", .arr [.str "process/a"]),
            ("input_", .arr [.str "data/r", .str "data/s"]), ("output_", .arr [.str "data/s"])]),
          ("process/a", .obj [("output_", .arr [.str "data/r"])])])])]
    check (.obj document) .qualified = .ok () ∧
      (Assoc.keys (entriesIn document "execution" "processes")).Nodup ∧
      Check.unresolvedMessages (.obj document) = .ok [] ∧ Check.cycleMessages (.obj document) = .ok [] ∧
      ∃ p fragments, Plan.ofDocument (.obj document) = .ok p ∧
        p.topologicalOrder true = .ok ["process/a", "factor/b"] ∧
        (standard.mapM fun (g, _) => return (g.name, ← g.generate (.obj document))) = .ok fragments ∧
        Check.emptyFragmentMessages (.obj fragments) = .ok [] := by
  intro document
  have hcheck : check (.obj document) .qualified = .ok () := by rfl
  have honce : (Assoc.keys (entriesIn document "execution" "processes")).Nodup := by decide
  obtain ⟨p, hplan, hiff, hrest⟩ := generated_iff_passed hcheck honce
  have horder : p.topologicalOrder false = .ok ["process/a", "factor/b"] := by
    have hvalue : (Plan.ofDocument (.obj document) >>= fun p => p.topologicalOrder false) =
        .ok ["process/a", "factor/b"] := by cbv
    rwa [hplan] at hvalue
  obtain ⟨hunresolved, hcycle⟩ := hiff.2 ⟨_, horder⟩
  obtain ⟨htrue, fragments, hfragments, -, hempty⟩ := hrest _ horder
  exact ⟨hcheck, honce, hunresolved, hcycle, p, fragments, hplan, htrue, hfragments, hempty⟩

end Generator

end FlowPlan

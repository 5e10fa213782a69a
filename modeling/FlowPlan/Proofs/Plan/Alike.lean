import FlowPlan.Proofs.Plan.Generation
import FlowPlan.Proofs.Plan.Judgement
import Mathlib

/-!
# Plans that are alike

What a process carries beside its names does not matter to the plan. Plans of the same definitions are
alike, and alike plans are judged alike and lead to the same fragments; hence the order of keys in a
compiled document does not matter either.

## Main definitions

* `Node.bare` — a process without its payload.
* `Plan.Alike` — plans with the same processes up to their payload.

## Main statements

* `Plan.Consists.alike` — plans of the same definitions are alike.
* `Plan.Alike.allPrerequisites`, `Plan.Alike.topologicalOrder` — alike plans wait and run alike.
* `Check.examine_sorted`, `Generator.generate_sorted` — the order of keys in a qualified document does
  not matter to the checks and the generators.
-/

namespace FlowPlan

/-- The process without its payload. -/
def Node.bare (n : Node) : Node := { n with payload := [] }

namespace Plan

/-- The plans have the same processes up to their payload. -/
def Alike (p p' : Plan) : Prop := p.sorted.map Node.bare = p'.sorted.map Node.bare

variable {p p' : Plan} {ds ds' : List Definition}

theorem bare_eq {d : Definition} {n n' : Node} (h : d.Says n) (h' : d.Says n') : n.bare = n'.bare := by
  unfold Node.bare
  rw [h.name, h.dependencies, h.inputs, h.output, h'.name, h'.dependencies, h'.inputs, h'.output]

/-- Plans of the same definitions are alike. -/
theorem Consists.alike (h : p.Consists ds) (h' : p'.Consists ds) : p.Alike p' := by
  have hnames : ∀ q : Plan, (q.sorted.map Node.bare).map (·.name) = q.sorted.map (·.name) :=
    fun q => by rw [List.map_map]; rfl
  have hnodup : ∀ {q : Plan}, q.Consists ds → ((q.sorted.map Node.bare).map (·.name)).Nodup :=
    fun hq => hnames _ ▸ nodup_sorted hq
  have hmem : ∀ {q q' : Plan}, q.Consists ds → q'.Consists ds → ∀ b ∈ q.sorted.map Node.bare,
      b ∈ q'.sorted.map Node.bare := by
    intro q q' hq hq' b hb
    obtain ⟨n, hn, rfl⟩ := List.mem_map.1 hb
    obtain ⟨d, hd, hnode⟩ := hq.definition n (mem_sorted.1 hn)
    obtain ⟨n', hn', hnode'⟩ := hq'.node d hd
    exact bare_eq hnode' hnode ▸ List.mem_map_of_mem (mem_sorted.2 hn')
  have hpairwise : ∀ q : Plan, (q.sorted.map Node.bare).Pairwise fun a b => Text.le a.name b.name = true :=
    fun q => List.pairwise_map.2 (Text.pairwise_sortOn (·.name) q.nodes)
  have hperm : (p.sorted.map Node.bare).Perm (p'.sorted.map Node.bare) :=
    (List.perm_ext_iff_of_nodup ((hnodup h).of_map _) ((hnodup h').of_map _)).2
      fun b => ⟨hmem h h' b, hmem h' h b⟩
  refine hperm.eq_of_pairwise (fun a b ha hb hab hba => ?_) (hpairwise p) (hpairwise p')
  exact List.inj_on_of_nodup_map (hnodup h) ha (hperm.mem_iff.2 hb) (Text.le_antisymm hab hba)

/-- The order of definitions does not matter. -/
theorem Consists.of_mem (h : p.Consists ds) (hmem : ∀ d, d ∈ ds ↔ d ∈ ds') : p.Consists ds' where
  definition n hn := by
    obtain ⟨d, hd, hnode⟩ := h.definition n hn
    exact ⟨d, (hmem d).1 hd, hnode⟩
  node d hd := h.node d ((hmem d).2 hd)
  nodup := h.nodup

namespace Alike

variable {α β : Type}

theorem symm (h : p.Alike p') : p'.Alike p := Eq.symm h

/-! ## What is read off the processes -/

theorem mapM (h : p.Alike p') {f : Node → Attempt β} (hf : ∀ n, f n.bare = f n) :
    p.sorted.mapM f = p'.sorted.mapM f := by
  have hbare : ∀ ns : List Node, ns.mapM f = (ns.map Node.bare).mapM f := by
    intro ns
    rw [List.mapM_map]
    exact congrArg (List.mapM · ns) (funext fun n => (hf n).symm)
  rw [hbare, hbare p'.sorted, h]

theorem foldlM (h : p.Alike p') {f : β → Node → Attempt β} (hf : ∀ b n, f b n.bare = f b n) (b : β) :
    p.sorted.foldlM f b = p'.sorted.foldlM f b := by
  have hbare : ∀ ns : List Node, ns.foldlM f b = (ns.map Node.bare).foldlM f b := by
    intro ns
    rw [List.foldlM_map]
    exact congrArg (List.foldlM · b ns) (funext fun b => funext fun n => (hf b n).symm)
  rw [hbare, hbare p'.sorted, h]

theorem names (h : p.Alike p') : p.sorted.map (·.name) = p'.sorted.map (·.name) := by
  have hbare : ∀ q : Plan, (q.sorted.map Node.bare).map (·.name) = q.sorted.map (·.name) :=
    fun q => by rw [List.map_map]; rfl
  rw [← hbare, h, hbare]

theorem contains (h : p.Alike p') : p.contains = p'.contains := by
  have hmem : ∀ {q q' : Plan}, q.Alike q' → ∀ name, q.contains name = true → q'.contains name = true := by
    intro q q' hq name hname
    obtain ⟨n, hn, rfl⟩ := contains_iff.1 hname
    have hname' : n.name ∈ q'.sorted.map (·.name) :=
      hq.names ▸ List.mem_map_of_mem (mem_sorted.2 hn)
    obtain ⟨n', hn', heq⟩ := List.mem_map.1 hname'
    exact contains_iff.2 ⟨n', mem_sorted.1 hn', heq⟩
  funext name
  exact Bool.eq_iff_iff.2 ⟨hmem h name, hmem h.symm name⟩

theorem resolves (h : p.Alike p') : p.resolves = p'.resolves := by
  funext name
  unfold Plan.resolves
  rw [h.contains]

theorem producers (h : p.Alike p') : p.producers = p'.producers := h.foldlM (fun _ _ => rfl) _

theorem relations (h : p.Alike p') : p.relations = p'.relations := by
  unfold Plan.relations
  rw [h.foldlM (f := addUsage) fun _ _ => rfl]

theorem allPrerequisites (h : p.Alike p') : p.allPrerequisites = p'.allPrerequisites := by
  unfold Plan.allPrerequisites
  rw [h.producers]
  exact congrArg _ (funext fun t => h.mapM fun _ => rfl)

theorem graph (h : p.Alike p') (ignoreUnknown : Bool) : p.graph ignoreUnknown = p'.graph ignoreUnknown := by
  unfold Plan.graph Plan.prerequisitesInside
  rw [h.allPrerequisites, h.resolves]

theorem topologicalOrder (h : p.Alike p') (ignoreUnknown : Bool) :
    p.topologicalOrder ignoreUnknown = p'.topologicalOrder ignoreUnknown := by
  unfold Plan.topologicalOrder
  rw [h.graph]

theorem edges (h : p.Alike p') :
    p.sorted.flatMap Generator.edgesOf = p'.sorted.flatMap Generator.edgesOf := by
  have hbare : ∀ ns : List Node,
      ns.flatMap Generator.edgesOf = (ns.map Node.bare).flatMap Generator.edgesOf := by
    intro ns
    rw [List.flatMap_map]
    rfl
  rw [hbare, hbare p'.sorted, h]

end Alike

end Plan

/-! ## Fragments and messages -/

section Subjects

variable {subject subject' : Json} {p p' : Plan}

namespace Check

theorem unresolvedMessages_alike (hplan : Plan.ofDocument subject = .ok p)
    (hplan' : Plan.ofDocument subject' = .ok p') (h : p.Alike p') :
    unresolvedMessages subject = unresolvedMessages subject' := by
  unfold unresolvedMessages
  rw [hplan, hplan', Attempt.ok_bind, Attempt.ok_bind, h.resolves]
  exact congrArg (· >>= _) (h.mapM fun _ => rfl)

theorem cycleMessages_alike (hplan : Plan.ofDocument subject = .ok p)
    (hplan' : Plan.ofDocument subject' = .ok p') (h : p.Alike p') :
    cycleMessages subject = cycleMessages subject' := by
  unfold cycleMessages
  rw [hplan, hplan', Attempt.ok_bind, Attempt.ok_bind, h.topologicalOrder]

end Check

namespace Generator

theorem mapM_runSpec_bare (ns : List Node) (awaited : List (String × List Json)) :
    ((ns.zip awaited).mapM fun (n, _, names) => runSpec n names) =
      ((ns.map Node.bare).zip awaited).mapM fun (n, _, names) => runSpec n names := by
  rw [List.zip_map_left, List.mapM_map]
  rfl

theorem processesFragment_alike (hplan : Plan.ofDocument subject = .ok p)
    (hplan' : Plan.ofDocument subject' = .ok p') (h : p.Alike p') :
    processesFragment subject = processesFragment subject' := by
  unfold processesFragment
  rw [hplan, hplan', Attempt.ok_bind, Attempt.ok_bind, h.allPrerequisites, h.topologicalOrder]
  refine congrArg _ (funext fun awaited => ?_)
  rw [mapM_runSpec_bare, mapM_runSpec_bare p'.sorted, h]

theorem dataflowFragment_alike (hplan : Plan.ofDocument subject = .ok p)
    (hplan' : Plan.ofDocument subject' = .ok p') (h : p.Alike p') :
    dataflowFragment subject = dataflowFragment subject' := by
  unfold dataflowFragment
  rw [hplan, hplan', Attempt.ok_bind, Attempt.ok_bind, h.foldlM (f := listNode) fun _ _ => rfl, h.edges]

theorem relationsFragment_alike (hplan : Plan.ofDocument subject = .ok p)
    (hplan' : Plan.ofDocument subject' = .ok p') (h : p.Alike p') :
    relationsFragment subject = relationsFragment subject' := by
  unfold relationsFragment
  rw [hplan, hplan', Attempt.ok_bind, Attempt.ok_bind, h.relations]

end Generator

end Subjects

/-! ## The order of keys -/

namespace Json

theorem truthy_sortKeys (v : Json) : v.sortKeys.truthy = v.truthy := by
  have hempty : ∀ fs : Fields, (Text.sortOn (·.1) (sortKeysFields fs)).isEmpty = fs.isEmpty := by
    intro fs
    rw [Bool.eq_iff_iff, List.isEmpty_iff, List.isEmpty_iff, Text.sortOn_eq_nil, sortKeysFields_eq_map,
      List.map_eq_nil_iff]
  cases v with
  | arr xs =>
    rw [sortKeys, truthy, truthy, sortKeysList_eq_map, List.isEmpty_map]
  | obj fs => rw [sortKeys, truthy, truthy, hempty]
  | _ => simp [sortKeys]

theorem getD_sortKeys (v : Json) (name : String) :
    v.sortKeys.getD name .null = (v.getD name .null).map sortKeys := by
  cases v with
  | obj fs =>
    rw [Document.sortKeys_obj, getD_obj, getD_obj, Document.find?_sorted]
    cases Assoc.find? fs name with
    | none => simp [Except.map, sortKeys]
    | some v => rfl
  | _ => simp [sortKeys, getD, get, fieldsFor, kindName, misuse, Except.map]

theorem listed_of_perm {xs ys : List Json} (h : xs.Perm ys) (v : Json) : listed xs v = listed ys v :=
  h.any_eq

end Json

namespace Check

open Document

theorem orEmpty_sortKeys (v : Json) : orEmpty v.sortKeys = (orEmpty v).sortKeys := by
  unfold orEmpty
  rw [Json.truthy_sortKeys]
  split
  · rfl
  · simp [Json.sortKeys, Json.sortKeysFields, Text.sortOn]

/-- The same relations are declared, or the declaration fails in the same way. -/
theorem declaredNames_sortKeys (v : Json) :
    (∃ e, declaredNames v = .error e ∧ declaredNames v.sortKeys = .error e) ∨
      ∃ ns ms, declaredNames v = .ok ns ∧ declaredNames v.sortKeys = .ok ms ∧ ns.Perm ms := by
  cases v with
  | obj fs =>
    rw [sortKeys_obj, declaredNames_obj, declaredNames_obj]
    exact .inr ⟨_, _, rfl, rfl, (keys_sorted_perm fs).symm.map _⟩
  | arr xs =>
    have hsame : declaredNames (Json.arr xs).sortKeys = declaredNames (.arr xs) := by
      unfold declaredNames
      rw [Json.sortKeys, Json.sortKeysList_eq_map, Json.elements_arr, Json.elements_arr, Attempt.ok_bind,
        Attempt.ok_bind, List.mapM_map]
      refine congrArg (List.mapM · xs) (funext fun x => ?_)
      dsimp only [Function.comp_apply]
      rw [Kind.ofValue?_sortKeys]
      cases x <;> simp [Json.sortKeys, Kind.ofValue?, Json.misuse]
    rw [hsame]
    cases hrun : declaredNames (.arr xs) with
    | error e => exact .inl ⟨e, rfl, rfl⟩
    | ok ns => exact .inr ⟨ns, ns, rfl, rfl, .refl ns⟩
  | _ =>
    rw [Json.sortKeys]
    · cases hrun : declaredNames _ with
      | error e => exact .inl ⟨e, rfl, rfl⟩
      | ok ns => exact .inr ⟨ns, ns, rfl, rfl, .refl ns⟩
    all_goals simp

variable {subject : Json} {p p' : Plan}

theorem unproducedMessages_sorted (hplan : Plan.ofDocument subject = .ok p)
    (hplan' : Plan.ofDocument subject.sortKeys = .ok p') (h : p.Alike p') :
    unproducedMessages subject = unproducedMessages subject.sortKeys := by
  unfold unproducedMessages
  rw [hplan, hplan', Attempt.ok_bind, Attempt.ok_bind, Json.getD_sortKeys, h.producers]
  cases subject.getD "schema" .null with
  | error e => rfl
  | ok schema =>
    simp only [Except.map, Attempt.ok_bind, orEmpty_sortKeys, Json.getD_sortKeys]
    cases (orEmpty schema).getD "relations" .null with
    | error e => rfl
    | ok relations =>
      simp only [Attempt.ok_bind, orEmpty_sortKeys]
      cases p'.producers with
      | error e => rfl
      | ok produced =>
        simp only [Attempt.ok_bind]
        obtain ⟨e, he, he'⟩ | ⟨ns, ms, hns, hms, hperm⟩ := declaredNames_sortKeys (orEmpty relations)
        · rw [he, he']
          rfl
        · rw [hns, hms, Attempt.ok_bind, Attempt.ok_bind]
          simp only [Json.listed_of_perm (hperm.append_left (produced.map (·.1)))]
          exact congrArg (· >>= _) (h.mapM fun _ => rfl)

end Check

namespace Document

open Definition

variable {document document' : Fields}

theorem ofDerived_sortKeys (n : String) (v : Json) : ofDerived (n, v.sortKeys) = ofDerived (n, v) := by
  unfold ofDerived
  dsimp only
  rw [fieldsOf_sortKeys, namesAt_sorted, namesAt_sorted, namesAt_sorted]

theorem mem_processesIn_sorted {d : Definition} :
    d ∈ processesIn (sorted document) ↔ d ∈ processesIn document := by
  unfold processesIn
  rw [entriesIn_sorted, List.mem_map, List.mem_map]
  constructor
  · rintro ⟨x, hx, rfl⟩
    obtain ⟨e, he, rfl⟩ := mem_sorted.1 hx
    exact ⟨e, he, (ofDerived_sortKeys e.1 e.2).symm⟩
  · rintro ⟨e, he, rfl⟩
    exact ⟨_, mem_sorted.2 ⟨e, he, rfl⟩, ofDerived_sortKeys e.1 e.2⟩

theorem entriesIn_alike (h : (Json.obj document).Alike (.obj document')) (outer inner : String) :
    (Json.obj (entriesIn document outer inner)).Alike (.obj (entriesIn document' outer inner)) := by
  rw [alike_iff, ← entriesIn_sorted, alike_iff.1 h, entriesIn_sorted]

/-- Putting the keys of a qualified document in order leaves its plan as it is, up to the payload. -/
theorem plan_sorted (hcheck : check (.obj document) .qualified = .ok ())
    (honce : (Assoc.keys (entriesIn document "execution" "processes")).Nodup) :
    ∃ p p', Plan.ofDocument (.obj document) = .ok p ∧
      Plan.ofDocument (Json.obj document).sortKeys = .ok p' ∧ p.Alike p' := by
  obtain ⟨p, hplan, hconsists, -⟩ := plan_of_qualified hcheck honce
  obtain ⟨p', hplan', hconsists', -⟩ := plan_of_qualified (check_sorted.2 hcheck)
    (by rwa [entriesIn_sorted, (keys_sorted_perm _).nodup_iff])
  exact ⟨p, p', hplan, sortKeys_obj document ▸ hplan',
    hconsists.alike (hconsists'.of_mem fun _ => mem_processesIn_sorted)⟩

end Document

/-- The generators make the same of a qualified document with its keys in order. -/
theorem Generator.generate_sorted {document : Fields}
    (hcheck : Document.check (.obj document) .qualified = .ok ())
    (honce : (Assoc.keys (Document.entriesIn document "execution" "processes")).Nodup) :
    ∀ g ∈ standard, g.1.generate (.obj document) = g.1.generate (Json.obj document).sortKeys := by
  obtain ⟨p, p', hplan, hplan', halike⟩ := Document.plan_sorted hcheck honce
  simp only [standard, List.forall_mem_cons, List.not_mem_nil, false_implies, implies_true, and_true]
  exact ⟨processesFragment_alike hplan hplan' halike, dataflowFragment_alike hplan hplan' halike,
    relationsFragment_alike hplan hplan' halike⟩

namespace Check

open Document

theorem collisionMessages_none {document : Fields} (hopen : IsOpen document "execution")
    (hnone : collisionsOf document = none) : collisionMessages (.obj document) = .ok [] := by
  obtain ⟨fs, hfs⟩ := hopen
  have hfind : Assoc.find? fs collisionsField = none := by
    rw [← part?_of_open hfs]
    exact hnone
  unfold collisionMessages
  rw [Json.getD_obj, Attempt.ok_bind, hfs, Option.getD_some, Json.getD_obj, Attempt.ok_bind, hfind]
  rfl

/-- The checks of the plan say the same of a qualified document with its keys in order, if no collisions
are recorded. -/
theorem examine_sorted {document : Fields} (hcheck : check (.obj document) .qualified = .ok ())
    (honce : (Assoc.keys (entriesIn document "execution" "processes")).Nodup)
    (hnone : collisionsOf document = none) :
    ∀ c ∈ standard, c.1.phase = .str planPhase → ∀ examine, c.1.judge = .function examine →
      (examine (.obj document)).1 = (examine (Json.obj document).sortKeys).1 := by
  obtain ⟨p, p', hplan, hplan', halike⟩ := plan_sorted hcheck honce
  have hopen : IsOpen document "execution" := by
    obtain ⟨hrequired, -⟩ | ⟨pr, hpr, -⟩ := (check_iff.1 hcheck).2
    · simp at hrequired
    · exact isOpen_of_part hpr
  have hcollisions : collisionMessages (.obj document) = collisionMessages (Json.obj document).sortKeys := by
    rw [collisionMessages_none hopen hnone, sortKeys_obj, collisionMessages_none hopen.sorted]
    rw [collisionsOf_sorted, hnone, Option.map_none]
  simp only [standard, List.forall_mem_cons, List.not_mem_nil, false_implies, implies_true, and_true]
  refine ⟨?_, ?_, ?_, ?_, ?_⟩
  · rintro - examine hjudge
    cases hjudge
    exact hcollisions
  · rintro - examine hjudge
    cases hjudge
    exact unresolvedMessages_alike hplan hplan' halike
  · rintro - examine hjudge
    cases hjudge
    exact unproducedMessages_sorted hplan hplan' halike
  · rintro - examine hjudge
    cases hjudge
    exact cycleMessages_alike hplan hplan' halike
  · intro hphase
    exact absurd hphase (by decide)

end Check

end FlowPlan

import FlowPlan.Proofs.Document.Refusal
import FlowPlan.Proofs.Gate

/-!
# How the standard checks fail

The subject of a check is any value. A standard check that gets no messages out of it has used a part of
it in a way that its kind does not allow; a plan without an order is a message.

## Main definitions

* `Fault.IsMisuse` — a value was used in a way its kind does not allow.

## Main statements

* `Plan.ofDocument_misuse`, `Plan.producers_misuse`, `Plan.graph_misuse` — how reading a plan fails.
* `Check.standard_misuse` — how the standard checks fail.
-/

namespace FlowPlan

open Attempt

/-- A value was used in a way its kind does not allow. -/
def Fault.IsMisuse (f : Fault) : Prop := ∃ m, f = .misuse m

namespace Attempt

variable {α β : Type} {P : Fault → Prop}

theorem Blames.map {x : Attempt α} (h : Blames P x) (g : α → β) : Blames P (Except.map g x) := by
  cases x with
  | ok a => exact blames_ok _
  | error f => exact blames_error (h f rfl)

theorem blames_foldlM {xs : List β} {g : α → β → Attempt α} (h : ∀ a, ∀ b ∈ xs, Blames P (g a b)) (a : α) :
    Blames P (xs.foldlM g a) := by
  induction xs generalizing a with
  | nil => exact blames_ok _
  | cons b xs ih =>
    rw [List.foldlM_cons]
    exact (h a b List.mem_cons_self).bind fun a' _ => ih (fun a c hc => h a c (List.mem_cons_of_mem b hc)) a'

theorem blames_filterM {xs : List β} {g : β → Attempt Bool} (h : ∀ b ∈ xs, Blames P (g b)) :
    Blames P (xs.filterM g) := by
  have haux : ∀ kept, Blames P (List.filterAuxM g xs kept) := by
    induction xs with
    | nil => exact fun _ => blames_ok _
    | cons b xs ih =>
      intro kept
      exact (h b List.mem_cons_self).bind fun _ _ => ih (fun c hc => h c (List.mem_cons_of_mem b hc)) _
  exact (haux []).bind fun _ _ => blames_ok _

end Attempt

/-! ## Parts of values -/

namespace Json

theorem misuse_blames {α : Type} (m : Misuse) : Blames Fault.IsMisuse (misuse m : Attempt α) :=
  blames_error ⟨m, rfl⟩

theorem fieldsFor_misuse (member : String) (v : Json) : Blames Fault.IsMisuse (v.fieldsFor member) := by
  cases v with
  | obj fs => exact blames_ok fs
  | _ => exact misuse_blames _

theorem getD_misuse (v : Json) (name : String) (default : Json) :
    Blames Fault.IsMisuse (v.getD name default) :=
  ((fieldsFor_misuse "get" v).map _).map _

theorem elements_misuse (v : Json) : Blames Fault.IsMisuse v.elements := by
  cases v with
  | arr | str | obj => exact blames_ok _
  | _ => exact misuse_blames _

theorem lookup_misuse (v key : Json) : Blames Fault.IsMisuse (v.lookup key) := by
  unfold lookup
  repeat' split
  all_goals first | exact blames_ok _ | exact misuse_blames _

theorem distinct_misuse (xs : List Json) : Blames Fault.IsMisuse (distinct xs) := by
  unfold distinct
  split
  · exact misuse_blames _
  · exact blames_ok _

theorem sortOnValue_misuse {α : Type} (key : α → Json) (xs : List α) :
    Blames Fault.IsMisuse (sortOnValue key xs) := by
  unfold sortOnValue
  dsimp only
  split
  · exact misuse_blames _
  · exact blames_ok _

end Json

open Json

theorem Table.upsertKey_misuse {α : Type} (t : Table α) (k : Json) (start : α) (change : α → α) :
    Blames Fault.IsMisuse (t.upsertKey k start change) := by
  unfold upsertKey
  split
  · exact blames_ok _
  · exact misuse_blames _

theorem Kind.ofValue?_misuse (v : Json) : Blames Fault.IsMisuse (Kind.ofValue? v) := by
  cases v with
  | str name => exact blames_ok _
  | _ => exact misuse_blames _

/-! ## Plans -/

theorem Node.outputOf_misuse (outputs : Json) : Blames Fault.IsMisuse (Node.outputOf outputs) := by
  unfold Node.outputOf
  split
  · exact (lookup_misuse _ _).map _
  · exact blames_ok _

theorem Node.ofEntry_misuse (name : String) (entry : Json) :
    Blames Fault.IsMisuse (Node.ofEntry name entry) := by
  refine (getD_misuse _ _ _).bind fun outputs _ => ?_
  refine (getD_misuse _ _ _).bind fun listed _ => (elements_misuse _).bind fun dependencies _ => ?_
  refine (getD_misuse _ _ _).bind fun read _ => (elements_misuse _).bind fun inputs _ => ?_
  exact (outputOf_misuse outputs).bind fun _ _ => (fieldsFor_misuse _ _).bind fun _ _ => blames_ok _

namespace Plan

variable (p : Plan)

theorem ofDocument_misuse (document : Json) : Blames Fault.IsMisuse (ofDocument document) := by
  refine (getD_misuse _ _ _).bind fun execution _ => (getD_misuse _ _ _).bind fun processes _ => ?_
  refine (fieldsFor_misuse _ _).bind fun entries _ => ?_
  exact (blames_mapM fun e _ => Node.ofEntry_misuse e.1 e.2).bind fun _ _ => blames_ok _

theorem resolves_misuse (name : Json) : Blames Fault.IsMisuse (p.resolves name) := by
  unfold resolves
  split
  · exact blames_ok _
  · split
    · exact blames_ok _
    · exact misuse_blames _

theorem producers_misuse : Blames Fault.IsMisuse p.producers := by
  refine blames_foldlM (fun t n _ => ?_) []
  split
  · exact Table.upsertKey_misuse _ _ _ _
  · exact blames_ok _

theorem prerequisitesWith_misuse {producersOf : Json → Attempt (List Json)}
    (h : ∀ relation, Blames Fault.IsMisuse (producersOf relation)) (n : Node) :
    Blames Fault.IsMisuse (prerequisitesWith producersOf n) := by
  refine (distinct_misuse _).bind fun names _ => ?_
  refine (blames_mapM fun relation _ => (h relation).bind fun _ _ => distinct_misuse _).bind fun _ _ => ?_
  exact sortOnValue_misuse _ _

theorem producersIn_misuse (t : Table (List String)) (relation : Json) :
    Blames Fault.IsMisuse (producersIn t relation) := by
  unfold producersIn
  split
  · exact blames_ok _
  · exact misuse_blames _

/-- Nothing is unknown to a graph that leaves names outside the plan aside. -/
theorem graph_misuse : Blames Fault.IsMisuse (p.graph true) := by
  have hinside : ∀ name names, Blames Fault.IsMisuse (p.prerequisitesInside true name names) := by
    intro name names
    refine blames_foldlM (fun inside dep _ => (resolves_misuse p dep).bind fun _ _ => ?_) []
    split <;> exact blames_ok _
  refine Blames.bind ?_ fun waiting _ => blames_mapM fun e _ => (hinside e.1 e.2).bind fun _ _ => blames_ok _
  refine (producers_misuse p).bind fun t _ => blames_mapM fun n _ => ?_
  exact (prerequisitesWith_misuse (producersIn_misuse t) n).bind fun _ _ => blames_ok _

end Plan

/-! ## Checks -/

namespace Check

variable (subject : Json)

theorem collisionMessages_misuse : Blames Fault.IsMisuse (collisionMessages subject) :=
  (getD_misuse _ _ _).bind fun _ _ => (getD_misuse _ _ _).bind fun _ _ =>
    (elements_misuse _).bind fun _ _ => blames_ok _

theorem unresolvedMessages_misuse : Blames Fault.IsMisuse (unresolvedMessages subject) := by
  refine (Plan.ofDocument_misuse _).bind fun p _ => ?_
  refine (blames_mapM fun n _ => ?_).bind fun _ _ => blames_ok _
  exact (blames_filterM fun d _ => (p.resolves_misuse d).bind fun _ _ => blames_ok _).bind fun _ _ => blames_ok _

theorem declaredNames_misuse (declared : Json) : Blames Fault.IsMisuse (declaredNames declared) := by
  refine (elements_misuse _).bind fun _ _ => blames_mapM fun relation _ => ?_
  refine (Kind.ofValue?_misuse relation).bind fun kind _ => ?_
  cases kind <;> exact blames_ok _

theorem unproducedMessages_misuse : Blames Fault.IsMisuse (unproducedMessages subject) := by
  refine (Plan.ofDocument_misuse _).bind fun p _ => ?_
  refine (getD_misuse _ _ _).bind fun _ _ => (getD_misuse _ _ _).bind fun _ _ => ?_
  refine p.producers_misuse.bind fun _ _ => (declaredNames_misuse _).bind fun _ _ => ?_
  refine (blames_mapM fun n _ => (blames_filterM fun r _ => ?_).bind fun _ _ => blames_ok _).bind
    fun _ _ => blames_ok _
  split
  · exact blames_ok _
  · exact misuse_blames _

/-- A cycle is what the check is there to tell, and no failure of it. -/
theorem cycleMessages_misuse : Blames Fault.IsMisuse (cycleMessages subject) := by
  refine (Plan.ofDocument_misuse _).bind fun p _ => ?_
  split
  · exact blames_ok _
  · exact blames_ok _
  · rename_i f hcycle hf
    refine blames_error ?_
    unfold Plan.topologicalOrder at hf
    cases hgraph : p.graph true with
    | error e =>
      rw [hgraph] at hf
      cases hf
      exact p.graph_misuse f hgraph
    | ok g =>
      rw [hgraph, ok_bind] at hf
      dsimp only at hf
      split at hf
      · cases hf
      · cases hf
        exact absurd rfl (hcycle _)

theorem emptyFragmentMessages_misuse : Blames Fault.IsMisuse (emptyFragmentMessages subject) := by
  refine (elements_misuse _).bind fun _ _ => (sortOnValue_misuse _ _).bind fun _ _ => ?_
  refine (blames_mapM fun name _ => (lookup_misuse _ _).bind fun _ _ => ?_).bind fun _ _ => blames_ok _
  split <;> exact blames_ok _

/-- A standard check fails by the misuse of a value only. -/
theorem standard_misuse : ∀ c ∈ standard, ∀ subject, Blames Fault.IsMisuse (c.1.messages subject) := by
  simp only [standard, List.forall_mem_cons, List.not_mem_nil, false_implies, implies_true, and_true]
  exact ⟨collisionMessages_misuse, unresolvedMessages_misuse, unproducedMessages_misuse,
    cycleMessages_misuse, emptyFragmentMessages_misuse⟩

end Check

end FlowPlan

import FlowPlan.Proofs.Json.Texts
import Mathlib.Data.List.Nodup

/-!
# Values up to the order of keys

Mappings have no order of their own. Two values are alike if they become equal once the keys of all
their mappings are in order; a value whose mappings have been reordered, at any depth, is alike to the
value that it was, as long as no mapping binds a key twice.

## Main definitions

* `Json.Distinct` — no mapping in a value binds a key twice.
* `Json.Reordered` — the keys of mappings have been reordered.
* `Json.Alike` — equality up to the order of keys.

## Main statements

* `Text.sortOn_eq_of_perm` — sorting forgets the order.
* `Json.Reordered.alike` — reordered values are alike.
* `Json.reordered_sortKeys` — putting the keys in order reorders them.
* `Json.alike_of_find?`, `Json.Alike.find?` — mappings are alike if they bind alike values.
-/

namespace FlowPlan

namespace Text

variable {α : Type} {key : α → String} {xs ys : List α}

/-- Things with different names are in one order only. -/
theorem sortOn_eq_of_perm (hperm : xs.Perm ys) (hnodup : (xs.map key).Nodup) :
    sortOn key xs = sortOn key ys := by
  have hsorted : (sortOn key xs).Perm (sortOn key ys) :=
    (sortOn_perm key xs).trans (hperm.trans (sortOn_perm key ys).symm)
  refine hsorted.eq_of_pairwise (fun a b ha hb hab hba => ?_) (pairwise_sortOn key xs)
    (pairwise_sortOn key ys)
  exact List.inj_on_of_nodup_map hnodup (mem_sortOn.1 ha) (hperm.mem_iff.2 (mem_sortOn.1 hb))
    (le_antisymm hab hba)

theorem sort_eq_of_mem {ns ms : List String} (hns : ns.Nodup) (hms : ms.Nodup)
    (hmem : ∀ n, n ∈ ns ↔ n ∈ ms) : sort ns = sort ms :=
  sortOn_eq_of_perm ((List.perm_ext_iff_of_nodup hns hms).2 hmem) (by simpa using hns)

end Text

namespace Json

mutual

/-- No mapping in the value binds a key twice. -/
def Distinct : Json → Prop
  | .arr xs => DistinctList xs
  | .obj fs => (Assoc.keys fs).Nodup ∧ DistinctFields fs
  | _ => True

def DistinctList : List Json → Prop
  | [] => True
  | x :: xs => x.Distinct ∧ DistinctList xs

def DistinctFields : List (String × Json) → Prop
  | [] => True
  | (_, x) :: fs => x.Distinct ∧ DistinctFields fs

end

mutual

/-- The second value has the parts of the first one, the keys of mappings in any order. -/
inductive Reordered : Json → Json → Prop
  | refl (v : Json) : Reordered v v
  | arr {xs ys : List Json} (parts : ReorderedList xs ys) : Reordered (.arr xs) (.arr ys)
  | obj {fs gs hs : Fields} (parts : ReorderedFields fs gs) (order : gs.Perm hs) :
    Reordered (.obj fs) (.obj hs)

inductive ReorderedList : List Json → List Json → Prop
  | nil : ReorderedList [] []
  | cons {x y : Json} {xs ys : List Json} (head : Reordered x y) (tail : ReorderedList xs ys) :
    ReorderedList (x :: xs) (y :: ys)

inductive ReorderedFields : Fields → Fields → Prop
  | nil : ReorderedFields [] []
  | cons {k : String} {x y : Json} {fs gs : Fields} (head : Reordered x y)
    (tail : ReorderedFields fs gs) : ReorderedFields ((k, x) :: fs) ((k, y) :: gs)

end

/-- The values are equal up to the order of keys. -/
def Alike (v w : Json) : Prop := v.sortKeys = w.sortKeys

variable {v w : Json} {fs gs : Fields}

/-! ## Bound once -/

theorem distinctList_iff {xs : List Json} : DistinctList xs ↔ ∀ x ∈ xs, x.Distinct := by
  induction xs with
  | nil => simp [DistinctList]
  | cons x xs ih => rw [DistinctList, ih, List.forall_mem_cons]

theorem distinctFields_iff : DistinctFields fs ↔ ∀ e ∈ fs, e.2.Distinct := by
  induction fs with
  | nil => simp [DistinctFields]
  | cons e fs ih => rw [DistinctFields, ih, List.forall_mem_cons]

theorem distinct_obj : (Json.obj fs).Distinct ↔ (Assoc.keys fs).Nodup ∧ ∀ e ∈ fs, e.2.Distinct := by
  rw [Distinct, distinctFields_iff]

theorem distinct_arr {xs : List Json} : (Json.arr xs).Distinct ↔ ∀ x ∈ xs, x.Distinct := by
  rw [Distinct, distinctList_iff]

theorem Distinct.find? (h : (Json.obj fs).Distinct) {k : String} (hv : Assoc.find? fs k = some v) :
    v.Distinct :=
  (distinct_obj.1 h).2 _ (Assoc.mem_of_find? hv)

theorem Distinct.set (h : (Json.obj fs).Distinct) (hv : v.Distinct) (k : String) :
    (Json.obj (Assoc.set fs k v)).Distinct := by
  obtain ⟨hnodup, hall⟩ := distinct_obj.1 h
  have hnodup' := Assoc.nodup_set hnodup k v
  refine distinct_obj.2 ⟨hnodup', fun e he => ?_⟩
  have hfind := Assoc.find?_of_mem hnodup' he
  rw [Assoc.find?_set] at hfind
  split at hfind
  · exact Option.some.inj hfind ▸ hv
  · exact h.find? hfind

theorem Distinct.erase (h : (Json.obj fs).Distinct) (k : String) :
    (Json.obj (Assoc.erase fs k)).Distinct := by
  obtain ⟨hnodup, hall⟩ := distinct_obj.1 h
  exact distinct_obj.2 ⟨hnodup.sublist (List.filter_sublist.map _),
    fun e he => hall e ((List.mem_filter.1 he).1)⟩

theorem distinct_arr_texts (ns : List String) : (Json.arr (ns.map .str)).Distinct := by
  rw [distinct_arr]
  rintro x hx
  obtain ⟨n, -, rfl⟩ := List.mem_map.1 hx
  exact trivial

/-! ## Alike values -/

theorem Alike.refl (v : Json) : v.Alike v := rfl

theorem Alike.symm (h : v.Alike w) : w.Alike v := Eq.symm h

theorem Alike.trans {u : Json} (h : v.Alike w) (h' : w.Alike u) : v.Alike u := Eq.trans h h'

theorem alike_sortKeys (v : Json) : v.sortKeys.Alike v := sortKeys_sortKeys v

/-- Alike mappings bind alike values. -/
theorem Alike.find? (h : (Json.obj fs).Alike (.obj gs)) (k : String) :
    (Assoc.find? fs k).map sortKeys = (Assoc.find? gs k).map sortKeys := by
  unfold Alike at h
  rw [sortKeys, sortKeys] at h
  rw [← find?_sortKeysFields, Json.obj.inj h, find?_sortKeysFields]

/-- Alike mappings have alike entries, in some order. -/
theorem Alike.perm (h : (Json.obj fs).Alike (.obj gs)) : (sortKeysFields fs).Perm (sortKeysFields gs) := by
  unfold Alike at h
  rw [sortKeys, sortKeys] at h
  have hperm := Text.sortOn_perm (·.1) (sortKeysFields fs)
  rw [Json.obj.inj h] at hperm
  exact hperm.symm.trans (Text.sortOn_perm _ _)

theorem keys_sortKeysFields (fs : Fields) : (sortKeysFields fs).map (·.1) = Assoc.keys fs := by
  rw [sortKeysFields_eq_map, List.map_map]
  rfl

theorem Alike.keys (h : (Json.obj fs).Alike (.obj gs)) : (Assoc.keys fs).Perm (Assoc.keys gs) := by
  rw [← keys_sortKeysFields, ← keys_sortKeysFields gs]
  exact h.perm.map _

/-- Mappings with alike entries are alike, whatever the order of these. -/
theorem alike_of_perm (hnodup : (Assoc.keys fs).Nodup)
    (hperm : (sortKeysFields fs).Perm (sortKeysFields gs)) : (Json.obj fs).Alike (.obj gs) := by
  unfold Alike
  rw [sortKeys, sortKeys, Text.sortOn_eq_of_perm hperm]
  rwa [keys_sortKeysFields]

theorem mem_sortKeysFields (hnodup : (Assoc.keys fs).Nodup) {k : String} :
    (k, v) ∈ sortKeysFields fs ↔ (Assoc.find? fs k).map sortKeys = some v := by
  have hnodup' : ((sortKeysFields fs).map (·.1)).Nodup := by rwa [keys_sortKeysFields]
  rw [← find?_map_snd, ← sortKeysFields_eq_map]
  exact ⟨Assoc.find?_of_mem hnodup', Assoc.mem_of_find?⟩

/-- Mappings that bind alike values are alike. -/
theorem alike_of_find? (hfs : (Assoc.keys fs).Nodup) (hgs : (Assoc.keys gs).Nodup)
    (h : ∀ k, (Assoc.find? fs k).map sortKeys = (Assoc.find? gs k).map sortKeys) :
    (Json.obj fs).Alike (.obj gs) := by
  have hnodup : ∀ {es : Fields}, (Assoc.keys es).Nodup → (sortKeysFields es).Nodup := by
    intro es hes
    rw [← keys_sortKeysFields] at hes
    exact hes.of_map _
  refine alike_of_perm hfs ((List.perm_ext_iff_of_nodup (hnodup hfs) (hnodup hgs)).2 fun e => ?_)
  rw [mem_sortKeysFields hfs, mem_sortKeysFields hgs, h]

theorem Alike.arr {xs ys : List Json} (h : xs.map sortKeys = ys.map sortKeys) :
    (Json.arr xs).Alike (.arr ys) := by
  unfold Alike
  rw [sortKeys, sortKeys, sortKeysList_eq_map, sortKeysList_eq_map, h]

@[simp] theorem sortKeys_texts (ns : List String) :
    (Json.arr (ns.map .str)).sortKeys = .arr (ns.map .str) := by
  simp [sortKeys, sortKeysList_eq_map, Function.comp_def]

/-! ## Reordered values -/

theorem ReorderedFields.keys (h : ReorderedFields fs gs) : Assoc.keys fs = Assoc.keys gs := by
  induction fs generalizing gs with
  | nil =>
    cases h
    rfl
  | cons e fs ih =>
    cases h with
    | cons head tail => exact congrArg (_ :: ·) (ih tail)

mutual

theorem Reordered.distinct_alike : ∀ {v w : Json}, Reordered v w → v.Distinct → w.Distinct ∧ v.Alike w
  | .arr xs, w, h, hv => by
    cases h with
    | refl => exact ⟨hv, rfl⟩
    | arr parts =>
      obtain ⟨hdistinct, halike⟩ := parts.distinct_alike hv
      exact ⟨hdistinct, .arr halike⟩
  | .obj fs, w, h, hv => by
    cases h with
    | refl => exact ⟨hv, rfl⟩
    | obj parts order =>
      obtain ⟨hnodup, hfs⟩ := hv
      obtain ⟨hdistinct, halike⟩ := parts.distinct_alike hfs
      have hnodup' := (parts.keys ▸ hnodup)
      refine ⟨distinct_obj.2 ⟨((order.map _).nodup_iff).1 hnodup', fun e he => ?_⟩,
        alike_of_perm hnodup ?_⟩
      · exact distinctFields_iff.1 hdistinct e (order.mem_iff.2 he)
      · rw [halike, sortKeysFields_eq_map, sortKeysFields_eq_map]
        exact order.map _
  | .null, w, h, hv => by cases h; exact ⟨hv, rfl⟩
  | .bool _, w, h, hv => by cases h; exact ⟨hv, rfl⟩
  | .int _, w, h, hv => by cases h; exact ⟨hv, rfl⟩
  | .float _, w, h, hv => by cases h; exact ⟨hv, rfl⟩
  | .str _, w, h, hv => by cases h; exact ⟨hv, rfl⟩

theorem ReorderedList.distinct_alike : ∀ {xs ys : List Json}, ReorderedList xs ys → DistinctList xs →
    DistinctList ys ∧ xs.map sortKeys = ys.map sortKeys
  | [], ys, h, hxs => by cases h; exact ⟨hxs, rfl⟩
  | x :: xs, ys, h, hxs => by
    cases h with
    | cons head tail =>
      obtain ⟨hhead, halike⟩ := head.distinct_alike hxs.1
      obtain ⟨htail, halikes⟩ := tail.distinct_alike hxs.2
      exact ⟨⟨hhead, htail⟩, by rw [List.map_cons, List.map_cons, halike, halikes]⟩

theorem ReorderedFields.distinct_alike : ∀ {fs gs : List (String × Json)}, ReorderedFields fs gs →
    DistinctFields fs → DistinctFields gs ∧ sortKeysFields fs = sortKeysFields gs
  | [], gs, h, hfs => by cases h; exact ⟨hfs, rfl⟩
  | (k, x) :: fs, gs, h, hfs => by
    cases h with
    | cons head tail =>
      obtain ⟨hhead, halike⟩ := head.distinct_alike hfs.1
      obtain ⟨htail, halikes⟩ := tail.distinct_alike hfs.2
      exact ⟨⟨hhead, htail⟩, by rw [sortKeysFields, sortKeysFields, halike, halikes]⟩

end

/-- A reordered value binds no key twice either. -/
theorem Reordered.distinct (h : Reordered v w) (hv : v.Distinct) : w.Distinct := (h.distinct_alike hv).1

/-- A reordered value is the same up to the order of keys. -/
theorem Reordered.alike (h : Reordered v w) (hv : v.Distinct) : v.Alike w := (h.distinct_alike hv).2

mutual

/-- Putting the keys in order reorders them. -/
theorem reordered_sortKeys : ∀ v : Json, Reordered v v.sortKeys
  | .arr xs => by
    rw [sortKeys]
    exact .arr (reorderedList_sortKeys xs)
  | .obj fs => by
    rw [sortKeys]
    exact .obj (reorderedFields_sortKeys fs) (Text.sortOn_perm _ _).symm
  | .null | .bool _ | .int _ | .float _ | .str _ => by
    rw [sortKeys]
    · exact .refl _
    all_goals simp

theorem reorderedList_sortKeys : ∀ xs : List Json, ReorderedList xs (sortKeysList xs)
  | [] => by
    rw [sortKeysList]
    exact .nil
  | x :: xs => by
    rw [sortKeysList]
    exact .cons (reordered_sortKeys x) (reorderedList_sortKeys xs)

theorem reorderedFields_sortKeys : ∀ fs : List (String × Json), ReorderedFields fs (sortKeysFields fs)
  | [] => by
    rw [sortKeysFields]
    exact .nil
  | (_, x) :: fs => by
    rw [sortKeysFields]
    exact .cons (reordered_sortKeys x) (reorderedFields_sortKeys fs)

end

end Json

end FlowPlan

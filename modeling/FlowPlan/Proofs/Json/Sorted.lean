import FlowPlan.Json.Writer

/-!
# Sorting by name

Sorting by name is stable, so a name leads to the same entry before and after. Sorting the fields of a
value changes what lies under a name only in the order of the parts.

## Main statements

* `Text.pairwise_sortOn`, `Text.filter_sortOn` — sorting orders, and keeps equal names in order.
* `Text.increasing_sortOn` — where no name is repeated, the names increase.
* `Assoc.find?_sortOn` — what a sorted map binds.
* `Json.sortKeys_sortKeys` — sorting twice is sorting once.
-/

namespace FlowPlan

/-! ## Code-point order -/

namespace Text

theorem leChars_refl (a : List Char) : leChars a a = true := by
  induction a with
  | nil => rfl
  | cons c a ih => simp [leChars, ih]

theorem leChars_trans {a b c : List Char} (hab : leChars a b = true) (hbc : leChars b c = true) :
    leChars a c = true := by
  induction a generalizing b c with
  | nil => simp [leChars]
  | cons x a ih =>
    cases b with
    | nil => simp [leChars] at hab
    | cons y b =>
      cases c with
      | nil => simp [leChars] at hbc
      | cons z c =>
        simp only [leChars, Bool.or_eq_true, Bool.and_eq_true, decide_eq_true_eq, beq_iff_eq]
          at hab hbc ⊢
        rcases hab with hab | ⟨rfl, hab⟩ <;> rcases hbc with hbc | ⟨rfl, hbc⟩
        · exact .inl (Nat.lt_trans hab hbc)
        · exact .inl hab
        · exact .inl hbc
        · exact .inr ⟨rfl, ih hab hbc⟩

theorem leChars_antisymm {a b : List Char} (hab : leChars a b = true) (hba : leChars b a = true) :
    a = b := by
  induction a generalizing b with
  | nil =>
    cases b with
    | nil => rfl
    | cons y b => simp [leChars] at hba
  | cons x a ih =>
    cases b with
    | nil => simp [leChars] at hab
    | cons y b =>
      simp only [leChars, Bool.or_eq_true, Bool.and_eq_true, decide_eq_true_eq, beq_iff_eq]
        at hab hba
      rcases hab with hab | ⟨rfl, hab⟩
      · rcases hba with hba | ⟨rfl, -⟩ <;> omega
      · rcases hba with hba | ⟨-, hba⟩
        · omega
        · rw [ih hab hba]

theorem le_refl (a : String) : le a a = true := leChars_refl a.toList

theorem le_trans {a b c : String} (hab : le a b = true) (hbc : le b c = true) : le a c = true :=
  leChars_trans hab hbc

theorem le_total (a b : String) : (le a b || le b a) = true := by
  simpa [le] using leChars_total a.toList b.toList

theorem le_antisymm {a b : String} (hab : le a b = true) (hba : le b a = true) : a = b :=
  String.toList_inj.1 (leChars_antisymm hab hba)

theorem lt_irrefl (a : String) : lt a a = false := by simp [lt, le_refl]

theorem le_of_lt {a b : String} (h : lt a b = true) : le a b = true := by
  have := le_total a b
  simp_all [lt]

theorem lt_of_le_of_ne {a b : String} (h : le a b = true) (hne : a ≠ b) : lt a b = true := by
  rw [lt, Bool.not_eq_true']
  cases hba : le b a with
  | false => rfl
  | true => exact absurd (le_antisymm h hba) hne

theorem lt_of_le_of_lt {a b c : String} (hab : le a b = true) (hbc : lt b c = true) :
    lt a c = true := by
  simp only [lt, Bool.not_eq_true'] at hbc ⊢
  cases hca : le c a with
  | false => rfl
  | true => rw [le_trans hca hab] at hbc; cases hbc

theorem lt_trans {a b c : String} (hab : lt a b = true) (hbc : lt b c = true) : lt a c = true :=
  lt_of_le_of_lt (le_of_lt hab) hbc

theorem ne_of_lt {a b : String} (h : lt a b = true) : a ≠ b := by
  rintro rfl
  simp [lt_irrefl] at h

/-! ## Sorting -/

variable {α : Type} {key : α → String} {xs : List α}

theorem sortOn_perm (key : α → String) (xs : List α) : (sortOn key xs).Perm xs :=
  List.mergeSort_perm xs _

theorem mem_sortOn {x : α} : x ∈ sortOn key xs ↔ x ∈ xs := List.mem_mergeSort

theorem key_trans (key : α → String) (a b c : α) :
    le (key a) (key b) = true → le (key b) (key c) = true → le (key a) (key c) = true := le_trans

theorem key_total (key : α → String) (a b : α) : (le (key a) (key b) || le (key b) (key a)) = true :=
  le_total (key a) (key b)

theorem pairwise_sortOn (key : α → String) (xs : List α) :
    (sortOn key xs).Pairwise fun a b => le (key a) (key b) = true :=
  List.pairwise_mergeSort (key_trans key) (key_total key) xs

theorem sortOn_eq_nil : sortOn key xs = [] ↔ xs = [] := by
  rw [← List.length_eq_zero_iff, (sortOn_perm key xs).length_eq, List.length_eq_zero_iff]

theorem sortOn_of_pairwise (h : xs.Pairwise fun a b => le (key a) (key b) = true) :
    sortOn key xs = xs := List.mergeSort_of_pairwise h

theorem sortOn_sortOn (key : α → String) (xs : List α) : sortOn key (sortOn key xs) = sortOn key xs :=
  sortOn_of_pairwise (pairwise_sortOn key xs)

/-- What increases names nothing twice. -/
theorem nodup_of_increasing {ns : List String} (h : ns.Pairwise (lt · · = true)) : ns.Nodup :=
  h.imp ne_of_lt

/-- Where no name is repeated, sorting by name makes the names increase. -/
theorem increasing_sortOn (h : (xs.map key).Nodup) :
    ((sortOn key xs).map key).Pairwise (lt · · = true) := by
  have honce : ((sortOn key xs).map key).Nodup := ((sortOn_perm key xs).map key).nodup_iff.2 h
  have hsorted : ((sortOn key xs).map key).Pairwise (le · · = true) :=
    List.pairwise_map.2 (pairwise_sortOn key xs)
  exact (hsorted.and honce).imp fun ⟨hle, hne⟩ => lt_of_le_of_ne hle hne

theorem increasing_sort {ns : List String} (h : ns.Nodup) : (sort ns).Pairwise (lt · · = true) := by
  have honce : (ns.map id).Nodup := by rwa [List.map_id]
  simpa [sort] using increasing_sortOn honce

/-- Entries of one name keep their order. -/
theorem filter_sortOn (key : α → String) (xs : List α) (k : String) :
    (sortOn key xs).filter (key · = k) = xs.filter (key · = k) := by
  have hpair : (xs.filter (key · = k)).Pairwise fun a b => le (key a) (key b) = true := by
    refine List.Pairwise.imp_of_mem ?_ (List.pairwise_of_forall (R := fun _ _ => True) fun _ _ => trivial)
    intro a b ha hb _
    simp only [List.mem_filter, decide_eq_true_eq] at ha hb
    rw [ha.2, hb.2]
    exact le_refl k
  have hsub : (xs.filter (key · = k)).Sublist (sortOn key xs) :=
    List.sublist_mergeSort (key_trans key) (key_total key) hpair List.filter_sublist
  have hsub' := hsub.filter (key · = k)
  simp only [List.filter_filter, Bool.and_self] at hsub'
  exact (hsub'.eq_of_length ((sortOn_perm key xs).filter _).length_eq.symm).symm

end Text

/-! ## Maps -/

namespace Assoc

variable {α : Type}

theorem find?_eq_head? (m : Assoc String α) (k : String) :
    find? m k = ((m.filter (·.1 = k)).head?).map (·.2) := by
  induction m with
  | nil => rfl
  | cons e m ih =>
    rw [find?_cons]
    by_cases h : e.1 = k <;> simp [h, ih]

/-- A sorted map binds what the map binds. -/
theorem find?_sortOn (m : Assoc String α) (k : String) : find? (Text.sortOn (·.1) m) k = find? m k := by
  rw [find?_eq_head?, find?_eq_head?, Text.filter_sortOn]

theorem find?_filter_key (m : Assoc String α) (p : String → Bool) (k : String) :
    find? (m.filter (p ·.1)) k = if p k then find? m k else none := by
  induction m with
  | nil => simp
  | cons e m ih =>
    by_cases hp : p e.1 <;> by_cases hk : e.1 = k <;>
      simp_all [find?_cons]

end Assoc

/-! ## Values -/

namespace Json

theorem sortKeysFields_eq_map (fs : Fields) : sortKeysFields fs = fs.map fun f => (f.1, f.2.sortKeys) := by
  induction fs with
  | nil => rfl
  | cons f fs ih => simp [sortKeysFields, ih]

theorem sortKeysList_eq_map (xs : List Json) : sortKeysList xs = xs.map sortKeys := by
  induction xs with
  | nil => rfl
  | cons x xs ih => simp [sortKeysList, ih]

theorem find?_map_snd (fs : Fields) (f : Json → Json) (k : String) :
    Assoc.find? (fs.map fun e => (e.1, f e.2)) k = (Assoc.find? fs k).map f := by
  induction fs with
  | nil => rfl
  | cons e fs ih =>
    rw [List.map_cons, Assoc.find?_cons, Assoc.find?_cons, ih]
    split <;> rfl

/-- What lies under a name once the fields are in order. -/
theorem find?_sortKeysFields (fs : Fields) (k : String) :
    Assoc.find? (Text.sortOn (·.1) (sortKeysFields fs)) k = (Assoc.find? fs k).map sortKeys := by
  rw [Assoc.find?_sortOn, sortKeysFields_eq_map, find?_map_snd]

/-- A mapping that is not empty stays so. -/
theorem exists_sortKeys_cons (f : String × Json) (fs : Fields) :
    ∃ f' fs', (Json.obj (f :: fs)).sortKeys = .obj (f' :: fs') := by
  rw [sortKeys]
  cases hsorted : Text.sortOn (·.1) (sortKeysFields (f :: fs)) with
  | nil => simp [Text.sortOn_eq_nil, sortKeysFields_eq_map] at hsorted
  | cons f' fs' => exact ⟨f', fs', rfl⟩

theorem sortKeysFields_sortOn (fs : Fields) :
    sortKeysFields (Text.sortOn (·.1) fs) = Text.sortOn (·.1) (sortKeysFields fs) := by
  rw [sortKeysFields_eq_map, sortKeysFields_eq_map, Text.sortOn, Text.sortOn, List.map_mergeSort]
  exact fun _ _ _ _ => rfl

mutual

/-- Sorting twice is sorting once. -/
theorem sortKeys_sortKeys : ∀ v : Json, v.sortKeys.sortKeys = v.sortKeys
  | .arr xs => by rw [sortKeys, sortKeys, sortKeysList_sortKeysList]
  | .obj fs => by
    rw [sortKeys, sortKeys, sortKeysFields_sortOn, sortKeysFields_sortKeysFields, Text.sortOn_sortOn]
  | .null | .bool _ | .int _ | .float _ | .str _ => by simp [sortKeys]

theorem sortKeysList_sortKeysList : ∀ xs : List Json,
    sortKeysList (sortKeysList xs) = sortKeysList xs
  | [] => rfl
  | x :: xs => by simp [sortKeysList, sortKeys_sortKeys x, sortKeysList_sortKeysList xs]

theorem sortKeysFields_sortKeysFields : ∀ fs : List (String × Json),
    sortKeysFields (sortKeysFields fs) = sortKeysFields fs
  | [] => rfl
  | (k, x) :: fs => by simp [sortKeysFields, sortKeys_sortKeys x, sortKeysFields_sortKeysFields fs]

end

end Json

end FlowPlan

import FlowPlan.Json.Access
import FlowPlan.Proofs.Attempt
import FlowPlan.Proofs.Json.Sorted
import Mathlib

/-!
# Texts among values

Names are values that are texts. Texts can be keys and have a common order, so that sets of names
can be formed and sorted.

## Main statements

* `Json.listed_foldl_insertDistinct` — the texts of a set of values.
* `Json.distinct_texts`, `Json.sortSet_texts` — a set of names, and a set of names in order.
* `Json.sortOnValue_texts` — things in the order of their names.
* `Table.keys_upsert`, `Table.find?_upsert` — a table after an addition.
* `Table.find?_sortOn` — a table in the order of its keys.
-/

namespace FlowPlan

namespace Json

/-! ## Mappings -/

@[simp] theorem get_obj (fs : Fields) (name : String) :
    (Json.obj fs).get name = .ok (Assoc.find? fs name) := rfl

@[simp] theorem getD_obj (fs : Fields) (name : String) (v : Json) :
    (Json.obj fs).getD name v = .ok ((Assoc.find? fs name).getD v) := rfl

@[simp] theorem items_obj (fs : Fields) : (Json.obj fs).items = .ok fs := rfl

@[simp] theorem fieldsFor_obj (fs : Fields) (member : String) :
    (Json.obj fs).fieldsFor member = .ok fs := rfl

@[simp] theorem put_str (fs : Fields) (name : String) (v : Json) :
    (Json.obj fs).put (.str name) v = .ok (.obj (Assoc.set fs name v)) := rfl

theorem field_obj {fs : Fields} {name : String} {v : Json} (h : Assoc.find? fs name = some v) :
    (Json.obj fs).field name = .ok v := by
  simp [field, lookup, h]

@[simp] theorem elements_arr (xs : List Json) : (Json.arr xs).elements = .ok xs := rfl

theorem toOption_of_ne_null {v : Json} (h : v ≠ .null) : v.toOption = some v := by
  cases v <;> first | exact absurd rfl h | rfl

/-! ## Sets of texts -/

theorem same_str {v : Json} {k : String} : same v (.str k) = true ↔ v = .str k := by
  cases v with
  | float x => cases x <;> simp [same, fraction?]
  | _ => simp [same, fraction?]

theorem str_injective {a b : String} (h : Json.str a = .str b) : a = b := by
  cases h
  rfl

theorem texts_injective {ns ms : List String} (h : ns.map Json.str = ms.map .str) : ns = ms :=
  (List.map_inj_right fun _ _ => str_injective).1 h

@[simp] theorem mem_map_str {ns : List String} {n : String} : Json.str n ∈ ns.map Json.str ↔ n ∈ ns := by
  simp

theorem listed_str {xs : List Json} {n : String} : listed xs (.str n) = true ↔ .str n ∈ xs := by
  rw [listed, List.any_eq_true]
  simp only [same_str]
  exact exists_eq_right

theorem listed_texts {ns : List String} {n : String} :
    listed (ns.map .str) (.str n) = true ↔ n ∈ ns := by
  rw [listed_str, mem_map_str]

theorem mem_insertDistinct {seen : List Json} {v : Json} {n : String} :
    .str n ∈ insertDistinct seen v ↔ .str n ∈ seen ∨ v = .str n := by
  unfold insertDistinct
  split
  · rename_i hlisted
    refine ⟨.inl, ?_⟩
    rintro (h | rfl)
    · exact h
    · exact listed_str.1 hlisted
  · rw [List.mem_append, List.mem_singleton, eq_comm (a := Json.str n)]

/-- A set of values has the texts that are among them. -/
theorem mem_foldl_insertDistinct {xs seen : List Json} {n : String} :
    .str n ∈ xs.foldl insertDistinct seen ↔ .str n ∈ seen ∨ .str n ∈ xs := by
  induction xs generalizing seen with
  | nil => simp
  | cons v xs ih =>
    rw [List.foldl_cons, ih, mem_insertDistinct, List.mem_cons, or_assoc, eq_comm (a := v)]

/-- A set of values lists the texts that the values list. -/
theorem listed_foldl_insertDistinct (xs : List Json) (n : String) :
    listed (xs.foldl insertDistinct []) (.str n) = listed xs (.str n) := by
  rw [Bool.eq_iff_iff, listed_str, listed_str, mem_foldl_insertDistinct]
  simp

theorem distinct_eq_ok {xs : List Json} (h : ∀ v ∈ xs, v.isHashable = true) :
    distinct xs = .ok (xs.foldl insertDistinct []) := by
  have hnone : xs.find? (!·.isHashable) = none := by
    rw [List.find?_eq_none]
    intro v hv
    simp [h v hv]
  rw [distinct, hnone]

theorem foldl_insertDistinct (ks ns : List String) :
    ∃ ms : List String, (ns.map Json.str).foldl insertDistinct (ks.map .str) = ms.map .str ∧
      (∀ n, n ∈ ms ↔ n ∈ ks ∨ n ∈ ns) ∧ (ks.Nodup → ms.Nodup) := by
  induction ns generalizing ks with
  | nil => exact ⟨ks, rfl, by simp, id⟩
  | cons m ns ih =>
    rw [List.map_cons, List.foldl_cons]
    by_cases hm : m ∈ ks
    · have hinsert : insertDistinct (ks.map .str) (.str m) = ks.map .str := by
        rw [insertDistinct, if_pos (listed_texts.2 hm)]
      obtain ⟨ms, hms, hmem, hnodup⟩ := ih ks
      refine ⟨ms, by rw [hinsert, hms], ?_, hnodup⟩
      grind
    · have hinsert : insertDistinct (ks.map .str) (.str m) = (ks ++ [m]).map .str := by
        rw [insertDistinct, if_neg (mt listed_texts.1 hm)]
        simp
      obtain ⟨ms, hms, hmem, hnodup⟩ := ih (ks ++ [m])
      refine ⟨ms, by rw [hinsert, hms], ?_, fun hks => hnodup (List.nodup_append.2 ⟨hks, by simp, ?_⟩)⟩
      · grind
      · grind

theorem distinct_texts (ns : List String) :
    ∃ ms : List String, distinct (ns.map Json.str) = .ok (ms.map .str) ∧ (∀ n, n ∈ ms ↔ n ∈ ns) ∧
      ms.Nodup := by
  obtain ⟨ms, hms, hmem, hnodup⟩ := foldl_insertDistinct [] ns
  have hhashable : ∀ v ∈ ns.map Json.str, v.isHashable = true := by
    simp [isHashable]
  refine ⟨ms, ?_, by simpa using hmem, hnodup .nil⟩
  rw [distinct_eq_ok hhashable]
  exact congrArg Except.ok hms

/-! ## Order -/

/-- Things that are known by texts are sorted by these. -/
theorem findSome?_incomparable_texts {α : Type} {key : α → Json} {name : α → String} {xs : List α}
    (h : ∀ x ∈ xs, key x = .str (name x)) :
    ((xs.map key).zip (xs.map key).tail).findSome?
      (fun (earlier, later) => incomparable? later earlier) = none := by
  rw [List.findSome?_eq_none_iff]
  rintro ⟨earlier, later⟩ hmem
  obtain ⟨a, ha, rfl⟩ := List.mem_map.1 (List.of_mem_zip hmem).1
  obtain ⟨b, hb, rfl⟩ := List.mem_map.1 (List.mem_of_mem_tail (List.of_mem_zip hmem).2)
  simp [h a ha, h b hb, incomparable?]

theorem sortOnValue_texts {α : Type} {key : α → Json} {name : α → String} {xs : List α}
    (h : ∀ x ∈ xs, key x = .str (name x)) : sortOnValue key xs = .ok (Text.sortOn name xs) := by
  have hsort : (xs.mergeSort fun a b => leValue (key a) (key b)) = Text.sortOn name xs := by
    have hle : ∀ a ∈ xs, ∀ b ∈ xs, leValue (key a) (key b) = Text.le (name a) (name b) := by
      intro a ha b hb
      rw [h a ha, h b hb, leValue]
    have hmap := List.map_mergeSort (f := id) (s := fun a b => Text.le (name a) (name b)) hle
    rwa [List.map_id, List.map_id] at hmap
  unfold sortOnValue
  simp only [findSome?_incomparable_texts h, hsort]

theorem sortValues_texts (ns : List String) :
    sortValues (ns.map Json.str) = .ok ((Text.sort ns).map .str) := by
  have hnames : ∀ v ∈ ns.map Json.str, id v = .str v.keyText := by
    intro v hv
    obtain ⟨n, -, rfl⟩ := List.mem_map.1 hv
    rfl
  have hle : ∀ a ∈ ns, ∀ b ∈ ns,
      Text.le (id a) (id b) = Text.le (Json.str a).keyText (Json.str b).keyText := fun _ _ _ _ => rfl
  rw [sortValues, sortOnValue_texts hnames, Text.sort, Text.sortOn, Text.sortOn]
  exact congrArg Except.ok
    (List.map_mergeSort (f := Json.str) (s := fun a b => Text.le a.keyText b.keyText) hle).symm

theorem sortSet_texts (ns : List String) : sortSet (ns.map Json.str) = .ok ((Text.sort ns).map .str) := by
  have hparts : (ns.map Json.str).filter isStr ++ (ns.map Json.str).filter (!·.isStr) =
      ns.map .str := by
    have hall : ∀ v ∈ ns.map Json.str, v.isStr = true := by simp [isStr]
    rw [List.filter_eq_self.2 hall, List.filter_eq_nil_iff.2 (by simpa using hall), List.append_nil]
  rw [sortSet, hparts]
  exact sortValues_texts ns

end Json

/-! ## Tables with texts as keys -/

namespace Table

variable {α : Type}

/-- Every key of the table is a text. -/
def Texts (t : Table α) : Prop := ∀ e ∈ t, ∃ n, e.1 = .str n

theorem Texts.key {t : Table α} (h : t.Texts) : ∀ e ∈ t, e.1 = .str e.1.keyText := by
  intro e he
  obtain ⟨n, hn⟩ := h e he
  rw [hn, Json.keyText]

theorem Texts.upsert {t : Table α} (h : t.Texts) (k : String) (start : α) (change : α → α) :
    (t.upsert (.str k) start change).Texts := by
  induction t with
  | nil => simp [Table.upsert, Texts]
  | cons e t ih =>
    have hrest := ih fun e he => h e (List.mem_cons_of_mem _ he)
    have hhead := h e List.mem_cons_self
    unfold Table.upsert Texts
    split
    · grind [Texts]
    · grind [Texts]

/-- An addition enters its key behind the others, unless it is there. -/
theorem keys_upsert {t : Table α} (h : t.Texts) (k : String) (start : α) (change : α → α) :
    (t.upsert (.str k) start change).map (·.1) =
      if Json.str k ∈ t.map (·.1) then t.map (·.1) else t.map (·.1) ++ [.str k] := by
  induction t with
  | nil => simp [Table.upsert]
  | cons e t ih =>
    have ih := ih fun e he => h e (List.mem_cons_of_mem _ he)
    unfold Table.upsert
    by_cases hk : e.1 = .str k
    · simp [Json.same_str, hk]
    · rw [if_neg (mt Json.same_str.1 hk), List.map_cons, List.map_cons, ih]
      simp only [List.mem_cons, Ne.symm hk, false_or]
      split <;> simp

/-- An addition lists no key twice. -/
theorem once_upsert {t : Table α} (h : t.Texts) (honce : (t.map (·.1)).Nodup) (k : String) (start : α)
    (change : α → α) : ((t.upsert (.str k) start change).map (·.1)).Nodup := by
  rw [keys_upsert h]
  split
  · exact honce
  · rename_i hnew
    refine List.nodup_append.2 ⟨honce, by simp, ?_⟩
    rintro a ha b hb rfl
    rw [List.mem_singleton] at hb
    exact hnew (hb ▸ ha)

/-- What holds of every entry still does if it does of the new and of the changed one. -/
theorem forall_upsert {P : Json × α → Prop} {t : Table α} (h : ∀ e ∈ t, P e) {k : String} {start : α}
    {change : α → α} (hnew : P (.str k, change start))
    (hchange : ∀ e ∈ t, e.1 = .str k → P (e.1, change e.2)) :
    ∀ e ∈ t.upsert (.str k) start change, P e := by
  induction t with
  | nil => simpa [Table.upsert] using hnew
  | cons e t ih =>
    have hhead := h e List.mem_cons_self
    have hrest : ∀ e ∈ t, P e := fun x hx => h x (List.mem_cons_of_mem _ hx)
    unfold Table.upsert
    by_cases hk : e.1 = .str k
    · rw [if_pos (Json.same_str.2 hk), List.forall_mem_cons]
      exact ⟨hchange e List.mem_cons_self hk, hrest⟩
    · rw [if_neg (mt Json.same_str.1 hk), List.forall_mem_cons]
      exact ⟨hhead, ih hrest fun x hx => hchange x (List.mem_cons_of_mem _ hx)⟩

/-- A table that lists no key twice binds what it lists. -/
theorem find?_of_mem {t : Table α} (h : t.Texts) (honce : (t.map (·.1)).Nodup) {e : Json × α} (he : e ∈ t) :
    t.find? e.1 = some e.2 := by
  obtain ⟨n, hn⟩ := h e he
  induction t with
  | nil => cases he
  | cons x t ih =>
    rw [List.map_cons, List.nodup_cons] at honce
    rcases List.mem_cons.1 he with rfl | he
    · simp [find?, hn, Json.same_str.2]
    · have hne : x.1 ≠ .str n := by
        intro hx
        exact honce.1 (hx ▸ hn ▸ List.mem_map_of_mem he)
      have hrest := ih (fun y hy => h y (List.mem_cons_of_mem x hy)) honce.2 he
      rw [hn] at hrest ⊢
      rwa [find?, List.find?_cons_of_neg (by simpa [Json.same_str] using hne)]

/-- A sorted table binds what the table binds. -/
theorem find?_sortOn {t : Table α} (h : t.Texts) (n : String) :
    find? (Text.sortOn (·.1.keyText) t) (.str n) = t.find? (.str n) := by
  have hhead : ∀ s : Table α, s.Texts →
      s.find? (.str n) = ((s.filter (·.1.keyText = n)).head?).map (·.2) := by
    intro s hs
    have hsame : ∀ e ∈ s, Json.same e.1 (.str n) = decide (e.1.keyText = n) := by
      intro e he
      obtain ⟨m, hm⟩ := hs e he
      simp [hm, Json.keyText, Json.same, Bool.beq_eq_decide_eq]
    rw [Table.find?, ← List.head?_filter, List.filter_congr hsame]
  rw [hhead _ fun e he => h e (Text.mem_sortOn.1 he), hhead t h, Text.filter_sortOn]

/-- Only texts are bound. -/
theorem Texts.find?_eq_none {t : Table α} (h : t.Texts) {k : Json} (hk : ∀ n, k ≠ .str n) :
    t.find? k = none := by
  refine Option.map_eq_none_iff.2 (List.find?_eq_none.2 fun e he hsame => ?_)
  obtain ⟨n, hn⟩ := h e he
  rw [hn] at hsame
  cases k with
  | str m => exact hk m rfl
  | float x => cases x <;> simp [Json.same, Json.fraction?] at hsame
  | _ => simp [Json.same, Json.fraction?] at hsame

/-- An addition changes the value at its key only. -/
theorem find?_upsert {t : Table α} (h : t.Texts) (k n : String) (start : α) (change : α → α) :
    (t.upsert (.str k) start change).find? (.str n) =
      if k = n then some (change ((t.find? (.str n)).getD start)) else t.find? (.str n) := by
  induction t with
  | nil => by_cases hk : k = n <;> simp [Table.upsert, Table.find?, Json.same, hk]
  | cons e t ih =>
    obtain ⟨m, hm⟩ := h e List.mem_cons_self
    have ih := ih fun e he => h e (List.mem_cons_of_mem _ he)
    obtain ⟨key, v⟩ := e
    obtain rfl : key = .str m := hm
    unfold Table.find? at ih
    unfold Table.upsert
    by_cases hmk : m = k
    · by_cases hk : k = n <;> simp_all [Table.find?, Json.same]
    · by_cases hmn : m = n
      · subst hmn
        simp [Table.find?, Json.same, hmk, Ne.symm hmk]
      · simp [Table.find?, Json.same, hmk, hmn, ih]

end Table

end FlowPlan

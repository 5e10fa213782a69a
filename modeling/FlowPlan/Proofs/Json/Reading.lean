import FlowPlan.Json.Reader
import FlowPlan.Proofs.Json.Reordering

/-!
# What is read from a text

The reader keeps of every mapping the last value of each key, so no mapping that is read binds a key twice.

## Main statements

* `Json.distinct_of_parse` — texts.
-/

namespace FlowPlan

namespace Json

theorem distinct_ofEntries {es : List (String × Json)} (h : ∀ e ∈ es, e.2.Distinct) :
    (Json.obj (Assoc.ofEntries es)).Distinct := by
  have hfold : ∀ fs : Fields, (Json.obj fs).Distinct →
      (Json.obj (es.foldl (fun m e => Assoc.set m e.1 e.2) fs)).Distinct := by
    induction es with
    | nil => exact fun _ hfs => hfs
    | cons e es ih =>
      intro fs hfs
      exact ih (fun x hx => h x (List.mem_cons_of_mem e hx)) _ (hfs.set (h e List.mem_cons_self) e.1)
  exact hfold [] (distinct_obj.2 ⟨by simp [Assoc.keys], by simp⟩)

theorem distinct_of_number {negative : Bool} {cs rest : List Char} {v : Json}
    (h : number? negative cs = some (v, rest)) : v.Distinct := by
  unfold number? at h
  split at h
  · cases h
  · dsimp only at h
    split at h <;> cases h <;> trivial

theorem distinct_of_literal {cs rest : List Char} {v : Json} (h : literal? cs = some (v, rest)) :
    v.Distinct := by
  obtain ⟨⟨word, w⟩, hmem, hword⟩ := List.exists_of_findSome?_eq_some h
  obtain ⟨_, -, heq⟩ := Option.map_eq_some_iff.1 hword
  cases heq
  have hall : ∀ x ∈ literals, x.2.Distinct := by simp [literals, Distinct]
  exact hall _ hmem

/-- What the reader has read after some steps binds no key twice: a value, the elements of a list if those
before do not, and the fields of a mapping if their values do not. -/
structure ReadsDistinct (fuel : Nat) : Prop where
  value : ∀ cs v rest, value? fuel cs = some (v, rest) → v.Distinct
  elements : ∀ before cs xs rest, elements? fuel before cs = some (xs, rest) →
    (∀ x ∈ before, x.Distinct) → ∀ x ∈ xs, x.Distinct
  members : ∀ before cs fs rest, members? fuel before cs = some (fs, rest) →
    (∀ e ∈ before, e.2.Distinct) → (Json.obj fs).Distinct

namespace ReadsDistinct

variable {fuel : Nat} {cs rest : List Char}

theorem value_succ (ih : ReadsDistinct fuel) {v : Json} (h : value? (fuel + 1) cs = some (v, rest)) :
    v.Distinct := by
  unfold value? at h
  split at h
  · obtain ⟨_, -, heq⟩ := Option.map_eq_some_iff.1 h
    cases heq
    trivial
  · split at h
    · cases h
      simp [Distinct, DistinctList]
    · obtain ⟨⟨xs, _⟩, hxs, heq⟩ := Option.map_eq_some_iff.1 h
      cases heq
      exact distinct_arr.2 (ih.elements _ _ _ _ hxs (by simp))
  · split at h
    · cases h
      simp [Distinct, DistinctFields, Assoc.keys]
    · obtain ⟨⟨fs, _⟩, hfs, heq⟩ := Option.map_eq_some_iff.1 h
      cases heq
      exact ih.members _ _ _ _ hfs (by simp)
  -- With and without a sign, a literal comes before a number.
  all_goals
    split at h
    · rename_i hliteral
      exact distinct_of_literal (h ▸ hliteral)
    · exact distinct_of_number h

theorem elements_succ (ih : ReadsDistinct fuel) {before xs : List Json}
    (h : elements? (fuel + 1) before cs = some (xs, rest)) (hbefore : ∀ x ∈ before, x.Distinct) :
    ∀ x ∈ xs, x.Distinct := by
  unfold elements? at h
  split at h
  · cases h
  · rename_i v after hv
    have hall : ∀ x ∈ v :: before, x.Distinct := List.forall_mem_cons.2 ⟨ih.value _ _ _ hv, hbefore⟩
    split at h
    · exact ih.elements _ _ _ _ h hall
    · cases h
      exact fun x hx => hall x (List.mem_reverse.1 hx)
    · cases h

theorem members_succ (ih : ReadsDistinct fuel) {before : List (String × Json)} {fs : Fields}
    (h : members? (fuel + 1) before cs = some (fs, rest)) (hbefore : ∀ e ∈ before, e.2.Distinct) :
    (Json.obj fs).Distinct := by
  unfold members? at h
  split at h
  · split at h
    · cases h
    · split at h
      · split at h
        · cases h
        · rename_i v after hv
          have hall : ∀ name : String, ∀ e ∈ (name, v) :: before, e.2.Distinct := fun name =>
            List.forall_mem_cons.2 ⟨ih.value _ _ _ hv, hbefore⟩
          dsimp only at h
          split at h
          · exact ih.members _ _ _ _ h (hall _)
          · cases h
            exact distinct_ofEntries fun e he => hall _ e (List.mem_reverse.1 he)
          · cases h
      · cases h
  · cases h

end ReadsDistinct

theorem readsDistinct (fuel : Nat) : ReadsDistinct fuel := by
  induction fuel with
  | zero => exact ⟨by simp [value?], by simp [elements?], by simp [members?]⟩
  | succ fuel ih =>
    exact ⟨fun _ _ _ => ih.value_succ, fun _ _ _ _ => ih.elements_succ, fun _ _ _ _ => ih.members_succ⟩

theorem distinct_of_parse {text : List Char} {v : Json} (h : parse? text = some v) : v.Distinct := by
  unfold parse? at h
  split at h
  · rename_i w rest hw
    split at h
    · cases h
      exact (readsDistinct _).value _ _ _ hw
    · cases h
  · cases h

end Json

end FlowPlan

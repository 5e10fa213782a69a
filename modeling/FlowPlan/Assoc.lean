/-!
# Maps that remember insertion order

A map is its list of entries. Writing to a key that is present keeps the entry's place; a new key
goes to the end. Every operation is described by what `find?` and `keys` return afterwards.
-/

namespace FlowPlan

/-- A finite map as the list of its entries, oldest first. -/
abbrev Assoc (κ : Type u) (α : Type v) := List (κ × α)

namespace Assoc

variable {κ : Type u} {α : Type v} [DecidableEq κ]

/-- The value bound to a key. -/
def find? (m : Assoc κ α) (k : κ) : Option α := List.lookup k m

def contains (m : Assoc κ α) (k : κ) : Bool := m.any (·.1 = k)

def keys (m : Assoc κ α) : List κ := m.map (·.1)

/-- Bind a key, in place if it is present and at the end otherwise. -/
def set (m : Assoc κ α) (k : κ) (v : α) : Assoc κ α :=
  match m with
  | [] => [(k, v)]
  | e :: rest => if e.1 = k then (k, v) :: rest else e :: set rest k v

/-- Remove a key. -/
def erase (m : Assoc κ α) (k : κ) : Assoc κ α := m.filter (·.1 ≠ k)

/-- Later entries win; the first one decides the place. -/
def ofEntries (entries : List (κ × α)) : Assoc κ α :=
  entries.foldl (fun m e => set m e.1 e.2) []

@[simp] theorem find?_nil (k : κ) : find? ([] : Assoc κ α) k = none := rfl

theorem find?_cons (e : κ × α) (m : Assoc κ α) (k : κ) :
    find? (e :: m) k = if e.1 = k then some e.2 else find? m k := by
  obtain ⟨a, b⟩ := e
  by_cases h : a = k
  · simp [find?, h]
  · have : (k == a) = false := by simpa using fun h' => h h'.symm
    simp [find?, List.lookup_cons, this, h]

theorem mem_of_find? {m : Assoc κ α} {k : κ} {v : α} (h : find? m k = some v) : (k, v) ∈ m := by
  induction m with
  | nil => cases h
  | cons e m ih =>
    rw [find?_cons] at h
    split at h
    · subst_vars
      cases h
      exact List.mem_cons_self
    · exact List.mem_cons_of_mem e (ih h)

theorem find?_of_mem {m : Assoc κ α} (hnodup : (m.map (·.1)).Nodup) {k : κ} {v : α}
    (h : (k, v) ∈ m) : find? m k = some v := by
  induction m with
  | nil => cases h
  | cons e m ih =>
    rw [List.map_cons, List.nodup_cons] at hnodup
    rw [find?_cons]
    rcases List.mem_cons.1 h with rfl | h
    · exact if_pos rfl
    · rw [if_neg, ih hnodup.2 h]
      intro heq
      exact hnodup.1 (heq ▸ List.mem_map_of_mem (f := (·.1)) h)

theorem find?_eq_none_iff {m : Assoc κ α} {k : κ} : find? m k = none ↔ k ∉ keys m := by
  induction m with
  | nil => simp [keys]
  | cons e m ih =>
    rw [find?_cons]
    by_cases h : e.1 = k
    · simp [keys, h]
    · rw [if_neg h, ih]
      simp [keys, Ne.symm h]

/-- Where no key is repeated, an entry is known by its key. -/
theorem eq_of_key {m : Assoc κ α} (hnodup : (m.map (·.1)).Nodup) {e e' : κ × α} (he : e ∈ m)
    (he' : e' ∈ m) (hkey : e.1 = e'.1) : e = e' := by
  have h := find?_of_mem hnodup he
  rw [hkey, find?_of_mem hnodup he'] at h
  exact Prod.ext hkey (Option.some.inj h).symm

theorem contains_iff {m : Assoc κ α} {k : κ} : contains m k = true ↔ k ∈ keys m := by
  simp [contains, keys]

/-- A new key goes to the end. -/
theorem set_of_not_mem {m : Assoc κ α} {k : κ} (h : k ∉ keys m) (v : α) : set m k v = m ++ [(k, v)] := by
  induction m with
  | nil => rfl
  | cons e m ih =>
    simp only [keys, List.map_cons, List.mem_cons, not_or] at h
    rw [set, if_neg (Ne.symm h.1), ih h.2, List.cons_append]

theorem keys_set_of_mem {m : Assoc κ α} {k : κ} (h : k ∈ keys m) (v : α) : keys (set m k v) = keys m := by
  induction m with
  | nil => cases h
  | cons e m ih =>
    by_cases he : e.1 = k
    · simp [set, he, keys]
    · have hm : k ∈ keys m := by simpa [keys, Ne.symm he] using h
      rw [set, if_neg he, keys, List.map_cons, ← keys, ih hm]
      rfl

theorem nodup_set {m : Assoc κ α} (h : (keys m).Nodup) (k : κ) (v : α) : (keys (set m k v)).Nodup := by
  by_cases hk : k ∈ keys m
  · rwa [keys_set_of_mem hk]
  · rw [set_of_not_mem hk, keys, List.map_append, ← keys]
    refine List.nodup_append.2 ⟨h, by simp, ?_⟩
    rintro a ha b hb rfl
    obtain rfl : a = k := by simpa using hb
    exact hk ha

/-- The key that was written reads back; every other key reads as before. -/
theorem find?_set (m : Assoc κ α) (k k' : κ) (v : α) :
    find? (set m k v) k' = if k = k' then some v else find? m k' := by
  induction m with
  | nil => simp [set, find?_cons]
  | cons e m ih =>
    by_cases h : e.1 = k
    · by_cases h' : k = k' <;> simp [set, h, h', find?_cons]
    · rw [set, if_neg h, find?_cons, find?_cons, ih]
      by_cases h' : e.1 = k'
      · rw [if_pos h', if_pos h', if_neg (by rintro rfl; exact h h')]
      · rw [if_neg h', if_neg h']

/-- An erased key is gone; every other key reads as before. -/
theorem find?_erase (m : Assoc κ α) (k k' : κ) :
    find? (erase m k) k' = if k = k' then none else find? m k' := by
  induction m with
  | nil => simp [erase]
  | cons e m ih =>
    unfold erase at *
    by_cases h : e.1 = k
    · by_cases h' : k = k' <;> simp_all [find?_cons]
    · by_cases h' : e.1 = k'
      · rw [List.filter_cons_of_pos (by simpa using h), find?_cons, find?_cons, if_pos h', if_pos h',
          if_neg (by rintro rfl; exact h h')]
      · rw [List.filter_cons_of_pos (by simpa using h), find?_cons, find?_cons, if_neg h', if_neg h', ih]

end Assoc

end FlowPlan

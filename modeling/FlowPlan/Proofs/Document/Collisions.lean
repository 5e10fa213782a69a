import FlowPlan.Proofs.Document.Sorted
import Mathlib.Data.List.Dedup

/-!
# Recorded collisions

A document records the names that are defined more than once. Names are only added to what it records
already, and what results depends on neither the order of the names nor the order of keys.

## Main definitions

* `Text.repeated`, `Text.common` — the names that a list has several times, or shares with another one.
* `Document.collisionsOf` — what a document records.
* `Document.recorded` — names added to what is recorded.

## Main statements

* `Document.recordCollisions_both` — the document that results.
* `Document.foldlM_recorded_names`, `Document.foldlM_recorded_none` — several additions.
* `Document.foldlM_recorded_alike` — the order of keys does not matter.
-/

namespace FlowPlan

/-! ## Names in common -/

namespace Text

/-- The names that are listed more than once, in order. -/
def repeated (ns : List String) : List String := sort (ns.dedup.filter (1 < ns.count ·))

/-- The names of the first list that are in the second one as well, in order. -/
def common (ns ms : List String) : List String := sort (ns.dedup.filter (· ∈ ms))

variable {ns ns' ms ms' : List String} {n : String}

theorem mem_sort : n ∈ sort ns ↔ n ∈ ns := mem_sortOn

theorem mem_filter_count : n ∈ ns.dedup.filter (1 < ns.count ·) ↔ 1 < ns.count n := by
  rw [List.mem_filter, List.mem_dedup, decide_eq_true_eq]
  exact ⟨And.right, fun h => ⟨List.count_pos_iff.1 (by omega), h⟩⟩

theorem mem_repeated : n ∈ repeated ns ↔ 1 < ns.count n := by
  rw [repeated, mem_sort, mem_filter_count]

theorem mem_common : n ∈ common ns ms ↔ n ∈ ns ∧ n ∈ ms := by
  rw [common, mem_sort, List.mem_filter, List.mem_dedup, decide_eq_true_eq]

theorem repeated_eq_nil : repeated ns = [] ↔ ns.Nodup := by
  simp only [List.eq_nil_iff_forall_not_mem, mem_repeated, List.nodup_iff_count_le_one, Nat.not_lt]

theorem common_eq_nil : common ns ms = [] ↔ ∀ n ∈ ns, n ∉ ms := by
  simp only [List.eq_nil_iff_forall_not_mem, mem_common, not_and]

/-- A list of different names has these names in order if it has the same ones. -/
theorem sort_eq_repeated (hms : ms.Nodup) (hmem : ∀ n, n ∈ ms ↔ 1 < ns.count n) :
    sort ms = repeated ns := by
  refine sort_eq_of_mem hms (ns.nodup_dedup.filter _) fun n => ?_
  rw [hmem, mem_filter_count]

theorem sort_eq_common (hms : ms.Nodup) (hmem : ∀ n, n ∈ ms ↔ n ∈ ns ∧ n ∈ ns') :
    sort ms = common ns ns' := by
  refine sort_eq_of_mem hms (ns.nodup_dedup.filter _) fun n => ?_
  rw [hmem, List.mem_filter, List.mem_dedup, decide_eq_true_eq]

theorem repeated_of_perm (h : ns.Perm ms) : repeated ns = repeated ms := by
  refine sort_eq_repeated (ns.nodup_dedup.filter _) fun n => ?_
  rw [mem_filter_count, h.count_eq]

theorem common_of_mem (hns : ∀ n, n ∈ ns ↔ n ∈ ms) (hns' : ∀ n, n ∈ ns' ↔ n ∈ ms') :
    common ns ns' = common ms ms' := by
  refine sort_eq_common (ns.nodup_dedup.filter _) fun n => ?_
  rw [List.mem_filter, List.mem_dedup, decide_eq_true_eq, hns, hns']

end Text

/-! ## Sets of names -/

namespace Json

/-- The set of the names in a list, in order. -/
theorem distinct_sortSet_texts (ns : List String) :
    (distinct (ns.map Json.str) >>= sortSet) = .ok ((Text.sort ns.dedup).map .str) := by
  obtain ⟨ms, hms, hmem, hnodup⟩ := distinct_texts ns
  rw [hms, Attempt.ok_bind, sortSet_texts,
    Text.sort_eq_of_mem hnodup ns.nodup_dedup fun n => by rw [hmem, List.mem_dedup]]

theorem sortKeys_of_hashable {v : Json} (h : v.isHashable = true) : v.sortKeys = v := by
  cases v <;> simp_all [isHashable, sortKeys]

theorem isHashable_sortKeys (v : Json) : v.sortKeys.isHashable = v.isHashable := by
  cases v <;> simp [sortKeys, isHashable]

/-- Values that can be keys have one form only. -/
theorem Alike.eq_of_hashable {v w : Json} (h : v.Alike w) (hv : v.isHashable = true) : v = w := by
  have hw : w.isHashable = true := by rw [← isHashable_sortKeys, ← h, isHashable_sortKeys, hv]
  rw [← sortKeys_of_hashable hv, h, sortKeys_of_hashable hw]

theorem eq_of_map_sortKeys {xs ys : List Json} (h : xs.map sortKeys = ys.map sortKeys)
    (hxs : ∀ x ∈ xs, x.isHashable = true) : xs = ys := by
  induction xs generalizing ys with
  | nil => simpa [eq_comm] using h
  | cons x xs ih =>
    cases ys with
    | nil => simp at h
    | cons y ys =>
      rw [List.map_cons, List.map_cons, List.cons.injEq] at h
      rw [Alike.eq_of_hashable h.1 (hxs x List.mem_cons_self),
        ih h.2 fun z hz => hxs z (List.mem_cons_of_mem x hz)]

theorem hashable_of_distinct {xs ys : List Json} (h : distinct xs = .ok ys) :
    ∀ x ∈ xs, x.isHashable = true := by
  unfold distinct at h
  split at h
  · cases h
  · rename_i hnone
    simpa using hnone

theorem mem_of_insertDistinct {seen xs : List Json} {x : Json}
    (hx : x ∈ xs.foldl insertDistinct seen) : x ∈ seen ∨ x ∈ xs := by
  induction xs generalizing seen with
  | nil => exact .inl hx
  | cons y xs ih =>
    rcases ih hx with hx | hx
    · unfold insertDistinct at hx
      split at hx
      · exact .inl hx
      · rcases List.mem_append.1 hx with hx | hx
        · exact .inl hx
        · exact .inr (List.mem_singleton.1 hx ▸ List.mem_cons_self)
    · exact .inr (List.mem_cons_of_mem y hx)

theorem mem_of_sortSet {xs ys : List Json} (h : sortSet xs = .ok ys) {y : Json} (hy : y ∈ ys) : y ∈ xs := by
  unfold sortSet sortValues sortOnValue at h
  dsimp only at h
  split at h
  · cases h
  · cases h
    rw [List.mem_mergeSort, List.mem_append, List.mem_filter, List.mem_filter] at hy
    exact hy.elim And.left And.left

/-- A set of values has no mappings in it. -/
theorem hashable_of_set {xs ys : List Json} (h : (distinct xs >>= sortSet) = .ok ys) :
    ∀ y ∈ ys, y.isHashable = true := by
  obtain ⟨zs, hzs, hys⟩ := Attempt.bind_eq_ok.1 h
  intro y hy
  have hhashable := hashable_of_distinct hzs
  unfold distinct at hzs
  split at hzs
  · cases hzs
  · cases hzs
    rcases mem_of_insertDistinct (mem_of_sortSet hys hy) with hmem | hmem
    · cases hmem
    · exact hhashable y hmem

end Json

namespace Document

/-- What the document records as defined more than once. -/
def collisionsOf (document : Fields) : Option Json := part? document "execution" collisionsField

/-- Names are added to what is recorded. Where there are none, nothing is touched. -/
def recorded (given : Option Json) (names : List String) : Attempt (Option Json) :=
  if names.isEmpty then .ok given
  else do
    let existing ← (given.getD (.arr [])).elements
    return some (.arr (← Json.distinct (existing ++ names.map .str) >>= Json.sortSet))

/-- The document records these names. -/
def Records (document : Fields) (names : List String) : Prop :=
  (collisionsOf document).getD (.arr []) = .arr (names.map .str)

variable {document document' : Fields} {given given' : Option Json} {names : List String}
  {nss : List (List String)}

theorem collisionsOf_sorted (document : Fields) :
    collisionsOf (sorted document) = (collisionsOf document).map Json.sortKeys :=
  part?_sorted document _ _

theorem Records.sorted (h : Records document names) : Records (sorted document) names := by
  unfold Records at *
  rw [collisionsOf_sorted]
  cases hpart : collisionsOf document with
  | none => rwa [hpart] at h
  | some v =>
    rw [hpart] at h
    obtain rfl : v = _ := h
    simp

/-- The document changes in what it records only. -/
theorem recordCollisions_both (hopen : MayOpen document "execution") (names : List String) :
    Attempt.Both (fun v c => ∃ document', v = .obj document' ∧ collisionsOf document' = c ∧
        Changes [("execution", collisionsField)] document document' ∧
        ∀ o, MayOpen document o → MayOpen document' o)
      (recordCollisions (.obj document) names) (recorded (collisionsOf document) names) := by
  unfold recordCollisions recorded
  split
  · exact .ok ⟨document, rfl, rfl, .refl _ _, fun _ => id⟩
  · obtain ⟨fs, hfs⟩ := hopen.ensured
    rw [Json.fieldsFor_obj, Attempt.ok_bind, collisionsOf, ← part?_ensureSection document "execution",
      part?_of_open hfs]
    dsimp only
    rw [hfs, Option.getD_some, Json.getD_obj, Attempt.ok_bind]
    refine Attempt.Both.bind (.same _) ?_
    rintro existing _ rfl
    rw [bind_assoc]
    refine Attempt.Both.bind (.same _) ?_
    rintro values _ rfl
    refine Attempt.Both.bind (.same _) ?_
    rintro sorted _ rfl
    have hputs := setInSection_puts hopen collisionsField (.arr sorted)
    exact .ok ⟨_, rfl, hputs.own_part, hputs.changes, fun _ => hputs.mayOpen⟩

/-! ## Several additions -/

/-- A record of names becomes a record of names: those of before and the ones that are added. -/
theorem recorded_texts {ns : List String} (h : given.getD (.arr []) = .arr (ns.map .str))
    (names : List String) : ∃ (c : Option Json) (ks : List String), recorded given names = .ok c ∧
      c.getD (.arr []) = .arr (ks.map Json.str) ∧ ∀ n, n ∈ ks ↔ n ∈ ns ∨ n ∈ names := by
  cases names with
  | nil => exact ⟨given, ns, rfl, h, by simp⟩
  | cons n names =>
    refine ⟨some (.arr ((Text.sort (ns ++ n :: names).dedup).map .str)), _, ?_, rfl, fun m => ?_⟩
    · unfold recorded
      rw [if_neg (by simp), h, Json.elements_arr, Attempt.ok_bind, ← List.map_append,
        Json.distinct_sortSet_texts, Attempt.ok_bind]
      rfl
    · rw [Text.mem_sort, List.mem_dedup, List.mem_append]

theorem foldlM_recorded_names {ns : List String} (h : given.getD (.arr []) = .arr (ns.map .str))
    (nss : List (List String)) : ∃ (c : Option Json) (ks : List String),
      nss.foldlM recorded given = .ok c ∧ c.getD (.arr []) = .arr (ks.map Json.str) ∧
      ∀ n, n ∈ ks ↔ n ∈ ns ∨ ∃ names ∈ nss, n ∈ names := by
  induction nss generalizing given ns with
  | nil => exact ⟨given, ns, rfl, h, by simp⟩
  | cons names nss ih =>
    obtain ⟨c, ks, hstep, hc, hks⟩ := recorded_texts h names
    obtain ⟨c', ks', hrest, hc', hks'⟩ := ih hc
    refine ⟨c', ks', ?_, hc', fun n => ?_⟩
    · rw [List.foldlM_cons, hstep, Attempt.ok_bind, hrest]
    · simp [hks', hks, or_assoc]

/-- What is made of several lists has no names if none of them has. -/
theorem eq_nil_of_names {ks ns : List String} (h : ∀ n, n ∈ ks ↔ n ∈ ns ∨ ∃ names ∈ nss, n ∈ names) :
    ks = [] ↔ ns = [] ∧ ∀ names ∈ nss, names = [] := by
  simp only [List.eq_nil_iff_forall_not_mem, h, not_or, not_exists, not_and, forall_and]
  exact and_congr_right fun _ => ⟨fun hnone names hnames n => hnone n names hnames,
    fun hnone n names hnames => hnone names hnames n⟩

theorem foldlM_recorded_texts {ns : List String} (h : given.getD (.arr []) = .arr (ns.map .str))
    (nss : List (List String)) : ∃ c ks, nss.foldlM recorded given = .ok c ∧
      c.getD (.arr []) = .arr (ks.map Json.str) ∧ (ks = [] ↔ ns = [] ∧ ∀ names ∈ nss, names = []) := by
  obtain ⟨c, ks, hrun, hc, hks⟩ := foldlM_recorded_names h nss
  exact ⟨c, ks, hrun, hc, eq_nil_of_names hks⟩

theorem recorded_eq_none : recorded given names = .ok none ↔ given = none ∧ names = [] := by
  unfold recorded
  split
  · rename_i hempty
    simp [List.isEmpty_iff.1 hempty]
  · rename_i hsome
    constructor
    · intro h
      obtain ⟨existing, -, h⟩ := Attempt.bind_eq_ok.1 h
      obtain ⟨values, -, h⟩ := Attempt.bind_eq_ok.1 h
      cases h
    · rintro ⟨-, rfl⟩
      simp at hsome

/-- Nothing is recorded if nothing was, and nothing is added. -/
theorem foldlM_recorded_none :
    nss.foldlM recorded given = .ok none ↔ given = none ∧ ∀ names ∈ nss, names = [] := by
  induction nss generalizing given with
  | nil => simp [Attempt.pure_eq_ok]
  | cons names nss ih =>
    rw [List.foldlM_cons, Attempt.bind_eq_ok, List.forall_mem_cons]
    constructor
    · rintro ⟨c, hstep, hrest⟩
      obtain ⟨rfl, hnss⟩ := ih.1 hrest
      obtain ⟨hgiven, hnames⟩ := recorded_eq_none.1 hstep
      exact ⟨hgiven, hnames, hnss⟩
    · rintro ⟨hgiven, hnames, hnss⟩
      exact ⟨none, recorded_eq_none.2 ⟨hgiven, hnames⟩, ih.2 ⟨rfl, hnss⟩⟩

/-! ## The order of keys -/

/-- What is recorded has no mappings in it, except for what was there before. -/
theorem recorded_distinct {c : Option Json} (h : recorded given names = .ok c)
    (hgiven : ∀ v ∈ given, v.Distinct) : ∀ v ∈ c, v.Distinct := by
  unfold recorded at h
  split at h
  · cases h
    exact hgiven
  · obtain ⟨existing, -, h⟩ := Attempt.bind_eq_ok.1 h
    obtain ⟨values, hvalues, h⟩ := Attempt.bind_eq_ok.1 h
    cases h
    rintro v hv
    cases hv
    refine Json.distinct_arr.2 fun x hx => ?_
    have hhashable := Json.hashable_of_set hvalues x hx
    cases x <;> simp_all [Json.isHashable, Json.Distinct]

theorem foldlM_recorded_distinct {c : Option Json} (h : nss.foldlM recorded given = .ok c)
    (hgiven : ∀ v ∈ given, v.Distinct) : ∀ v ∈ c, v.Distinct := by
  induction nss generalizing given with
  | nil =>
    cases h
    exact hgiven
  | cons names nss ih =>
    rw [List.foldlM_cons] at h
    obtain ⟨c', hstep, hrest⟩ := Attempt.bind_eq_ok.1 h
    exact ih hrest (recorded_distinct hstep hgiven)

/-- The parts that alike values list are the same as long as they can be in a set, and the keys of a
mapping are the same up to their order. -/
theorem set_alike {v w : Json} (halike : v.Alike w) {existing : List Json} (names : List String)
    (hv : v.elements = .ok existing) {values : List Json}
    (hvalues : (Json.distinct (existing ++ names.map .str) >>= Json.sortSet) = .ok values) :
    ∃ existing', w.elements = .ok existing' ∧
      (Json.distinct (existing' ++ names.map .str) >>= Json.sortSet) = .ok values := by
  cases v with
  | obj fs =>
    obtain ⟨gs, rfl⟩ : ∃ gs, w = .obj gs := by
      cases w with
      | obj gs => exact ⟨gs, rfl⟩
      | _ => simp [Json.Alike, Json.sortKeys] at halike
    have hkeys : (Assoc.keys fs).Perm (Assoc.keys gs) := Json.Alike.keys halike
    have htexts : ∀ hs : Fields, (hs.map fun f => Json.str f.1) ++ names.map Json.str =
        (Assoc.keys hs ++ names).map Json.str := by
      intro hs
      rw [List.map_append, Assoc.keys, List.map_map]
      rfl
    cases hv
    refine ⟨_, rfl, ?_⟩
    rw [htexts, Json.distinct_sortSet_texts] at hvalues ⊢
    rw [← hvalues]
    refine congrArg (fun ns : List String => Except.ok (ns.map Json.str)) ?_
    refine Text.sort_eq_of_mem (List.nodup_dedup _) (List.nodup_dedup _) fun n => ?_
    simp [hkeys.mem_iff]
  | arr xs =>
    obtain ⟨ys, rfl⟩ : ∃ ys, w = .arr ys := by
      cases w with
      | arr ys => exact ⟨ys, rfl⟩
      | _ => simp [Json.Alike, Json.sortKeys] at halike
    rw [Json.Alike, Json.sortKeys, Json.sortKeys, Json.sortKeysList_eq_map, Json.sortKeysList_eq_map,
      Json.arr.injEq] at halike
    cases hv
    obtain ⟨zs, hzs, -⟩ := Attempt.bind_eq_ok.1 hvalues
    obtain rfl : existing = ys := Json.eq_of_map_sortKeys halike fun x hx =>
      Json.hashable_of_distinct hzs x (List.mem_append_left _ hx)
    exact ⟨existing, rfl, hvalues⟩
  | _ => exact ⟨existing, halike.eq_of_hashable rfl ▸ hv, hvalues⟩

theorem recorded_alike (halike : given.map Json.sortKeys = given'.map Json.sortKeys) {c : Option Json}
    (h : recorded given names = .ok c) :
    ∃ c', recorded given' names = .ok c' ∧ c.map Json.sortKeys = c'.map Json.sortKeys := by
  unfold recorded at *
  by_cases hempty : names.isEmpty = true
  · rw [if_pos hempty] at h ⊢
    cases h
    exact ⟨given', rfl, halike⟩
  · rw [if_neg hempty] at h ⊢
    obtain ⟨existing, hexisting, h⟩ := Attempt.bind_eq_ok.1 h
    obtain ⟨values, hvalues, h⟩ := Attempt.bind_eq_ok.1 h
    have hgetD : (given.getD (.arr [])).Alike (given'.getD (.arr [])) := by
      cases given <;> cases given' <;> simp_all [Json.Alike]
    obtain ⟨existing', hexisting', hvalues'⟩ := set_alike hgetD names hexisting hvalues
    rw [hexisting', Attempt.ok_bind, hvalues', Attempt.ok_bind]
    exact ⟨c, h, rfl⟩

/-- The same names are recorded whatever the order of keys. -/
theorem foldlM_recorded_alike (halike : given.map Json.sortKeys = given'.map Json.sortKeys)
    {c : Option Json} (h : nss.foldlM recorded given = .ok c) :
    ∃ c', nss.foldlM recorded given' = .ok c' ∧ c.map Json.sortKeys = c'.map Json.sortKeys := by
  induction nss generalizing given given' with
  | nil =>
    cases h
    exact ⟨given', rfl, halike⟩
  | cons names nss ih =>
    rw [List.foldlM_cons] at h
    obtain ⟨c₁, hstep, hrest⟩ := Attempt.bind_eq_ok.1 h
    obtain ⟨c₁', hstep', halike'⟩ := recorded_alike halike hstep
    obtain ⟨c', hrest', hc⟩ := ih halike' hrest
    exact ⟨c', by rw [List.foldlM_cons, hstep', Attempt.ok_bind, hrest'], hc⟩

end Document

end FlowPlan

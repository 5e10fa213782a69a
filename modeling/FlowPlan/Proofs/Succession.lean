import FlowPlan.Proofs.Plan.KeyOrder
import Mathlib

/-!
# Which definition stands

Two definitions of a section can get one name, and an extractor can get the name of a process that was given.
Of the definitions of a section the last one stands, and extractors stand in place of given processes. Every
such name is recorded, so a definition whose name is not recorded has been kept.

## Main definitions

* `Document.Contested` — two definitions of a section get one name.
* `Document.lastOf` — the last definition of a section that gets a name.
* `Document.Stands`, `Document.Joins` — what stands in a section, and among the processes.
* `Document.Succession` — what has become of the definitions of a document.

## Main statements

* `Document.find?_gathered` — under its name the last definition stands.
* `Document.qualify_succession` — a raw document is qualified, and no definition is dropped silently.
-/

namespace FlowPlan

namespace Document

open Definition

/-- Two definitions of the section, under different keys, get the name. -/
def Contested (kind : Kind) (es : Fields) (n : String) : Prop :=
  ∃ a ∈ Assoc.keys es, ∃ b ∈ Assoc.keys es, a ≠ b ∧ kind.qualify a = n ∧ kind.qualify b = n

/-- The last definition of the section that gets the name. -/
def lastOf (kind : Kind) (es : Fields) (n : String) : Option (String × Json) :=
  es.reverse.find? fun e => kind.qualify e.1 = n

/-- What stands in a section once it is qualified: under each name the last definition that gets it, and
with that every definition whose name is not listed. -/
structure Stands (kind : Kind) (listed : List String) (es q : Fields) : Prop where
  keys : ∀ n, n ∈ Assoc.keys q ↔ ∃ e ∈ es, kind.qualify e.1 = n
  last : ∀ n e, lastOf kind es n = some e →
    ∃ v, qualifyEntry e.2 = .ok v ∧ Assoc.find? q n = some v
  unlisted : ∀ e ∈ es, kind.qualify e.1 ∉ listed →
    ∃ v, qualifyEntry e.2 = .ok v ∧ Assoc.find? q (kind.qualify e.1) = some v

/-- What stands among the processes: the extractors, and beside them every given process whose name no
extractor gets, be the name listed or not. A given process whose name is not listed is one of those. -/
structure Joins (listed : List String) (given es pr : Fields) : Prop where
  keys : ∀ n, n ∈ Assoc.keys pr ↔ n ∈ Assoc.keys given ∨ n ∈ Assoc.keys es
  extractors : ∀ n ∈ Assoc.keys es, Assoc.find? pr n = Assoc.find? es n
  others : ∀ n, n ∉ Assoc.keys es → Assoc.find? pr n = Assoc.find? given n
  unlisted : ∀ n ∈ Assoc.keys given, n ∉ listed → Assoc.find? pr n = Assoc.find? given n

/-- More than one definition of the document gets the name. -/
def Shared (document : Fields) (n : String) : Prop :=
  Contested .process (entriesIn document "extraction" "extractors") n ∨
    Contested .factor (entriesIn document "inference" "factors") n ∨
    (∃ e ∈ entriesIn document "extraction" "extractors", Kind.process.qualify e.1 = n) ∧
      n ∈ Assoc.keys (entriesIn document "execution" "processes")

/-- What has become of the definitions of a document that recorded some names before. The names that are
listed now are those and the shared ones; where there are none, nothing is recorded that was not. Parts
that hold no definitions are as they were. -/
structure Succession (document document' : Fields) (names listed : List String) (es fa pr : Fields) :
    Prop where
  records : Records document' listed
  mem_listed : ∀ n, n ∈ listed ↔ n ∈ names ∨ Shared document n
  unrecorded : collisionsOf document' = none ↔ collisionsOf document = none ∧ listed = []
  holds : Holds document' es fa pr
  extractors : Stands .process listed (entriesIn document "extraction" "extractors") es
  factors : Stands .factor listed (entriesIn document "inference" "factors") fa
  processes : Joins listed (entriesIn document "execution" "processes") es pr
  changes : Changes qualifiedParts document document'

variable {document es pr : Fields} {kind : Kind} {names listed : List String} {n : String}
  {e : String × Json}

/-! ## One section -/

theorem qualifyEntry_of_raw (hes : RawEntries es) (he : e ∈ es) (kind : Kind) :
    qualifyEntry e.2 = .ok (qualified kind e).2 := by
  obtain ⟨fs, path, hfs, hcheck⟩ := hes e he
  obtain ⟨m, v⟩ := e
  obtain rfl : v = .obj fs := hfs
  exact qualifyEntry_raw kind m hcheck

/-- A name is contested if it is there more than once among those that the definitions get. -/
theorem contested_iff (h : (Assoc.keys es).Nodup) :
    Contested kind es n ↔ 1 < (qualifiedKeys kind es).count n := by
  have hcount : (qualifiedKeys kind es).count n =
      ((Assoc.keys es).filter (kind.qualify · = n)).toFinset.card := by
    rw [List.toFinset_card_of_nodup (h.filter _), ← List.countP_eq_length_filter, qualifiedKeys,
      Assoc.keys, List.countP_map, List.count_eq_countP, List.countP_map]
    rfl
  rw [hcount, Finset.one_lt_card]
  simp only [Contested, List.mem_toFinset, List.mem_filter, decide_eq_true_eq]
  grind

/-- Under its name the last definition stands. -/
theorem find?_gathered (kind : Kind) (es : Fields) (n : String) :
    Assoc.find? (gathered kind es) n = (lastOf kind es n).map fun e => (qualified kind e).2 := by
  rw [gathered, Assoc.ofEntries, Assoc.find?_foldl_set, Assoc.find?_nil, Option.or_none,
    ← List.map_reverse]
  exact Assoc.find?_map_entries (fun e => kind.qualify e.1) (fun e => (qualified kind e).2) es.reverse n

/-- A definition whose name is not contested is the last one that gets it. -/
theorem lastOf_of_not_contested (h : (Assoc.keys es).Nodup) (he : e ∈ es)
    (hnot : ¬ Contested kind es (kind.qualify e.1)) : lastOf kind es (kind.qualify e.1) = some e := by
  cases hlast : lastOf kind es (kind.qualify e.1) with
  | none => simpa using List.find?_eq_none.1 hlast e (List.mem_reverse.2 he)
  | some d =>
    have hname : kind.qualify d.1 = kind.qualify e.1 := by simpa using List.find?_some hlast
    have hd : d ∈ es := List.mem_reverse.1 (List.mem_of_find?_eq_some hlast)
    refine congrArg some (Assoc.eq_of_key h hd he ?_)
    by_contra hne
    exact hnot ⟨d.1, List.mem_map_of_mem hd, e.1, List.mem_map_of_mem he, hne, hname, rfl⟩

theorem stands_gathered (hnodup : (Assoc.keys es).Nodup) (hes : RawEntries es)
    (hlisted : ∀ n, Contested kind es n → n ∈ listed) : Stands kind listed es (gathered kind es) := by
  have hlast : ∀ n e, lastOf kind es n = some e →
      ∃ v, qualifyEntry e.2 = .ok v ∧ Assoc.find? (gathered kind es) n = some v := by
    intro n e h
    refine ⟨_, qualifyEntry_of_raw hes (List.mem_reverse.1 (List.mem_of_find?_eq_some h)) kind, ?_⟩
    rw [find?_gathered, h]
    rfl
  refine ⟨fun n => ?_, hlast, fun e he hnot => hlast _ e (lastOf_of_not_contested hnodup he ?_)⟩
  · rw [(gathers_gathered kind es).keys, qualifiedKeys, List.mem_map]
  · exact mt (hlisted _) hnot

/-! ## The processes -/

/-- A given process whose name no extractor gets stays what it was. -/
theorem find?_mergeFields_of_not_mem (hes : (Assoc.keys es).Nodup) (hn : n ∉ Assoc.keys es) :
    Assoc.find? (mergeFields pr es).1 n = Assoc.find? pr n := by
  rw [find?_mergeFields hes, Assoc.find?_eq_none_iff.2 hn, Option.none_or]

theorem joins_mergeFields (hes : (Assoc.keys es).Nodup)
    (hlisted : ∀ n ∈ Assoc.keys es, n ∈ Assoc.keys pr → n ∈ listed) :
    Joins listed pr es (mergeFields pr es).1 where
  keys n := Assoc.mem_keys_foldl_set
  others _ hn := find?_mergeFields_of_not_mem hes hn
  extractors n hn := by
    rw [find?_mergeFields hes]
    cases hfind : Assoc.find? es n with
    | none => exact absurd hn (Assoc.find?_eq_none_iff.1 hfind)
    | some v => rfl
  unlisted n hn hnot := find?_mergeFields_of_not_mem hes fun hmem => hnot (hlisted n hmem hn)

/-! ## Whole documents -/

/-- The names that qualification finds more than once are the shared ones. -/
theorem shared_iff (hdistinct : (Json.obj document).Distinct) :
    Shared document n ↔ ∃ names ∈ doubled (entriesIn document "extraction" "extractors")
      (entriesIn document "inference" "factors") (entriesIn document "execution" "processes"),
      n ∈ names := by
  have hkeys : ∀ outer inner, (Assoc.keys (entriesIn document outer inner)).Nodup := fun outer inner =>
    (Json.distinct_obj.1 (once_entries hdistinct outer inner)).1
  rw [Shared, contested_iff (hkeys _ _), contested_iff (hkeys _ _)]
  simp [doubled, Text.mem_repeated, Text.mem_common, qualifiedKeys]

/-- A raw document is qualified, and no definition is dropped silently. -/
theorem qualify_succession (hdistinct : (Json.obj document).Distinct)
    (hraw : check (.obj document) .raw = .ok ()) (hsections : ∀ x ∈ Stage.sections, MayOpen document x.1)
    (hrecords : Records document names) :
    ∃ document' listed es fa pr, qualify (.obj document) = .ok (.obj document') ∧
      Succession document document' names listed es fa pr := by
  obtain ⟨hgiven, hes, hfa⟩ := entries_of_raw hraw
  have hkeys : ∀ outer inner, (Assoc.keys (entriesIn document outer inner)).Nodup := fun outer inner =>
    (Json.distinct_obj.1 (once_entries hdistinct outer inner)).1
  obtain ⟨c, listed, hrecorded, hc, hlisted⟩ := foldlM_recorded_names hrecords
    (doubled (entriesIn document "extraction" "extractors") (entriesIn document "inference" "factors")
      (entriesIn document "execution" "processes"))
  have hnil := eq_nil_of_names hlisted
  simp only [← shared_iff hdistinct] at hlisted
  obtain ⟨w, hrun, document', rfl, hholds, rfl, hchanges⟩ := (qualify_given_both
    (by simpa [Stage.sections] using hsections) hgiven hes hfa).right hrecorded
  have hgathers := gathers_gathered .process (entriesIn document "extraction" "extractors")
  have hunrecorded : collisionsOf document' = none ↔ collisionsOf document = none ∧ listed = [] := by
    rw [← Except.ok.injEq, ← hrecorded, foldlM_recorded_none, hnil]
    refine and_congr_right fun hnone => (and_iff_right ?_).symm
    rw [Records, hnone] at hrecords
    simpa using hrecords
  refine ⟨document', listed, _, _, _, hrun, hc, hlisted, hunrecorded, hholds,
    stands_gathered (hkeys _ _) hes fun n hn => (hlisted n).2 (.inr (.inl hn)),
    stands_gathered (hkeys _ _) hfa fun n hn => (hlisted n).2 (.inr (.inr (.inl hn))),
    joins_mergeFields hgathers.once fun n hn hn' => (hlisted n).2 (.inr (.inr (.inr ⟨?_, hn'⟩))), hchanges⟩
  rw [hgathers.keys, qualifiedKeys, List.mem_map] at hn
  exact hn

/-- A document with two extractors of one name, and one that has the name of a process. -/
def rivals : Fields :=
  [("extraction", .obj [("extractors", .obj
      [("a", .obj [("input_relations", .arr [.str "r"])]), ("process/a", .obj []), ("b", .obj [])])]),
    ("execution", .obj [("processes", .obj [("process/b", .obj []), ("process/q", .obj [])]),
      (collisionsField, .arr [.str "factor/z"])])]

theorem qualify_succession_rivals :
    (Json.obj rivals).Distinct ∧ check (.obj rivals) .raw = .ok () ∧
      (∀ x ∈ Stage.sections, MayOpen rivals x.1) ∧ Records rivals ["factor/z"] ∧
      ∃ document' listed es fa pr, qualify (.obj rivals) = .ok (.obj document') ∧
        Succession rivals document' ["factor/z"] listed es fa pr ∧
        "factor/z" ∈ listed ∧ "process/a" ∈ listed ∧ "process/b" ∈ listed ∧ "process/q" ∉ listed := by
  have hdistinct : (Json.obj rivals).Distinct := by
    simp [rivals, Json.Distinct, Json.DistinctFields, Json.DistinctList, Assoc.keys, collisionsField]
  have hraw : check (.obj rivals) .raw = .ok () := rfl
  have hsections : ∀ x ∈ Stage.sections, MayOpen rivals x.1 := by
    simp only [Stage.sections, List.forall_mem_cons, List.not_mem_nil, false_implies, implies_true, and_true]
    exact ⟨.inr ⟨_, rfl⟩, .inl rfl, .inr ⟨_, rfl⟩⟩
  have hrecords : Records rivals ["factor/z"] := rfl
  obtain ⟨document', listed, es, fa, pr, hrun, h⟩ :=
    qualify_succession hdistinct hraw hsections hrecords
  refine ⟨hdistinct, hraw, hsections, hrecords, document', listed, es, fa, pr, hrun, h,
    (h.mem_listed _).2 (.inl (by simp)),
    (h.mem_listed _).2
      (.inr (.inl ⟨"a", by decide, "process/a", by decide, by decide, by decide, by decide⟩)),
    (h.mem_listed _).2 (.inr (.inr (.inr ⟨⟨("b", .obj []), by decide, by decide⟩, by decide⟩))), ?_⟩
  rw [h.mem_listed, shared_iff hdistinct]
  decide +kernel

end Document

end FlowPlan

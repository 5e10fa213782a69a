import FlowPlan.Proofs.Document.Grammar
import FlowPlan.Proofs.Qualifier
import Mathlib

/-!
# Qualifying again

A document that has been qualified can be qualified again. Its definitions stay as they are, and so does
their order; all that is added is that every extractor is recorded as a collision, since it is among the
processes already. From then on nothing changes any more.

## Main definitions

* `Document.Fixed` — a section whose definitions are as qualification leaves them.
* `Document.Settled` — a document with such sections, its extractors among the processes.
* `Document.withoutCollisions` — a document but for what it records.

## Main statements

* `Kind.qualify_qualify`, `Definition.qualified_qualified` — names and definitions are qualified once.
* `Document.settled_of_qualify` — what qualification makes is settled.
* `Document.Settled.qualify` — a settled document only records its extractors.
* `Document.qualify_again` — a document that is qualified a second and a third time.
-/

namespace FlowPlan

namespace Assoc

variable {κ : Type} {α : Type} [DecidableEq κ] {m entries : Assoc κ α} {k : κ} {v : α}

/-- Writing what is there already changes nothing. -/
theorem set_of_find? (h : find? m k = some v) : set m k v = m := by
  induction m with
  | nil => cases h
  | cons e m ih =>
    rw [find?_cons] at h
    rw [set]
    split at h
    · rename_i hkey
      rw [if_pos hkey, ← hkey, ← Option.some.inj h]
    · rename_i hkey
      rw [if_neg hkey, ih h]

theorem foldl_set_of_find? (h : ∀ e ∈ entries, find? m e.1 = some e.2) :
    entries.foldl (fun m e => set m e.1 e.2) m = m := by
  induction entries with
  | nil => rfl
  | cons e entries ih =>
    rw [List.forall_mem_cons] at h
    rw [List.foldl_cons, set_of_find? h.1, ih h.2]

theorem set_set (m : Assoc κ α) (k : κ) (v w : α) : set (set m k v) k w = set m k w := by
  induction m with
  | nil => simp [set]
  | cons e m ih =>
    by_cases hkey : e.1 = k
    · simp [set, hkey]
    · rw [set, if_neg hkey, set, if_neg hkey, ih, set, if_neg hkey]

/-- Removing what is not there changes nothing. -/
theorem erase_of_find? (h : find? m k = none) : erase m k = m := by
  rw [erase, List.filter_eq_self]
  rintro e he
  have hkey : e.1 ≠ k := fun heq =>
    find?_eq_none_iff.1 h (heq ▸ List.mem_map_of_mem (f := (·.1)) he)
  simpa using hkey

theorem erase_set (m : Assoc κ α) (k : κ) (v : α) : erase (set m k v) k = erase m k := by
  induction m with
  | nil => simp [set, erase]
  | cons e m ih =>
    unfold erase at *
    by_cases hkey : e.1 = k
    · simp [set, hkey]
    · rw [set, if_neg hkey, List.filter_cons, ih, List.filter_cons]

end Assoc

namespace Kind

/-- A name that carries its kind is left as it is. -/
theorem qualify_qualify (k : Kind) (n : String) : k.qualify (k.qualify n) = k.qualify n :=
  if_pos (owns_iff.2 (of?_qualify k n))

end Kind

namespace Definition

open Document

variable {d : Definition} {entry : Fields}

/-- The fields that a definition is read from are not those that are derived. -/
theorem find?_onto_of_raw {k : String} (hk : k ∈ ["dependencies", "input_relations", "output_relation"])
    (d : Definition) (entry : Fields) : Assoc.find? (d.onto entry) k = Assoc.find? entry k := by
  have hne : k ≠ outputField ∧ k ≠ inputField ∧ k ≠ dependenciesField := by
    revert k
    decide
  rw [find?_onto, if_neg hne.1, if_neg hne.2.1, if_neg hne.2.2]

theorem checkRawEntry_onto (d : Definition) (entry : Fields) (path : String) :
    checkRawEntry (d.onto entry) path = checkRawEntry entry path := by
  unfold checkRawEntry checkRawNames
  rw [find?_onto_of_raw (by decide), find?_onto_of_raw (by decide), find?_onto_of_raw (by decide)]

/-- An entry that has the derived fields already stays as it is, down to the order of its fields. -/
theorem onto_of_describes (h : d.Describes entry) (hlisted : Listed entry) : d.onto entry = entry := by
  obtain ⟨v, hv⟩ := Option.isSome_iff_exists.1 hlisted.1
  obtain ⟨w, hw⟩ := Option.isSome_iff_exists.1 hlisted.2
  have hdependencies := h.dependencies
  have hinputs := h.inputs
  rw [hv, Option.getD_some] at hdependencies
  rw [hw, Option.getD_some] at hinputs
  unfold onto
  dsimp only
  rw [← hdependencies, Assoc.set_of_find? hv, ← hinputs, Assoc.set_of_find? hw]
  cases houtput : d.output with
  | none => exact Assoc.erase_of_find? (by rw [h.output, houtput]; rfl)
  | some r => exact Assoc.set_of_find? (by rw [h.output, houtput]; rfl)

theorem ofRaw_qualified (kind : Kind) (e : String × Json) : ofRaw kind (qualified kind e) = ofRaw kind e := by
  unfold ofRaw namesAt
  dsimp only [qualified, fieldsOf]
  rw [Kind.qualify_qualify, find?_onto_of_raw (by decide), find?_onto_of_raw (by decide),
    find?_onto_of_raw (by decide)]

/-- A definition is qualified once. -/
theorem qualified_qualified (kind : Kind) (e : String × Json) :
    qualified kind (qualified kind e) = qualified kind e := by
  refine Prod.ext (Kind.qualify_qualify kind e.1) (congrArg Json.obj ?_)
  rw [ofRaw_qualified]
  exact onto_of_describes (describes_onto _ _) (listed_onto _ _)

end Definition

namespace Document

open Definition

/-- The definitions of the section are as qualification leaves them. -/
structure Fixed (kind : Kind) (es : Fields) : Prop where
  raw : RawEntries es
  once : (Assoc.keys es).Nodup
  entry : ∀ e ∈ es, qualified kind e = e

/-- The document has qualified sections, and its extractors are among the processes. -/
structure Settled (document : Fields) (es fa pr : Fields) : Prop where
  holds : Holds document es fa pr
  extractors : Fixed .process es
  factors : Fixed .factor fa
  merged : ∀ e ∈ es, Assoc.find? pr e.1 = some e.2

/-- The document but for the names that it records. -/
def withoutCollisions (document : Fields) : Fields :=
  match Assoc.find? document "execution" with
  | some (.obj fs) => Assoc.set document "execution" (.obj (Assoc.erase fs collisionsField))
  | _ => document

variable {document document' es fa pr : Fields} {outer inner : String} {kind : Kind} {v w : Json}
  {ns names : List String}

/-! ## One section -/

theorem fixed_gathered (kind : Kind) (hes : RawEntries es) : Fixed kind (gathered kind es) where
  raw x hx := by
    obtain ⟨e, he, rfl⟩ := (gathers_gathered kind es).entry x hx
    obtain ⟨fs, path, hfs, hcheck⟩ := hes e he
    refine ⟨_, path, rfl, ?_⟩
    rwa [checkRawEntry_onto, hfs]
  once := (gathers_gathered kind es).once
  entry x hx := by
    obtain ⟨e, -, rfl⟩ := (gathers_gathered kind es).entry x hx
    exact qualified_qualified kind e

theorem Fixed.keys (h : Fixed kind es) : qualifiedKeys kind es = Assoc.keys es :=
  List.map_congr_left fun e he => congrArg Prod.fst (h.entry e he)

theorem Fixed.gathered_eq (h : Fixed kind es) : gathered kind es = es := by
  rw [(gathers_gathered kind es).lossless (h.keys ▸ h.once), List.map_congr_left (g := id) h.entry,
    List.map_id]

theorem setInSection_of_part (h : part? document outer inner = some v) :
    setInSection document outer inner v = document := by
  obtain ⟨fs, hfs⟩ := isOpen_of_part h
  rw [part?_of_open hfs] at h
  rw [setInSection, hfs]
  dsimp only
  rw [Assoc.set_of_find? h, Assoc.set_of_find? hfs]

/-- A section whose definitions are qualified stays as it is. -/
theorem qualifySection_fixed (h : Fixed kind es) (hpart : part? document outer inner = some (.obj es)) :
    qualifySection (.obj document) outer inner kind = .ok (.obj document) := by
  have hopen := isOpen_of_part hpart
  rw [qualifySection_run kind h.raw hopen.mayOpen (partRead_of_obj hpart), h.gathered_eq, h.keys,
    Text.repeated_eq_nil.2 h.once, ensureSection_of_open hopen, setInSection_of_part hpart]
  rfl

/-- Entries that are among the processes already are recorded. -/
theorem mergeSection_merged (hes : (Assoc.keys es).Nodup)
    (hpart : part? document "execution" "processes" = some (.obj pr))
    (hmerged : ∀ e ∈ es, Assoc.find? pr e.1 = some e.2) :
    mergeSection (.obj document) (.obj es) =
      recordCollisions (.obj document) (Text.common (Assoc.keys es) (Assoc.keys pr)) := by
  have hopen := isOpen_of_part hpart
  have hsame : (mergeFields pr es).1 = pr := Assoc.foldl_set_of_find? hmerged
  rw [mergeSection_run hes hopen.mayOpen (congrArg mappingOf (partRead_of_obj hpart)), hsame,
    ensureSection_of_open hopen, setInSection_of_part hpart]

/-! ## What is recorded -/

theorem recordCollisions_run (hopen : IsOpen document "execution") (hrecords : Records document ns)
    (hnames : names.isEmpty = false) :
    recordCollisions (.obj document) names = .ok (.obj (setInSection document "execution" collisionsField
      (.arr ((Text.sort (ns ++ names).dedup).map .str)))) := by
  obtain ⟨fs, hfs⟩ := hopen
  rw [Records, collisionsOf, part?_of_open hfs] at hrecords
  have hset := Json.distinct_sortSet_texts (ns ++ names)
  rw [List.map_append] at hset
  obtain ⟨values, hdistinct, hsorted⟩ := Attempt.bind_eq_ok.1 hset
  unfold recordCollisions
  rw [if_neg (by simp [hnames]), Json.fieldsFor_obj, Attempt.ok_bind]
  dsimp only
  rw [ensureSection_of_open ⟨fs, hfs⟩, hfs, Option.getD_some, Json.getD_obj, Attempt.ok_bind, hrecords,
    Json.elements_arr, Attempt.ok_bind, hdistinct, Attempt.ok_bind, hsorted]
  rfl

theorem withoutCollisions_setInSection (hopen : IsOpen document "execution") (v : Json) :
    withoutCollisions (setInSection document "execution" collisionsField v) = withoutCollisions document := by
  obtain ⟨fs, hfs⟩ := hopen
  rw [withoutCollisions, withoutCollisions, setInSection, hfs]
  dsimp only
  rw [Assoc.find?_set, if_pos rfl]
  dsimp only
  rw [Assoc.set_set, Assoc.erase_set]

/-- Names that are recorded are in the document from then on, and recording them again changes nothing. -/
theorem recordCollisions_again (hopen : IsOpen document "execution") (hrecords : Records document ns)
    (names : List String) : ∃ document' ns', recordCollisions (.obj document) names = .ok (.obj document') ∧
      recordCollisions (.obj document') names = .ok (.obj document') ∧
      withoutCollisions document' = withoutCollisions document ∧ Records document' ns' ∧
      ∀ n, n ∈ ns' ↔ n ∈ ns ∨ n ∈ names := by
  cases hnames : names.isEmpty with
  | true =>
    rw [List.isEmpty_iff.1 hnames]
    exact ⟨document, ns, rfl, rfl, rfl, hrecords, by simp⟩
  | false =>
    have hrun := recordCollisions_run hopen hrecords hnames
    set ns' := Text.sort (ns ++ names).dedup with hns'
    have hputs := setInSection_puts hopen.mayOpen collisionsField (.arr (ns'.map .str))
    rw [ensureSection_of_open hopen] at hputs
    have hmem : ∀ n, n ∈ ns' ↔ n ∈ ns ∨ n ∈ names := fun n => by
      rw [hns', Text.mem_sort, List.mem_dedup, List.mem_append]
    have hrecords' :
        Records (setInSection document "execution" collisionsField (.arr (ns'.map .str))) ns' := by
      rw [Records, collisionsOf, hputs.own_part, Option.getD_some]
    have hsame : Text.sort (ns' ++ names).dedup = ns' := by
      refine Text.sort_eq_of_mem (List.nodup_dedup _) (List.nodup_dedup _) fun n => ?_
      simp only [List.mem_dedup, List.mem_append, hmem]
      tauto
    refine ⟨_, ns', hrun, ?_, withoutCollisions_setInSection hopen _, hrecords', hmem⟩
    rw [recordCollisions_run hputs.own hrecords' hnames, hsame, setInSection_of_part hputs.own_part]

/-! ## Whole documents -/

/-- A settled document only records its extractors. -/
theorem Settled.qualify (h : Settled document es fa pr) : qualify (.obj document) =
    recordCollisions (.obj document) (Text.common (Assoc.keys es) (Assoc.keys pr)) := by
  unfold Document.qualify
  rw [qualifySection_fixed h.extractors h.holds.extractors, Attempt.ok_bind,
    qualifySection_fixed h.factors h.holds.factors, Attempt.ok_bind, section?_obj, h.holds.extractors,
    Option.getD_some, Attempt.ok_bind, mergeSection_merged h.extractors.once h.holds.processes h.merged]

/-- What the document records does not matter for it to be settled. -/
theorem Settled.of_changes (h : Settled document es fa pr)
    (hchanges : Changes [("execution", collisionsField)] document document') :
    Settled document' es fa pr where
  holds := h.holds.of_changes hchanges (by decide)
  extractors := h.extractors
  factors := h.factors
  merged := h.merged

theorem read_of_qualifySection (hexecution : MayOpen document "execution")
    (hne : (outer, inner) ≠ ("execution", collisionsField))
    (h : qualifySection (.obj document) outer inner kind = .ok w) :
    ∃ document', w = .obj document' ∧
      partRead document outer inner = .obj (entriesIn document outer inner) ∧
      Changes [(outer, inner), ("execution", collisionsField)] document document' ∧
      MayOpen document' "execution" := by
  unfold qualifySection at h
  rw [Json.fieldsFor_obj, Attempt.ok_bind] at h
  obtain ⟨given, hgiven, h⟩ := Attempt.bind_eq_ok.1 h
  obtain ⟨⟨qualified, collisions⟩, hqualify, h⟩ := Attempt.bind_eq_ok.1 h
  have hopen := mayOpen_of_givenIn hgiven
  obtain ⟨c, -, document', rfl, -, -, hchanges, -, hmay⟩ :=
    (recordAfter_both (setInSection_puts hopen inner (.obj qualified)) hexecution hne collisions).left h
  rw [givenIn_run hopen] at hgiven
  unfold qualifyEntries at hqualify
  obtain ⟨es, hitems, -⟩ := Attempt.bind_eq_ok.1 hqualify
  obtain rfl : given = .obj es := by
    cases given with
    | obj fs => exact congrArg Json.obj (Except.ok.inj hitems)
    | _ => cases hitems
  have hread := Except.ok.inj hgiven
  exact ⟨document', rfl, by rw [hread, entriesIn_of_partRead hread], hchanges, hmay _ hexecution⟩

/-- What can be qualified has mappings, or what counts as false, where its definitions are read. -/
theorem read_of_qualify (h : qualify (.obj document) = .ok w) :
    partRead document "extraction" "extractors" = .obj (entriesIn document "extraction" "extractors") ∧
      partRead document "inference" "factors" = .obj (entriesIn document "inference" "factors") ∧
      ∃ pr, mappingOf (partRead document "execution" "processes") = .ok pr := by
  have hexecution := mayOpen_of_qualify h ("execution", "processes") (by decide)
  unfold Document.qualify at h
  obtain ⟨w₁, h₁, h⟩ := Attempt.bind_eq_ok.1 h
  obtain ⟨d₁, rfl, hextractors, hchanges₁, hexecution₁⟩ :=
    read_of_qualifySection hexecution (by decide) h₁
  obtain ⟨w₂, h₂, h⟩ := Attempt.bind_eq_ok.1 h
  obtain ⟨d₂, rfl, hfactors, hchanges₂, hexecution₂⟩ :=
    read_of_qualifySection hexecution₁ (by decide) h₂
  have hfactors₁ : part? d₁ "inference" "factors" = part? document "inference" "factors" :=
    hchanges₁.part _ _ (by decide)
  rw [partRead_congr hfactors₁, entriesIn, hfactors₁, ← entriesIn] at hfactors
  refine ⟨hextractors, hfactors, ?_⟩
  obtain ⟨extractors, -, h⟩ := Attempt.bind_eq_ok.1 h
  unfold mergeSection mergeProcesses at h
  rw [Json.fieldsFor_obj, Attempt.ok_bind] at h
  dsimp only at h
  rw [givenIn_run hexecution₂, Attempt.ok_bind, bind_assoc] at h
  obtain ⟨pr, hprocesses, -⟩ := Attempt.bind_eq_ok.1 h
  rw [partRead_congr ((hchanges₁.trans hchanges₂).part _ _ (by decide))] at hprocesses
  exact ⟨pr, hprocesses⟩

/-- What qualification makes is settled. -/
theorem settled_of_qualify (hes : RawEntries (entriesIn document "extraction" "extractors"))
    (hfa : RawEntries (entriesIn document "inference" "factors")) (hrecords : Records document names)
    (h : qualify (.obj document) = .ok w) :
    ∃ d es fa pr ns, w = .obj d ∧ Settled d es fa pr ∧ Records d ns := by
  obtain ⟨hextractors, hfactors, pr, hprocesses⟩ := read_of_qualify h
  have hsections : ∀ o ∈ ["extraction", "inference", "execution"], MayOpen document o := by
    simpa [Stage.sections] using mayOpen_of_qualify h
  obtain ⟨c, hrecorded, d, rfl, hholds, rfl, -⟩ :=
    (qualify_read_both hsections hextractors hfactors hprocesses hes hfa).left h
  obtain ⟨c, ns, hrecorded', hc, -⟩ := foldlM_recorded_names hrecords _
  obtain rfl : collisionsOf d = c := Except.ok.inj (hrecorded.symm.trans hrecorded')
  refine ⟨d, _, _, _, ns, rfl, ⟨hholds, fixed_gathered .process hes, fixed_gathered .factor hfa, ?_⟩, hc⟩
  intro e he
  have honce := (gathers_gathered .process (entriesIn document "extraction" "extractors")).once
  rw [find?_mergeFields honce, Assoc.find?_of_mem honce he]
  rfl

/-- Qualifying a document again only adds its extractors to what it records, and changes nothing the next
time. -/
theorem qualify_again (hes : RawEntries (entriesIn document "extraction" "extractors"))
    (hfa : RawEntries (entriesIn document "inference" "factors")) (hrecords : Records document names)
    {q : Json} (h : qualify (.obj document) = .ok q) :
    ∃ d d' ns ns', q = .obj d ∧ qualify q = .ok (.obj d') ∧ qualify (.obj d') = .ok (.obj d') ∧
      withoutCollisions d' = withoutCollisions d ∧ Records d ns ∧ Records d' ns' ∧
      ∀ n, n ∈ ns' ↔ n ∈ ns ∨ n ∈ Assoc.keys (entriesIn d "extraction" "extractors") := by
  obtain ⟨d, es, fa, pr, ns, rfl, hsettled, hns⟩ := settled_of_qualify hes hfa hrecords h
  have hopen := hsettled.holds.execution
  obtain ⟨d', ns', hrun, hagain, hsame, hns', hmem⟩ :=
    recordCollisions_again hopen hns (Text.common (Assoc.keys es) (Assoc.keys pr))
  obtain ⟨c, -, d'', hd'', -, hchanges, -⟩ := (recordCollisions_both hopen.mayOpen _).left hrun
  obtain rfl : d' = d'' := Json.obj.inj hd''
  have hsettled' := hsettled.of_changes hchanges
  refine ⟨d, d', ns, ns', rfl, hsettled.qualify.trans hrun, hsettled'.qualify.trans hagain, hsame, hns, hns',
    fun n => ?_⟩
  rw [hmem, Text.mem_common, hsettled.holds.entries.1]
  refine or_congr_right (and_iff_left_of_imp fun hn => ?_)
  obtain ⟨e, he, rfl⟩ := List.mem_map.1 hn
  exact List.mem_map_of_mem (Assoc.mem_of_find? (hsettled.merged e he))

/-- A document with two extractors of one name, an entry that carries a stale list of its own, and processes
that are given as pairs. -/
def restless : Fields :=
  [("extraction", .obj [("extractors", .obj
      [("a", .obj []), ("process/a", .obj [(inputField, .arr [.str "stale"])]), ("b", .obj [])])]),
    ("execution", .obj [("processes", .arr [.arr [.str "process/b", .null]])])]

theorem qualify_again_restless :
    RawEntries (entriesIn restless "extraction" "extractors") ∧
      RawEntries (entriesIn restless "inference" "factors") ∧ Records restless [] ∧
      ∃ q d d' ns ns', qualify (.obj restless) = .ok q ∧ q = .obj d ∧ qualify q = .ok (.obj d') ∧
        qualify (.obj d') = .ok (.obj d') ∧ withoutCollisions d' = withoutCollisions d ∧
        Records d ns ∧ Records d' ns' ∧
        ∀ n, n ∈ ns' ↔ n ∈ ns ∨ n ∈ Assoc.keys (entriesIn d "extraction" "extractors") := by
  have hes : RawEntries (entriesIn restless "extraction" "extractors") := by
    intro e he
    have hall : e = ("a", .obj []) ∨ e = ("process/a", .obj [(inputField, .arr [.str "stale"])]) ∨
        e = ("b", .obj []) := by simpa [restless, entriesIn, part?, Assoc.find?, fieldsOf] using he
    rcases hall with rfl | rfl | rfl <;> exact ⟨_, "", rfl, rfl⟩
  have hfa : RawEntries (entriesIn restless "inference" "factors") := fun e he => by cases he
  have hrecords : Records restless [] := rfl
  have hok : (qualify (.obj restless)).isOk = true := by decide +kernel
  obtain ⟨q, hq⟩ : ∃ q, qualify (.obj restless) = .ok q := by
    cases hrun : qualify (.obj restless) with
    | ok q => exact ⟨q, rfl⟩
    | error f => simp [hrun, Except.isOk, Except.toBool] at hok
  obtain ⟨d, d', ns, ns', hd, h⟩ := qualify_again hes hfa hrecords hq
  exact ⟨hes, hfa, hrecords, q, d, d', ns, ns', hq, hd, h⟩

end Document

end FlowPlan

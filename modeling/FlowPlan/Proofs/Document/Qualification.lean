import FlowPlan.Proofs.Document.Collisions

/-!
# What qualification does

Qualification rewrites the definitions of both sections, and adds them to the plan's processes. Names
that are defined more than once are recorded, and the later definition wins. As long as there are none,
nothing is lost: the processes are those of before and, after them, the definitions in their order.

## Main definitions

* `Definition.qualified` — a definition as qualification leaves it.
* `Document.gathered`, `Document.Gathers` — a section with its definitions qualified.
* `Document.Given` — a part as the raw shape allows it.
* `Document.Holds` — the three mappings of definitions that the compiler reads.

## Main statements

* `Document.qualifyEntries_run`, `Document.qualifySection_run`, `Document.mergeSection_run` — one section.
* `Document.qualify_both`, `Document.liftFactors_both` — whole documents: they succeed exactly if the
  collisions can be recorded.
* `Document.initObjects_run` — missing sections are created.
-/

namespace FlowPlan

namespace Assoc

variable {κ : Type} {α : Type} [DecidableEq κ] {m entries : Assoc κ α} {k : κ} {v : α} {e : κ × α}

theorem mem_keys_set {k' : κ} : k' ∈ keys (set m k v) ↔ k' = k ∨ k' ∈ keys m := by
  by_cases hk : k ∈ keys m
  · rw [keys_set_of_mem hk]
    exact ⟨.inr, fun h => h.elim (fun heq => heq ▸ hk) id⟩
  · rw [set_of_not_mem hk, keys, List.map_append, List.mem_append, ← keys, or_comm]
    simp

/-- What a map binds after an addition is what was added, or what it bound before to another key. -/
theorem mem_set (hm : (keys m).Nodup) (h : e ∈ set m k v) : e = (k, v) ∨ e ∈ m ∧ e.1 ≠ k := by
  have hfind := find?_of_mem (nodup_set hm k v) h
  rw [find?_set] at hfind
  split at hfind
  · rename_i hk
    exact .inl (Prod.ext hk.symm (Option.some.inj hfind).symm)
  · rename_i hk
    exact .inr ⟨mem_of_find? hfind, Ne.symm hk⟩

theorem mem_set_of_ne (h : e ∈ m) (hne : e.1 ≠ k) : e ∈ set m k v := by
  induction m with
  | nil => cases h
  | cons d m ih =>
    rw [set]
    rcases List.mem_cons.1 h with rfl | h
    · rw [if_neg hne]
      exact List.mem_cons_self
    · split
      · exact List.mem_cons_of_mem _ h
      · exact List.mem_cons_of_mem _ (ih h)

/-- Entries with new and different keys are added as they are. -/
theorem foldl_set (h : (keys m ++ keys entries).Nodup) :
    entries.foldl (fun m e => set m e.1 e.2) m = m ++ entries := by
  induction entries generalizing m with
  | nil => simp
  | cons e entries ih =>
    have hnew : e.1 ∉ keys m := by
      intro hmem
      exact (List.nodup_append.1 h).2.2 _ hmem _ (by simp [keys]) rfl
    rw [List.foldl_cons, set_of_not_mem hnew, ih, List.append_assoc]
    · rfl
    · simpa [keys] using h

theorem nodup_foldl_set (entries : Assoc κ α) (h : (keys m).Nodup) :
    (keys (entries.foldl (fun m e => set m e.1 e.2) m)).Nodup := by
  induction entries generalizing m with
  | nil => exact h
  | cons e entries ih => exact ih (nodup_set h _ _)

theorem mem_keys_foldl_set :
    k ∈ keys (entries.foldl (fun m e => set m e.1 e.2) m) ↔ k ∈ keys m ∨ k ∈ keys entries := by
  induction entries generalizing m with
  | nil => simp [keys]
  | cons d entries ih =>
    have hcons : k ∈ keys (d :: entries) ↔ k = d.1 ∨ k ∈ keys entries := List.mem_cons
    rw [List.foldl_cons, ih, mem_keys_set, hcons, or_assoc, or_left_comm]

theorem mem_foldl_set (hm : (keys m).Nodup)
    (h : e ∈ entries.foldl (fun m e => set m e.1 e.2) m) :
    e ∈ entries ∨ e ∈ m ∧ e.1 ∉ keys entries := by
  induction entries generalizing m with
  | nil => exact .inr ⟨h, List.not_mem_nil⟩
  | cons d entries ih =>
    rcases ih (nodup_set hm _ _) h with h | ⟨h, hnew⟩
    · exact .inl (List.mem_cons_of_mem d h)
    · rcases mem_set hm h with rfl | ⟨h, hne⟩
      · exact .inl List.mem_cons_self
      · exact .inr ⟨h, fun hmem => (List.mem_cons.1 hmem).elim hne hnew⟩

/-- An entry stays if its key is not bound again. -/
theorem mem_foldl_set_of_new (h : e ∈ m) (hnew : e.1 ∉ keys entries) :
    e ∈ entries.foldl (fun m e => set m e.1 e.2) m := by
  induction entries generalizing m with
  | nil => exact h
  | cons d entries ih =>
    rw [keys, List.map_cons, List.mem_cons, not_or] at hnew
    exact ih (mem_set_of_ne h hnew.1) hnew.2

/-- What a key is bound to after several additions: the last one counts. -/
theorem find?_foldl_set : find? (entries.foldl (fun m e => set m e.1 e.2) m) k =
    (find? entries.reverse k).or (find? m k) := by
  induction entries generalizing m with
  | nil => rfl
  | cons e entries ih =>
    have hlast : find? (entries.reverse ++ [e]) k = (find? entries.reverse k).or (find? [e] k) :=
      List.lookup_append
    rw [List.foldl_cons, ih, find?_set, List.reverse_cons, hlast, find?_cons, Option.or_assoc]
    split <;> rfl

/-- Looking up a key in entries that are made of values is looking for the first value that has it. -/
theorem find?_map_entries {β : Type} (key : β → κ) (value : β → α) (xs : List β) (k : κ) :
    find? (xs.map fun x => (key x, value x)) k = (xs.find? (key · = k)).map value := by
  induction xs with
  | nil => rfl
  | cons x xs ih =>
    rw [List.map_cons, find?_cons, List.find?_cons, ih]
    by_cases hk : key x = k <;> simp [hk]

/-- Where no key is bound twice, the order of the entries does not matter. -/
theorem find?_reverse (h : (keys m).Nodup) : find? m.reverse k = find? m k := by
  have hkeys : keys m.reverse = (keys m).reverse := List.map_reverse
  cases hfind : find? m k with
  | none =>
    rw [find?_eq_none_iff] at hfind ⊢
    rwa [hkeys, List.mem_reverse]
  | some v =>
    refine find?_of_mem ?_ (List.mem_reverse.2 (mem_of_find? hfind))
    rw [← keys, hkeys]
    exact List.nodup_reverse.2 h

end Assoc

namespace Definition

open Document

/-- An entry with its derived fields. -/
def IsQualified (e : String × Json) : Prop :=
  ∃ fs, e.2 = .obj fs ∧ (ofDerived e).Describes fs ∧ (ofDerived e).Kinded ∧ Listed fs

/-- A definition as qualification leaves it. -/
def qualified (kind : Kind) (e : String × Json) : String × Json :=
  (kind.qualify e.1, .obj ((ofRaw kind e).onto (fieldsOf e.2)))

theorem ofDerived_qualified (kind : Kind) (e : String × Json) :
    ofDerived (qualified kind e) = ofRaw kind e :=
  (describes_onto (ofRaw kind e) (fieldsOf e.2)).ofDerived

theorem isQualified_qualified (kind : Kind) (e : String × Json) : IsQualified (qualified kind e) := by
  refine ⟨_, rfl, ?_, ?_, listed_onto _ _⟩
  · rw [ofDerived_qualified]
    exact describes_onto _ _
  · rw [ofDerived_qualified]
    exact kinded_ofRaw kind e

end Definition

namespace Document

open Definition

variable {document document' : Fields} {outer inner : String} {v : Json} {names : List String}
  {kind : Kind} {es fa pr q : Fields}

/-! ## One section -/

/-- The definitions of a section before qualification. -/
def RawEntries (es : Fields) : Prop :=
  ∀ e ∈ es, ∃ fs path, e.2 = .obj fs ∧ checkRawEntry fs path = .ok ()

/-- The names that the definitions of a section get. -/
def qualifiedKeys (kind : Kind) (es : Fields) : List String := es.map fun e => kind.qualify e.1

/-- The entries are the definitions of the section, qualified; of those with one name, one is left. -/
structure Gathers (kind : Kind) (es q : Fields) : Prop where
  once : (Assoc.keys q).Nodup
  entry : ∀ x ∈ q, ∃ e ∈ es, x = qualified kind e
  keys : ∀ k, k ∈ Assoc.keys q ↔ k ∈ qualifiedKeys kind es
  lossless : (qualifiedKeys kind es).Nodup → q = es.map (qualified kind)

theorem Gathers.qualified (h : Gathers kind es q) :
    ∀ e ∈ q, IsQualified e ∧ Kind.of? e.1 = some kind := by
  intro x hx
  obtain ⟨e, -, rfl⟩ := h.entry x hx
  exact ⟨isQualified_qualified kind e, Kind.of?_qualify kind e.1⟩

/-- A definition is added to those before it, and its name is recorded if it was there. -/
theorem addDefinition_run (q : Fields) (cs : List String) {e : String × Json} {fs : Fields} {path : String}
    (hfs : e.2 = .obj fs) (hcheck : checkRawEntry fs path = .ok ()) :
    addDefinition kind (q, cs) e = .ok (Assoc.set q (kind.qualify e.1) (qualified kind e).2,
      if kind.qualify e.1 ∈ Assoc.keys q ∧ kind.qualify e.1 ∉ cs then cs ++ [kind.qualify e.1]
      else cs) := by
  obtain ⟨n, v⟩ := e
  obtain rfl : v = .obj fs := hfs
  unfold addDefinition
  rw [qualifyEntry_raw kind n hcheck, Attempt.ok_bind, Attempt.pure_eq_ok]
  refine congrArg (fun ns => Except.ok (_, ns)) (if_congr ?_ rfl rfl)
  rw [Bool.and_eq_true, Assoc.contains_iff]
  simp

theorem keys_qualified (kind : Kind) (es : Fields) :
    Assoc.keys (es.map (Definition.qualified kind)) = qualifiedKeys kind es := by
  rw [Assoc.keys, List.map_map]
  rfl

/-- The definitions of a section under the names that they get. Of those with one name, the last is left
in the place of the first. -/
def gathered (kind : Kind) (es : Fields) : Fields := Assoc.ofEntries (es.map (Definition.qualified kind))

theorem gathers_gathered (kind : Kind) (es : Fields) : Gathers kind es (gathered kind es) where
  once := Assoc.nodup_foldl_set _ .nil
  entry x hx := by
    rcases Assoc.mem_foldl_set (m := []) .nil hx with hx | ⟨hx, -⟩
    · obtain ⟨e, he, rfl⟩ := List.mem_map.1 hx
      exact ⟨e, he, rfl⟩
    · cases hx
  keys k := by
    rw [gathered, Assoc.ofEntries, Assoc.mem_keys_foldl_set, keys_qualified]
    simp [Assoc.keys]
  lossless h := by
    rw [gathered, Assoc.ofEntries, Assoc.foldl_set, List.nil_append]
    rwa [keys_qualified]

/-- The definitions of a section are gathered, and the names that several of them share are recorded. -/
theorem qualifyEntries_run (kind : Kind) (hes : RawEntries es) :
    qualifyEntries (.obj es) kind = .ok (gathered kind es, Text.repeated (qualifiedKeys kind es)) := by
  obtain ⟨⟨q, cs⟩, hrun, hq, hcs, hmem⟩ : ∃ b, es.foldlM (addDefinition kind) ([], []) = .ok b ∧
      b.1 = gathered kind es ∧ b.2.Nodup ∧ ∀ n, n ∈ b.2 ↔ 1 < (qualifiedKeys kind es).count n := by
    refine Attempt.foldlM_along (P := fun done (b : Fields × List String) => b.1 = gathered kind done ∧
      b.2.Nodup ∧ ∀ n, n ∈ b.2 ↔ 1 < (qualifiedKeys kind done).count n)
      ⟨rfl, .nil, by simp [qualifiedKeys]⟩ ?_
    rintro done ⟨_, cs⟩ ⟨rfl, hcs, hmem⟩ e he
    dsimp only at hcs hmem
    obtain ⟨fs, path, hfs, hcheck⟩ := hes e he
    have hkeys : qualifiedKeys kind (done ++ [e]) = qualifiedKeys kind done ++ [kind.qualify e.1] := by
      simp [qualifiedKeys]
    refine ⟨_, addDefinition_run _ cs hfs hcheck, ?_, ?_, fun n => ?_⟩
    · dsimp only
      rw [gathered, Assoc.ofEntries, gathered, Assoc.ofEntries, List.map_append, List.foldl_append]
      rfl
    · dsimp only
      split
      · rename_i hnew
        refine List.nodup_append.2 ⟨hcs, by simp, ?_⟩
        rintro a ha b hb rfl
        exact hnew.2 (List.mem_singleton.1 hb ▸ ha)
      · exact hcs
    -- A name is recorded from its second definition on.
    · have hthere : kind.qualify e.1 ∈ Assoc.keys (gathered kind done) ↔
          0 < (qualifiedKeys kind done).count (kind.qualify e.1) := by
        rw [(gathers_gathered kind done).keys, List.count_pos_iff]
      have hlisted := hmem (kind.qualify e.1)
      rw [hkeys, List.count_append, List.count_singleton]
      dsimp only
      by_cases hn : kind.qualify e.1 = n
      · subst hn
        split <;> grind
      · have hcount : (kind.qualify e.1 == n) = false := by simpa using hn
        simp only [hcount, Bool.false_eq_true, if_false, Nat.add_zero, ← hmem]
        split <;> simp [Ne.symm hn]
  dsimp only at hq hcs hmem
  unfold qualifyEntries
  rw [Json.items_obj, Attempt.ok_bind, hrun, Attempt.ok_bind, ← Text.sort_eq_repeated hcs hmem, hq]
  rfl

/-- Entries that are added to the processes are recorded if their names were there before. -/
theorem mergeFields_names (pr : Fields) (hes : (Assoc.keys es).Nodup) :
    (mergeFields pr es).2 = Text.common (Assoc.keys es) (Assoc.keys pr) := by
  refine Text.sort_eq_common (hes.filter _) fun n => ?_
  rw [List.mem_filter, Assoc.contains_iff]
  rfl

/-- An entry stands in place of the process that had its name. -/
theorem find?_mergeFields (hes : (Assoc.keys es).Nodup) (pr : Fields) (n : String) :
    Assoc.find? (mergeFields pr es).1 n = (Assoc.find? es n).or (Assoc.find? pr n) := by
  rw [mergeFields, Assoc.find?_foldl_set, Assoc.find?_reverse hes]

/-! ## Whole documents -/

/-- What the compiler reads of a document: three mappings of entries. -/
structure Holds (document : Fields) (extractors factors processes : Fields) : Prop where
  extraction : IsOpen document "extraction"
  inference : IsOpen document "inference"
  execution : IsOpen document "execution"
  extractors : part? document "extraction" "extractors" = some (.obj extractors)
  factors : part? document "inference" "factors" = some (.obj factors)
  processes : part? document "execution" "processes" = some (.obj processes)

/-- A part that the raw shape allows. -/
def Given (document : Fields) (outer inner : String) : Prop :=
  (part? document outer inner).getD .null = .null ∨ ∃ es, part? document outer inner = some (.obj es)

/-- What is read of a part: a value that counts as false reads as an empty mapping. -/
def partRead (document : Fields) (outer inner : String) : Json :=
  let given := (part? document outer inner).getD .null
  if given.truthy then given else .obj []

theorem givenIn_run (hopen : MayOpen document outer) :
    givenIn (ensureSection document outer) outer inner = .ok (partRead document outer inner) := by
  obtain ⟨fs, hfs⟩ := hopen.ensured
  have hpart : Assoc.find? fs inner = part? document outer inner := by
    rw [← part?_ensureSection document outer, part?_of_open hfs]
  unfold givenIn partRead
  dsimp only
  rw [hfs, Option.getD_some, Json.getD_obj, Attempt.ok_bind, hpart]
  rfl

theorem partRead_congr (h : part? document' outer inner = part? document outer inner) :
    partRead document' outer inner = partRead document outer inner := by
  rw [partRead, h, partRead]

theorem partRead_of_obj (h : part? document outer inner = some (.obj es)) :
    partRead document outer inner = .obj es := by
  rw [partRead, h]
  cases es <;> rfl

theorem partRead_of_given (h : Given document outer inner) :
    partRead document outer inner = .obj (entriesIn document outer inner) := by
  rcases h with hnull | ⟨es, hes⟩
  · rw [partRead, entriesIn, hnull]
    rfl
  · rw [partRead_of_obj hes, entriesIn, hes]
    rfl

/-- A part that is read as a mapping has the entries of that mapping. -/
theorem entriesIn_of_partRead (h : partRead document outer inner = .obj es) :
    entriesIn document outer inner = es := by
  unfold partRead at h
  unfold entriesIn
  dsimp only at h
  split at h
  · rw [h]
    rfl
  · rename_i hfalse
    cases h
    cases hgiven : (part? document outer inner).getD .null with
    | obj fs => cases fs <;> simp_all [Json.truthy, fieldsOf]
    | _ => rfl

/-- A part that is missing or null is read as an empty mapping. -/
theorem givenIn_ensured (hopen : MayOpen document outer) (h : Given document outer inner) :
    givenIn (ensureSection document outer) outer inner = .ok (.obj (entriesIn document outer inner)) := by
  rw [givenIn_run hopen, partRead_of_given h]

/-- A part has been set, and names are recorded. -/
theorem recordAfter_both (hputs : Puts outer inner v document document')
    (hopen : MayOpen document "execution") (hne : (outer, inner) ≠ ("execution", collisionsField))
    (names : List String) :
    Attempt.Both (fun w c => ∃ document'', w = .obj document'' ∧
        part? document'' outer inner = some v ∧ collisionsOf document'' = c ∧
        Changes [(outer, inner), ("execution", collisionsField)] document document'' ∧
        IsOpen document'' outer ∧ ∀ o, MayOpen document o → MayOpen document'' o)
      (recordCollisions (.obj document') names) (recorded (collisionsOf document) names) := by
  have hcollisions : collisionsOf document' = collisionsOf document :=
    hputs.changes.part _ _ (by simpa using Ne.symm hne)
  rw [← hcollisions]
  refine (recordCollisions_both (hputs.mayOpen hopen) names).mono ?_
  rintro w c ⟨document'', rfl, hc, hchanges, hmay⟩
  refine ⟨document'', rfl, ?_, hc, hputs.changes.trans hchanges, hchanges.opened _ hputs.own,
    fun o ho => hmay o (hputs.mayOpen ho)⟩
  rw [hchanges.part _ _ (by simpa using hne), hputs.own_part]

/-- A section is put in its place with its definitions qualified, and their common names are recorded. -/
theorem qualifySection_run (kind : Kind) (hes : RawEntries es) (hopen : MayOpen document outer)
    (hread : partRead document outer inner = .obj es) :
    qualifySection (.obj document) outer inner kind =
      recordCollisions (.obj (setInSection (ensureSection document outer) outer inner
        (.obj (gathered kind es)))) (Text.repeated (qualifiedKeys kind es)) := by
  unfold qualifySection
  rw [Json.fieldsFor_obj, Attempt.ok_bind]
  dsimp only
  rw [givenIn_run hopen, hread, Attempt.ok_bind, qualifyEntries_run kind hes, Attempt.ok_bind]

theorem qualifySection_both (kind : Kind) (hes : RawEntries es) (hopen : MayOpen document outer)
    (hexecution : MayOpen document "execution") (hread : partRead document outer inner = .obj es)
    (hne : (outer, inner) ≠ ("execution", collisionsField)) :
    Attempt.Both (fun w c => ∃ document', w = .obj document' ∧
        part? document' outer inner = some (.obj (gathered kind es)) ∧ collisionsOf document' = c ∧
        Changes [(outer, inner), ("execution", collisionsField)] document document' ∧
        IsOpen document' outer ∧ ∀ o, MayOpen document o → MayOpen document' o)
      (qualifySection (.obj document) outer inner kind)
      (recorded (collisionsOf document) (Text.repeated (qualifiedKeys kind es))) := by
  rw [qualifySection_run kind hes hopen hread]
  exact recordAfter_both (setInSection_puts hopen inner _) hexecution hne _

/-- Entries are added to the processes in their place, and the names that were there are recorded. -/
theorem mergeSection_run (hes : (Assoc.keys es).Nodup) (hopen : MayOpen document "execution")
    (hread : mappingOf (partRead document "execution" "processes") = .ok pr) :
    mergeSection (.obj document) (.obj es) =
      recordCollisions (.obj (setInSection (ensureSection document "execution") "execution" "processes"
        (.obj (mergeFields pr es).1))) (Text.common (Assoc.keys es) (Assoc.keys pr)) := by
  unfold mergeSection mergeProcesses
  rw [Json.fieldsFor_obj, Attempt.ok_bind]
  dsimp only
  rw [givenIn_run hopen, Attempt.ok_bind, hread, Attempt.ok_bind, Json.items_obj, Attempt.ok_bind,
    Attempt.pure_eq_ok, Attempt.ok_bind, ← mergeFields_names _ hes]

theorem mergeSection_both (hes : (Assoc.keys es).Nodup) (hopen : MayOpen document "execution")
    (hread : mappingOf (partRead document "execution" "processes") = .ok pr) :
    Attempt.Both (fun w c => ∃ document', w = .obj document' ∧
        part? document' "execution" "processes" = some (.obj (mergeFields pr es).1) ∧
        collisionsOf document' = c ∧
        Changes [("execution", "processes"), ("execution", collisionsField)] document document' ∧
        IsOpen document' "execution")
      (mergeSection (.obj document) (.obj es))
      (recorded (collisionsOf document) (Text.common (Assoc.keys es) (Assoc.keys pr))) := by
  rw [mergeSection_run hes hopen hread]
  refine (recordAfter_both (setInSection_puts hopen "processes" _) hopen (by decide) _).mono ?_
  rintro w c ⟨document', rfl, hpart', hc, hchanges, hown, -⟩
  exact ⟨document', rfl, hpart', hc, hchanges, hown⟩

/-- The names that are defined more than once when a document is qualified: in one section or the other, or
as an extractor and a process. -/
def doubled (extractors factors processes : Fields) : List (List String) :=
  [Text.repeated (qualifiedKeys .process extractors), Text.repeated (qualifiedKeys .factor factors),
    Text.common (qualifiedKeys .process extractors) (Assoc.keys processes)]

/-- The parts that qualification writes. -/
def qualifiedParts : List (String × String) :=
  [("extraction", "extractors"), ("inference", "factors"), ("execution", "processes"),
    ("execution", collisionsField)]

/-- The parts that the standard stages write. -/
def writtenParts : List (String × String) :=
  [("extraction", "extractors"), ("inference", "factors"), ("execution", "processes"),
    ("execution", collisionsField), ("execution", "dependencies")]

/-- The whole document is qualified, its missing sections are created, unless the collisions cannot be
recorded. -/
theorem qualify_read_both
    (hsections : ∀ o ∈ ["extraction", "inference", "execution"], MayOpen document o)
    (hextractors : partRead document "extraction" "extractors" = .obj es)
    (hfactors : partRead document "inference" "factors" = .obj fa)
    (hprocesses : mappingOf (partRead document "execution" "processes") = .ok pr)
    (hes : RawEntries es) (hfa : RawEntries fa) :
    Attempt.Both (fun w c => ∃ document', w = .obj document' ∧
        Holds document' (gathered .process es) (gathered .factor fa)
          (mergeFields pr (gathered .process es)).1 ∧
        collisionsOf document' = c ∧ Changes qualifiedParts document document')
      (qualify (.obj document)) ((doubled es fa pr).foldlM recorded (collisionsOf document)) := by
  simp only [List.forall_mem_cons, List.not_mem_nil, false_implies, implies_true, and_true] at hsections
  obtain ⟨hextraction, hinference, hexecution⟩ := hsections
  unfold qualify
  simp only [doubled, List.foldlM_cons, List.foldlM_nil]
  refine (qualifySection_both .process hes hextraction hexecution hextractors (by decide)).bind ?_
  rintro - - ⟨d₁, rfl, hpart₁, rfl, hchanges₁, hown₁, hmay₁⟩
  have hfactors₁ : partRead d₁ "inference" "factors" = .obj fa := by
    rw [← hfactors]
    exact partRead_congr (hchanges₁.part _ _ (by decide))
  refine (qualifySection_both .factor hfa (hmay₁ _ hinference) (hmay₁ _ hexecution) hfactors₁
    (by decide)).bind ?_
  rintro - - ⟨d₂, rfl, hpart₂, rfl, hchanges₂, hown₂, hmay₂⟩
  have hchanges₁₂ := hchanges₁.trans hchanges₂
  have hextractors₂ : part? d₂ "extraction" "extractors" = some (.obj (gathered .process es)) := by
    rw [hchanges₂.part _ _ (by decide), hpart₁]
  have hprocesses₂ : mappingOf (partRead d₂ "execution" "processes") = .ok pr := by
    rw [← hprocesses]
    exact congrArg mappingOf (partRead_congr (hchanges₁₂.part _ _ (by decide)))
  have hgathers := gathers_gathered .process es
  have hcommon : Text.common (qualifiedKeys .process es) (Assoc.keys pr) =
      Text.common (Assoc.keys (gathered .process es)) (Assoc.keys pr) :=
    Text.common_of_mem (fun k => (hgathers.keys k).symm) fun _ => Iff.rfl
  rw [section?_obj, hextractors₂, Attempt.ok_bind, hcommon, bind_pure]
  refine (mergeSection_both hgathers.once (hmay₂ _ (hmay₁ _ hexecution)) hprocesses₂).mono ?_
  rintro - - ⟨d₃, rfl, hpart₃, rfl, hchanges₃, hown₃⟩
  have hchanges := hchanges₁₂.trans hchanges₃
  refine ⟨d₃, rfl, ⟨(hchanges₂.trans hchanges₃).opened _ hown₁, hchanges₃.opened _ hown₂, hown₃, ?_, ?_,
    hpart₃⟩, rfl, hchanges.mono (by decide)⟩
  · rw [hchanges₃.part _ _ (by decide), hextractors₂]
  · rw [hchanges₃.part _ _ (by decide), hpart₂]

/-- A document whose parts are missing, null or mappings is qualified, unless the collisions cannot be
recorded. -/
theorem qualify_given_both
    (hsections : ∀ o ∈ ["extraction", "inference", "execution"], MayOpen document o)
    (hshape : ∀ x ∈ Stage.sections, Given document x.1 x.2)
    (hes : RawEntries (entriesIn document "extraction" "extractors"))
    (hfa : RawEntries (entriesIn document "inference" "factors")) :
    Attempt.Both (fun w c => ∃ document', w = .obj document' ∧
        Holds document' (gathered .process (entriesIn document "extraction" "extractors"))
          (gathered .factor (entriesIn document "inference" "factors"))
          (mergeFields (entriesIn document "execution" "processes")
            (gathered .process (entriesIn document "extraction" "extractors"))).1 ∧
        collisionsOf document' = c ∧ Changes qualifiedParts document document')
      (qualify (.obj document))
      ((doubled (entriesIn document "extraction" "extractors") (entriesIn document "inference" "factors")
        (entriesIn document "execution" "processes")).foldlM recorded (collisionsOf document)) := by
  simp only [List.forall_mem_cons, Stage.sections, List.not_mem_nil, false_implies, implies_true,
    and_true] at hshape
  obtain ⟨hextractors, hfactors, hprocesses⟩ := hshape
  exact qualify_read_both hsections (partRead_of_given hextractors) (partRead_of_given hfactors)
    (congrArg mappingOf (partRead_of_given hprocesses)) hes hfa

theorem Holds.entries (h : Holds document es fa pr) :
    entriesIn document "extraction" "extractors" = es ∧ entriesIn document "inference" "factors" = fa ∧
      entriesIn document "execution" "processes" = pr := by
  unfold entriesIn
  rw [h.extractors, h.factors, h.processes]
  exact ⟨rfl, rfl, rfl⟩

/-- Changes outside the three mappings leave them there. -/
theorem Holds.of_changes (h : Holds document es fa pr) {parts : List (String × String)}
    (hchanges : Changes parts document document') (hparts : ∀ x ∈ Stage.sections, x ∉ parts) :
    Holds document' es fa pr := by
  simp only [Stage.sections, List.forall_mem_cons, List.not_mem_nil, false_implies, implies_true,
    and_true] at hparts
  obtain ⟨hextractors, hfactors, hprocesses⟩ := hparts
  exact ⟨hchanges.opened _ h.extraction, hchanges.opened _ h.inference, hchanges.opened _ h.execution,
    (hchanges.part _ _ hextractors).trans h.extractors, (hchanges.part _ _ hfactors).trans h.factors,
    (hchanges.part _ _ hprocesses).trans h.processes⟩

/-- A document whose sections are there is qualified, unless the collisions cannot be recorded. -/
theorem qualify_both (h : Holds document es fa pr) (hes : RawEntries es) (hfa : RawEntries fa) :
    Attempt.Both (fun w c => ∃ document', w = .obj document' ∧
        Holds document' (gathered .process es) (gathered .factor fa)
          (mergeFields pr (gathered .process es)).1 ∧
        collisionsOf document' = c ∧ Changes qualifiedParts document document')
      (qualify (.obj document))
      ((doubled es fa pr).foldlM recorded (collisionsOf document)) := by
  refine qualify_read_both ?_ (partRead_of_obj h.extractors) (partRead_of_obj h.factors)
    (congrArg mappingOf (partRead_of_obj h.processes)) hes hfa
  simpa using ⟨h.extraction.mayOpen, h.inference.mayOpen, h.execution.mayOpen⟩

/-- The factors are added to the processes, unless the collisions cannot be recorded. -/
theorem liftFactors_both (h : Holds document es fa pr) (hfa : (Assoc.keys fa).Nodup) :
    Attempt.Both (fun w c => ∃ document', w = .obj document' ∧
        Holds document' es fa (mergeFields pr fa).1 ∧ collisionsOf document' = c ∧
        Changes writtenParts document document')
      (Stage.liftFactors (.obj document))
      (recorded (collisionsOf document) (Text.common (Assoc.keys fa) (Assoc.keys pr))) := by
  obtain ⟨inference, hinference⟩ := h.inference
  obtain ⟨execution, hexecution⟩ := h.execution
  have hfactors : Assoc.find? inference "factors" = some (.obj fa) := by
    rw [← part?_of_open hinference, h.factors]
  have hprocesses : Assoc.find? execution "processes" = some (.obj pr) := by
    rw [← part?_of_open hexecution, h.processes]
  unfold Stage.liftFactors
  rw [Json.field_obj hinference, Attempt.ok_bind, Json.field_obj hfactors, Attempt.ok_bind,
    Json.field_obj hexecution, Attempt.ok_bind, Json.field_obj hprocesses, Attempt.ok_bind,
    ← mergeFields_names pr hfa]
  refine (recordAfter_both (puts_set_of_open hexecution) h.execution.mayOpen
    (by decide) (mergeFields pr fa).2).mono ?_
  rintro - - ⟨document', rfl, hpart, rfl, hchanges, -⟩
  refine ⟨document', rfl, ⟨hchanges.opened _ h.extraction, hchanges.opened _ h.inference,
    hchanges.opened _ h.execution, ?_, ?_, hpart⟩, rfl, hchanges.mono (by decide)⟩
  · rw [hchanges.part _ _ (by decide), h.extractors]
  · rw [hchanges.part _ _ (by decide), h.factors]

/-! ## Missing sections -/

/-- A part that the raw shape allows is read as its entries. -/
theorem given_entries (h : Given document outer inner) :
    ((part? document outer inner).bind Json.toOption).getD (.obj []) =
      .obj (entriesIn document outer inner) := by
  unfold entriesIn
  rcases h with hnull | ⟨es, hobj⟩
  · cases hpart : part? document outer inner with
    | none => rfl
    | some v => simp_all [Json.toOption, fieldsOf]
  · rw [hobj]
    rfl

/-- Missing sections are created, others are kept. -/
theorem initObjects_run
    (hsections : ∀ o ∈ ["extraction", "inference", "execution"], IsSection document o)
    (hshape : ∀ x ∈ Stage.sections, Given document x.1 x.2) :
    ∃ document', Stage.initObjects.transform (.obj document) = .ok (.obj document') ∧
      Holds document' (entriesIn document "extraction" "extractors")
        (entriesIn document "inference" "factors") (entriesIn document "execution" "processes") ∧
      Changes Stage.sections document document' := by
  simp only [List.forall_mem_cons, Stage.sections, List.not_mem_nil, false_implies, implies_true,
    and_true] at hsections hshape
  obtain ⟨hextraction, hinference, hexecution⟩ := hsections
  obtain ⟨hextractors, hfactors, hprocesses⟩ := hshape
  obtain ⟨d₁, hrun₁, hputs₁⟩ := ensureField_puts hextraction "extractors"
  obtain ⟨d₂, hrun₂, hputs₂⟩ := ensureField_puts (hputs₁.changes.sections _ hinference) "factors"
  have hchanges₁₂ := hputs₁.changes.trans hputs₂.changes
  obtain ⟨d₃, hrun₃, hputs₃⟩ := ensureField_puts (hchanges₁₂.sections _ hexecution) "processes"
  have hchanges₂₃ := hputs₂.changes.trans hputs₃.changes
  have hchanges := hputs₁.changes.trans hchanges₂₃
  refine ⟨d₃, ?_, ⟨hchanges₂₃.opened _ hputs₁.own, hputs₃.changes.opened _ hputs₂.own, hputs₃.own,
    ?_, ?_, ?_⟩, hchanges⟩
  · unfold Stage.initObjects Stage.sections
    simp only [List.foldlM_cons, List.foldlM_nil, hrun₁, hrun₂, hrun₃, Attempt.ok_bind]
    rfl
  · rw [hchanges₂₃.part _ _ (by decide), hputs₁.own_part, given_entries hextractors]
  · rw [hputs₃.changes.part _ _ (by decide), hputs₂.own_part, hputs₁.changes.part _ _ (by decide),
      given_entries hfactors]
  · rw [hputs₃.own_part, hchanges₁₂.part _ _ (by decide), given_entries hprocesses]

/-- A section that is neither missing nor null nor a mapping cannot be created. -/
theorem isSection_of_ensureField (h : Stage.ensureField (.obj document) outer inner = .ok v) :
    IsSection document outer := by
  unfold Stage.ensureField at h
  rw [Json.getD_obj, Attempt.ok_bind] at h
  cases hfind : Assoc.find? document outer with
  | none => exact .inl hfind
  | some w =>
    cases w with
    | null => exact .inr (.inl hfind)
    | obj fs => exact .inr (.inr ⟨fs, hfind⟩)
    | _ =>
      rw [hfind, Option.getD_some] at h
      obtain ⟨section_, hsection, h⟩ := Attempt.bind_eq_ok.1 h
      cases hsection
      obtain ⟨given, hgiven, -⟩ := Attempt.bind_eq_ok.1 h
      cases hgiven

theorem sections_of_initObjects (h : Stage.initObjects.transform (.obj document) = .ok v) :
    ∀ o ∈ ["extraction", "inference", "execution"], IsSection document o := by
  unfold Stage.initObjects Stage.sections at h
  dsimp only at h
  simp only [List.foldlM_cons] at h
  obtain ⟨w₁, hrun₁, h⟩ := Attempt.bind_eq_ok.1 h
  have hextraction := isSection_of_ensureField hrun₁
  obtain ⟨d₁, hrun₁', hputs₁⟩ := ensureField_puts hextraction "extractors"
  obtain rfl : w₁ = .obj d₁ := Except.ok.inj (hrun₁.symm.trans hrun₁')
  obtain ⟨w₂, hrun₂, h⟩ := Attempt.bind_eq_ok.1 h
  have hinference := isSection_of_ensureField hrun₂
  obtain ⟨d₂, hrun₂', hputs₂⟩ := ensureField_puts hinference "factors"
  obtain rfl : w₂ = .obj d₂ := Except.ok.inj (hrun₂.symm.trans hrun₂')
  obtain ⟨w₃, hrun₃, -⟩ := Attempt.bind_eq_ok.1 h
  have hexecution := isSection_of_ensureField hrun₃
  have houtside := (hputs₁.changes.trans hputs₂.changes).outside "execution" (by decide)
  simp only [List.forall_mem_cons, List.not_mem_nil, false_implies, implies_true, and_true]
  exact ⟨hextraction, (isSection_congr (hputs₁.outside _ (by decide))).1 hinference,
    (isSection_congr houtside).1 hexecution⟩

end Document

end FlowPlan

import FlowPlan.Proofs.Document.Definition
import FlowPlan.Unit.Stages
import Mathlib

/-!
# Parts of a document

The compiler looks at a document through the values under two levels of names. A stage sets a few of
them and leaves the others as they are.

## Main definitions

* `Document.part?` — the value under two levels of names.
* `Document.Puts`, `Document.Changes` — one part has been set, some parts have changed.
* `Document.Lists` — a part is a mapping of entries.

## Main statements

* `Document.check_iff` — the shape of a document by its parts.
* `Document.ensureField_puts` — a part is created where it is missing.
-/

namespace FlowPlan.Document

/-- The value under two levels of names, if there is one. -/
def part? (document : Fields) (outer inner : String) : Option Json :=
  match Assoc.find? document outer with
  | some (.obj fs) => Assoc.find? fs inner
  | _ => none

/-- The entries of a part; one that is missing or null has none. -/
def entriesIn (document : Fields) (outer inner : String) : Fields :=
  fieldsOf ((part? document outer inner).getD .null)

/-- There is a mapping under the name. -/
def IsOpen (document : Fields) (outer : String) : Prop :=
  ∃ fs, Assoc.find? document outer = some (.obj fs)

/-- What is under the name, if anything, is a mapping. -/
def MayOpen (document : Fields) (outer : String) : Prop :=
  Assoc.find? document outer = none ∨ IsOpen document outer

/-- What is under the name, if anything, is null or a mapping. -/
def IsSection (document : Fields) (outer : String) : Prop :=
  Assoc.find? document outer = none ∨ Assoc.find? document outer = some .null ∨ IsOpen document outer

/-- No key is bound twice, in the document and in its sections. -/
structure Once (document : Fields) : Prop where
  keys : (Assoc.keys document).Nodup
  inside : ∀ o fs, Assoc.find? document o = some (.obj fs) → (Assoc.keys fs).Nodup

/-- One part of the document has been set, the others are as before. -/
structure Puts (outer inner : String) (v : Json) (document document' : Fields) : Prop where
  part : ∀ o i, part? document' o i = if o = outer ∧ i = inner then some v else part? document o i
  outside : ∀ o, o ≠ outer → Assoc.find? document' o = Assoc.find? document o
  own : IsOpen document' outer
  once : Once document → Once document'

/-- Only these parts have changed. -/
structure Changes (parts : List (String × String)) (document document' : Fields) : Prop where
  part : ∀ o i, (o, i) ∉ parts → part? document' o i = part? document o i
  outside : ∀ o, o ∉ parts.map (·.1) → Assoc.find? document' o = Assoc.find? document o
  opened : ∀ o, IsOpen document o → IsOpen document' o
  sections : ∀ o, IsSection document o → IsSection document' o
  once : Once document → Once document'

/-- The part is a mapping whose entries are mappings with a property; where it is not required it may
also be missing or null. -/
def Lists (document : Fields) (outer inner : String) (required : Bool) (P : String → Fields → Prop) :
    Prop :=
  required = false ∧ (part? document outer inner).getD .null = .null ∨
    ∃ es, part? document outer inner = some (.obj es) ∧ ∀ e ∈ es, ∃ fs, e.2 = .obj fs ∧ P e.1 fs

variable {document document' : Fields} {outer inner : String} {v : Json}

/-! ## Looking up -/

theorem part?_of_open {fs : Fields} (h : Assoc.find? document outer = some (.obj fs)) (i : String) :
    part? document outer i = Assoc.find? fs i := by
  rw [part?, h]

theorem isOpen_of_part (h : part? document outer inner = some v) : IsOpen document outer := by
  unfold part? at h
  split at h
  · exact ⟨_, ‹_›⟩
  · cases h

/-- The section of that name; one that is missing or null has no fields. -/
theorem IsSection.fields (h : IsSection document outer) :
    ∃ fs, (∀ i, part? document outer i = Assoc.find? fs i) ∧
      ((Assoc.find? document outer).getD .null = .null ∧ fs = [] ∨
        Assoc.find? document outer = some (.obj fs)) := by
  rcases h with h | h | ⟨fs, h⟩
  · exact ⟨[], by simp [part?, h], .inl (by simp [h])⟩
  · exact ⟨[], by simp [part?, h], .inl (by simp [h])⟩
  · exact ⟨fs, part?_of_open h, .inr h⟩

theorem IsOpen.isSection (h : IsOpen document outer) : IsSection document outer := .inr (.inr h)

theorem IsOpen.mayOpen (h : IsOpen document outer) : MayOpen document outer := .inr h

theorem MayOpen.isSection (h : MayOpen document outer) : IsSection document outer :=
  h.elim .inl IsOpen.isSection

theorem section?_obj (document : Fields) (outer inner : String) : section? (.obj document) outer inner =
    .ok ((part? document outer inner).getD .null) := by
  unfold section? part?
  rw [Json.getD_obj, Attempt.ok_bind]
  cases hfind : Assoc.find? document outer with
  | none => rfl
  | some v => cases v <;> rfl

/-! ## Changes -/

theorem isOpen_congr {o : String} (h : Assoc.find? document' o = Assoc.find? document o) :
    IsOpen document' o ↔ IsOpen document o := by
  rw [IsOpen, h, IsOpen]

theorem isSection_congr {o : String} (h : Assoc.find? document' o = Assoc.find? document o) :
    IsSection document' o ↔ IsSection document o := by
  rw [IsSection, isOpen_congr h, h, IsSection]

theorem mayOpen_congr {o : String} (h : Assoc.find? document' o = Assoc.find? document o) :
    MayOpen document' o ↔ MayOpen document o := by
  rw [MayOpen, isOpen_congr h, h, MayOpen]

theorem Puts.changes (h : Puts outer inner v document document') :
    Changes [(outer, inner)] document document' where
  part o i hnot := by
    rw [h.part, if_neg (by simpa using hnot)]
  outside o ho := h.outside o (by simpa using ho)
  opened o ho := by
    by_cases heq : o = outer
    · exact heq ▸ h.own
    · exact (isOpen_congr (h.outside o heq)).2 ho
  sections o ho := by
    by_cases heq : o = outer
    · exact heq ▸ h.own.isSection
    · exact (isSection_congr (h.outside o heq)).2 ho
  once := h.once

/-- A section that is a mapping, if anything, is still one. -/
theorem Puts.mayOpen (h : Puts outer inner v document document') {o : String} (ho : MayOpen document o) :
    MayOpen document' o := by
  by_cases heq : o = outer
  · exact heq ▸ h.own.mayOpen
  · exact (mayOpen_congr (h.outside o heq)).2 ho

theorem Puts.own_part (h : Puts outer inner v document document') :
    part? document' outer inner = some v := by
  rw [h.part, if_pos ⟨rfl, rfl⟩]

variable {document'' : Fields} {parts parts' : List (String × String)}

theorem Changes.refl (parts : List (String × String)) (document : Fields) :
    Changes parts document document :=
  ⟨fun _ _ _ => rfl, fun _ _ => rfl, fun _ h => h, fun _ h => h, id⟩

theorem Changes.trans (h : Changes parts document document') (h' : Changes parts' document' document'') :
    Changes (parts ++ parts') document document'' where
  part o i hnot := by
    rw [List.mem_append, not_or] at hnot
    rw [h'.part o i hnot.2, h.part o i hnot.1]
  outside o hnot := by
    rw [List.map_append, List.mem_append, not_or] at hnot
    rw [h'.outside o hnot.2, h.outside o hnot.1]
  opened o ho := h'.opened o (h.opened o ho)
  sections o ho := h'.sections o (h.sections o ho)
  once ho := h'.once (h.once ho)

theorem Changes.mono (h : Changes parts document document') (hparts : ∀ x ∈ parts, x ∈ parts') :
    Changes parts' document document' where
  part o i hnot := h.part o i fun hmem => hnot (hparts _ hmem)
  outside o hnot := h.outside o fun hmem => by
    obtain ⟨x, hx, rfl⟩ := List.mem_map.1 hmem
    exact hnot (List.mem_map_of_mem (hparts x hx))
  opened := h.opened
  sections := h.sections
  once := h.once

/-! ## Setting a part -/

theorem puts_of_fields {fs : Fields}
    (hfs : ∀ i, Assoc.find? fs i = if i = inner then some v else part? document outer i)
    (honce : Once document → (Assoc.keys fs).Nodup) :
    Puts outer inner v document (Assoc.set document outer (.obj fs)) := by
  have hown : Assoc.find? (Assoc.set document outer (.obj fs)) outer = some (.obj fs) := by
    rw [Assoc.find?_set, if_pos rfl]
  have hother : ∀ o, o ≠ outer →
      Assoc.find? (Assoc.set document outer (.obj fs)) o = Assoc.find? document o :=
    fun o ho => by rw [Assoc.find?_set, if_neg (Ne.symm ho)]
  refine ⟨fun o i => ?_, hother, ⟨fs, hown⟩, fun h => ⟨?_, ?_⟩⟩
  · by_cases h : o = outer
    · subst h
      rw [part?, hown]
      simpa using hfs i
    · rw [if_neg (fun hc => h hc.1), part?, part?, hother o h]
  · exact Assoc.nodup_set h.keys _ _
  · intro o gs hgs
    by_cases ho : o = outer
    · subst ho
      rw [hown] at hgs
      cases hgs
      exact honce h
    · exact h.inside o gs (hother o ho ▸ hgs)

theorem puts_set {fs : Fields} (hfs : ∀ i, part? document outer i = Assoc.find? fs i)
    (honce : Once document → (Assoc.keys fs).Nodup) :
    Puts outer inner v document (Assoc.set document outer (.obj (Assoc.set fs inner v))) := by
  refine puts_of_fields (fun i => ?_) fun h => Assoc.nodup_set (honce h) _ _
  rw [Assoc.find?_set, hfs]
  simp only [eq_comm]

theorem puts_set_of_open {fs : Fields} (hfs : Assoc.find? document outer = some (.obj fs)) :
    Puts outer inner v document (Assoc.set document outer (.obj (Assoc.set fs inner v))) :=
  puts_set (part?_of_open hfs) fun h => h.inside outer fs hfs

theorem contains_of_find? {m : Fields} {k : String} (h : Assoc.find? m k = some v) :
    Assoc.contains m k = true := by
  rw [Assoc.contains, List.any_eq_true]
  exact ⟨_, Assoc.mem_of_find? h, by simp⟩

/-- A section that is there need not be created. -/
theorem ensureSection_of_open (h : IsOpen document outer) : ensureSection document outer = document := by
  obtain ⟨fs, hfs⟩ := h
  rw [ensureSection, if_pos (contains_of_find? hfs)]

/-- A section that has been created has no parts. -/
theorem part?_ensureSection (document : Fields) (outer o i : String) :
    part? (ensureSection document outer) o i = part? document o i := by
  unfold ensureSection
  split
  · rfl
  · rename_i hnew
    have hnone : Assoc.find? document outer = none :=
      Assoc.find?_eq_none_iff.2 (mt Assoc.contains_iff.2 hnew)
    unfold part?
    rw [Assoc.find?_set]
    by_cases heq : outer = o
    · rw [if_pos heq, ← heq, hnone]
      rfl
    · rw [if_neg heq]

theorem find?_ensureSection_of_ne {o : String} (h : o ≠ outer) :
    Assoc.find? (ensureSection document outer) o = Assoc.find? document o := by
  unfold ensureSection
  split
  · rfl
  · rw [Assoc.find?_set, if_neg (Ne.symm h)]

theorem MayOpen.ensured (h : MayOpen document outer) : IsOpen (ensureSection document outer) outer := by
  rcases h with hnone | hopen
  · have hnew : Assoc.contains document outer ≠ true := by
      rw [Ne, Assoc.contains_iff, ← Assoc.find?_eq_none_iff]
      exact hnone
    rw [ensureSection, if_neg hnew]
    exact ⟨[], by rw [Assoc.find?_set, if_pos rfl]⟩
  · rwa [ensureSection_of_open hopen]

theorem once_ensureSection (h : Once document) (outer : String) : Once (ensureSection document outer) := by
  unfold ensureSection
  split
  · exact h
  · refine ⟨Assoc.nodup_set h.keys _ _, fun o fs hfs => ?_⟩
    rw [Assoc.find?_set] at hfs
    split at hfs
    · cases hfs
      exact .nil
    · exact h.inside o fs hfs

/-- A part is set in a section that is created where it is missing. -/
theorem setInSection_puts (h : MayOpen document outer) (inner : String) (v : Json) :
    Puts outer inner v document (setInSection (ensureSection document outer) outer inner v) := by
  obtain ⟨fs, hfs⟩ := h.ensured
  have hputs : Puts outer inner v (ensureSection document outer)
      (setInSection (ensureSection document outer) outer inner v) := by
    rw [setInSection, hfs]
    exact puts_set_of_open hfs
  refine ⟨fun o i => ?_, fun o ho => ?_, hputs.own, fun honce => hputs.once (once_ensureSection honce outer)⟩
  · rw [hputs.part, part?_ensureSection]
  · rw [hputs.outside o ho, find?_ensureSection_of_ne ho]

theorem ensureField_run {fs : Fields} (h : (Assoc.find? document outer).getD .null = .null ∧ fs = [] ∨
    Assoc.find? document outer = some (.obj fs)) (inner : String) :
    Stage.ensureField (.obj document) outer inner =
      match (Assoc.find? fs inner).getD .null with
      | .null => .ok (.obj (Assoc.set document outer (.obj (Assoc.set fs inner (.obj [])))))
      | _ => .ok (.obj (Assoc.set document outer (.obj fs))) := by
  unfold Stage.ensureField
  rcases h with ⟨hnull, rfl⟩ | hobj
  · simp only [Json.getD_obj, Attempt.ok_bind, hnull]
    rfl
  · simp only [Json.getD_obj, Attempt.ok_bind, hobj]
    rfl

/-- A part that is missing or null is created as an empty mapping. -/
theorem ensureField_puts (h : IsSection document outer) (inner : String) :
    ∃ document', Stage.ensureField (.obj document) outer inner = .ok (.obj document') ∧
      Puts outer inner (((part? document outer inner).bind Json.toOption).getD (.obj [])) document
        document' := by
  obtain ⟨fs, hpart, hsection⟩ := h.fields
  have honce : Once document → (Assoc.keys fs).Nodup := by
    rcases hsection with ⟨-, rfl⟩ | hobj
    · exact fun _ => .nil
    · exact fun h => h.inside outer fs hobj
  rw [ensureField_run hsection, hpart]
  by_cases hnull : (Assoc.find? fs inner).getD .null = .null
  · have hnone : (Assoc.find? fs inner).bind Json.toOption = none := by
      cases hfind : Assoc.find? fs inner with
      | none => rfl
      | some v => simp_all [Json.toOption]
    rw [hnull, hnone]
    exact ⟨_, rfl, puts_set hpart honce⟩
  · cases hfind : Assoc.find? fs inner with
    | none => simp [hfind] at hnull
    | some v =>
      have hgiven : v ≠ .null := by simpa [hfind] using hnull
      have hfs : ∀ i, Assoc.find? fs i = if i = inner then some v else part? document outer i := by
        intro i
        by_cases hi : i = inner
        · rw [if_pos hi, hi, hfind]
        · rw [if_neg hi, hpart]
      rw [Option.bind_some, Json.toOption_of_ne_null hgiven]
      refine ⟨Assoc.set document outer (.obj fs), ?_, puts_of_fields hfs honce⟩
      cases v with
      | null => exact absurd rfl hgiven
      | _ => rfl

/-! ## The shape -/

theorem mapM_fields {es : Fields} (h : ∀ e ∈ es, ∃ fs, e.2 = .obj fs) (path : String) :
    es.mapM (fun (name, entry) => match entry with
        | .obj fields => (.ok (name, fields) : Attempt (String × Fields))
        | _ => expected "expected a mapping" s!"{path}.{name}") =
      .ok (es.map fun e => (e.1, fieldsOf e.2)) := by
  refine Attempt.mapM_eq_ok fun e he => ?_
  obtain ⟨fs, hfs⟩ := h e he
  obtain ⟨n, v⟩ := e
  obtain rfl : v = .obj fs := hfs
  rfl

theorem checkMapping_iff {path : String} {required : Bool} {f : String × Fields → Attempt Unit} :
    (checkMapping ((part? document outer inner).getD .null) path required >>= fun entries =>
      entries.forM f) = .ok () ↔
      Lists document outer inner required fun n fs => f (n, fs) = .ok () := by
  unfold checkMapping Lists
  cases hpart : part? document outer inner with
  | none => cases required <;> simp [expected]
  | some v =>
    cases v with
    | null => cases required <;> simp [expected]
    | obj es =>
      simp only [Option.getD_some, reduceCtorEq, and_false, Option.some.injEq, Json.obj.injEq,
        exists_eq_left', false_or]
      constructor
      · intro h e he
        obtain ⟨ys, hys, hforM⟩ := Attempt.bind_eq_ok.1 h
        obtain ⟨y, hy, hentry⟩ := Attempt.result_of_mapM hys he
        obtain ⟨n, v⟩ := e
        cases v with
        | obj fs =>
          cases hentry
          exact ⟨fs, rfl, Attempt.forM_eq_ok.1 hforM _ hy⟩
        | _ => cases hentry
      · intro h
        have hmap := mapM_fields (fun e he => (h e he).imp fun _ hfs => hfs.1) path
        refine Attempt.bind_eq_ok.2 ⟨_, hmap, Attempt.forM_eq_ok.2 fun y hy => ?_⟩
        obtain ⟨e, he, rfl⟩ := List.mem_map.1 hy
        obtain ⟨fs, hfs, hf⟩ := h e he
        rw [hfs]
        exact hf
    | _ => simp [expected]

theorem checkDefinitions_iff {level : Level} {kind : Kind} :
    checkDefinitions (.obj document) level outer inner kind = .ok () ↔
      Lists document outer inner (level = .qualified) fun n fs =>
        checkDefinition level kind s!"{outer}.{inner}" n fs = .ok () := by
  unfold checkDefinitions
  rw [section?_obj]
  exact checkMapping_iff (f := fun e => checkDefinition level kind s!"{outer}.{inner}" e.1 e.2)

theorem checkProcesses_iff {level : Level} : checkProcesses (.obj document) level = .ok () ↔
    Lists document "execution" "processes" (level = .qualified) fun n fs =>
      level = .qualified → checkProcess "execution.processes" n fs = .ok () := by
  unfold checkProcesses
  rw [section?_obj]
  cases level with
  | raw =>
    have hnothing : (fun entries : List (String × Fields) => entries.forM fun _ => (.ok () : Attempt Unit)) =
        fun _ => .ok () := funext fun entries => Attempt.forM_eq_ok.2 fun _ _ => rfl
    have h : (checkMapping ((part? document "execution" "processes").getD .null)
        "execution.processes" false >>= fun entries => entries.forM fun _ => .ok ()) = .ok () ↔
        Lists document "execution" "processes" false fun _ _ => (.ok () : Attempt Unit) = .ok () :=
      checkMapping_iff
    rw [hnothing] at h
    refine h.trans ?_
    simp
  | qualified =>
    refine (checkMapping_iff (f := fun e => checkProcess "execution.processes" e.1 e.2)).trans ?_
    simp

/-- Only a mapping has the shape of a level. -/
theorem obj_of_check {v : Json} {level : Level} (h : check v level = .ok ()) : ∃ fs, v = .obj fs := by
  cases v with
  | obj fs => exact ⟨fs, rfl⟩
  | _ => cases h

/-- A document has the shape of a level if its three sections have. -/
theorem check_iff {level : Level} : check (.obj document) level = .ok () ↔
    (∀ x ∈ definitionSections, Lists document x.1 x.2.1 (level = .qualified) fun n fs =>
      checkDefinition level x.2.2 s!"{x.1}.{x.2.1}" n fs = .ok ()) ∧
    Lists document "execution" "processes" (level = .qualified) fun n fs =>
      level = .qualified → checkProcess "execution.processes" n fs = .ok () := by
  have hcheck : check (.obj document) level =
      (definitionSections.forM fun x => checkDefinitions (.obj document) level x.1 x.2.1 x.2.2) >>= fun _ =>
        checkProcesses (.obj document) level := rfl
  rw [hcheck, Attempt.check_bind_eq_ok, Attempt.forM_eq_ok, checkProcesses_iff]
  simp only [checkDefinitions_iff]

end FlowPlan.Document

import FlowPlan.Proofs.Contract
import FlowPlan.Proofs.Reordering
import FlowPlan.Proofs.Threading

/-!
# The qualifier and the pipeline

A document can be qualified by itself, without the pipeline, which creates the missing sections first. What
the two make is the same up to the order of keys. They part where a section is given as null: the pipeline
creates it, but there is nothing in it that the qualifier could look up.

## Main definitions

* `Document.Counterparts` — two documents differ only in how they leave out what is still to be qualified.

## Main statements

* `Document.Counterparts.qualify` — such documents are qualified alike.
* `Document.mayOpen_of_qualify` — what is qualified has no section that is null.
* `Document.qualify_initObjects` — with and without missing sections.
* `Pipeline.qualified_iff` — what the pipeline keeps, and what the qualifier makes.
-/

namespace FlowPlan

namespace Document

/-- The documents are the same, up to the order of keys and but for the parts that are still to be
qualified. These have the same entries in both, and may be missing in one of them. -/
structure Counterparts (pending : List (String × String)) (document document' : Fields) : Prop where
  sections : ∀ x ∈ pending, x ∈ Stage.sections
  mayOpen : ∀ x ∈ pending, MayOpen document x.1 ∧ MayOpen document' x.1
  given : ∀ x ∈ pending, Given document x.1 x.2 ∧ Given document' x.1 x.2
  entries : ∀ x ∈ pending, entriesIn document x.1 x.2 = entriesIn document' x.1 x.2
  opened : ∀ x ∈ Stage.sections, x ∉ pending → IsOpen document x.1 ∧ IsOpen document' x.1
  part : ∀ o i, (o, i) ∉ pending → part? document o i = part? document' o i
  outside : ∀ o, o ∉ Stage.sections.map (·.1) → Assoc.find? document o = Assoc.find? document' o
  once : Once document ∧ Once document'

/-- The two values are documents of that kind. -/
def Matched (pending : List (String × String)) (v w : Json) : Prop :=
  ∃ document document', v = .obj document ∧ w = .obj document' ∧ Counterparts pending document document'

namespace Counterparts

variable {D D' d d' : Fields} {pending rest : List (String × String)} {x : String × String} {o i : String}

theorem section_mayOpen (h : Counterparts pending D d) (hx : x ∈ Stage.sections) :
    MayOpen D x.1 ∧ MayOpen d x.1 := by
  by_cases hpending : x ∈ pending
  · exact h.mayOpen x hpending
  · exact (h.opened x hx hpending).imp IsOpen.mayOpen IsOpen.mayOpen

/-- Where both come to have the same part, it is no longer to be qualified. -/
theorem change (h : Counterparts pending D d) (hD : Changes [x] D D') (hd : Changes [x] d d')
    (hmay : ∀ o, MayOpen D o → MayOpen D' o) (hmay' : ∀ o, MayOpen d o → MayOpen d' o)
    (hsame : part? D' x.1 x.2 = part? d' x.1 x.2) (hx : x.1 ∈ Stage.sections.map (·.1))
    (hopen : x ∈ Stage.sections → IsOpen D' x.1 ∧ IsOpen d' x.1)
    (hrest : ∀ y, y ∈ rest ↔ y ∈ pending ∧ y ≠ x) : Counterparts rest D' d' := by
  have hkept : ∀ y, y ≠ x → part? D' y.1 y.2 = part? D y.1 y.2 ∧ part? d' y.1 y.2 = part? d y.1 y.2 :=
    fun y hy => ⟨hD.part _ _ (by simpa using hy), hd.part _ _ (by simpa using hy)⟩
  refine ⟨fun y hy => h.sections y ((hrest y).1 hy).1, fun y hy => ?_, fun y hy => ?_, fun y hy => ?_,
    fun y hy hnot => ?_, fun o i hnot => ?_, fun o ho => ?_, hD.once h.once.1, hd.once h.once.2⟩
  · exact (h.mayOpen y ((hrest y).1 hy).1).imp (hmay _) (hmay' _)
  · obtain ⟨hpending, hne⟩ := (hrest y).1 hy
    rw [Given, Given, (hkept y hne).1, (hkept y hne).2]
    exact h.given y hpending
  · obtain ⟨hpending, hne⟩ := (hrest y).1 hy
    rw [entriesIn, entriesIn, (hkept y hne).1, (hkept y hne).2]
    exact h.entries y hpending
  · by_cases hyx : y = x
    · exact hyx ▸ hopen (hyx ▸ hy)
    · have hbefore := h.opened y hy fun hpending => hnot ((hrest y).2 ⟨hpending, hyx⟩)
      exact hbefore.imp (hD.opened _) (hd.opened _)
  · by_cases hyx : (o, i) = x
    · subst hyx
      exact hsame
    · rw [(hkept (o, i) hyx).1, (hkept (o, i) hyx).2]
      exact h.part o i fun hpending => hnot ((hrest _).2 ⟨hpending, hyx⟩)
  · have hne : o ∉ [x].map (·.1) := fun hmem => ho (by simpa [List.mem_singleton.1 hmem] using hx)
    rw [hD.outside o hne, hd.outside o hne]
    exact h.outside o ho

/-- The same names are recorded in both. -/
theorem record (h : Counterparts pending D d) (names : List String) :
    Attempt.Both (Matched pending) (recordCollisions (.obj D) names) (recordCollisions (.obj d) names) := by
  have hnot : ("execution", collisionsField) ∉ pending := fun hmem =>
    absurd (h.sections _ hmem) (by decide)
  obtain ⟨hopen, hopen'⟩ := h.section_mayOpen (x := ("execution", "processes")) (by decide)
  have hD := recordCollisions_both hopen names
  have hd := recordCollisions_both hopen' names
  rw [collisionsOf, h.part _ _ hnot, ← collisionsOf] at hD
  refine (hD.join hd).mono ?_
  rintro - - ⟨c, ⟨D', rfl, hc, hchanges, hmay⟩, d', rfl, hc', hchanges', hmay'⟩
  refine ⟨D', d', rfl, rfl, h.change hchanges hchanges' hmay hmay' (hc.trans hc'.symm) (by decide)
    (fun hmem => absurd hmem (by decide)) fun y => ?_⟩
  exact ⟨fun hy => ⟨hy, fun heq => hnot (heq ▸ hy)⟩, And.left⟩

/-- The same definitions are put into both, and the same names are recorded. -/
theorem put (h : Counterparts ((o, i) :: rest) D d) (hnew : (o, i) ∉ rest) (v : Json) (names : List String) :
    Attempt.Both (Matched rest) (recordCollisions (.obj (setInSection (ensureSection D o) o i v)) names)
      (recordCollisions (.obj (setInSection (ensureSection d o) o i v)) names) := by
  have hsection : (o, i) ∈ Stage.sections := h.sections _ List.mem_cons_self
  obtain ⟨hopen, hopen'⟩ := h.mayOpen _ List.mem_cons_self
  have hD := setInSection_puts hopen i v
  have hd := setInSection_puts hopen' i v
  refine (h.change hD.changes hd.changes (fun _ => hD.mayOpen) (fun _ => hd.mayOpen)
    (hD.own_part.trans hd.own_part.symm) (List.mem_map_of_mem hsection) (fun _ => ⟨hD.own, hd.own⟩)
    fun y => ?_).record names
  rw [List.mem_cons]
  exact ⟨fun hy => ⟨.inr hy, fun heq => hnew (heq ▸ hy)⟩, fun ⟨hy, hne⟩ => hy.resolve_left hne⟩

theorem givenIn_eq (h : Counterparts ((o, i) :: rest) D d) :
    ∃ es, givenIn (ensureSection D o) o i = .ok (.obj es) ∧ givenIn (ensureSection d o) o i = .ok (.obj es) := by
  obtain ⟨hopen, hopen'⟩ := h.mayOpen _ List.mem_cons_self
  obtain ⟨hgiven, hgiven'⟩ := h.given _ List.mem_cons_self
  refine ⟨_, givenIn_ensured hopen hgiven, ?_⟩
  rw [givenIn_ensured hopen' hgiven', h.entries _ List.mem_cons_self]

theorem qualifySection (h : Counterparts ((o, i) :: rest) D d) (hnew : (o, i) ∉ rest) (kind : Kind) :
    Attempt.Both (Matched rest) (qualifySection (.obj D) o i kind) (qualifySection (.obj d) o i kind) := by
  obtain ⟨es, hD, hd⟩ := h.givenIn_eq
  unfold Document.qualifySection
  rw [Json.fieldsFor_obj, Json.fieldsFor_obj, Attempt.ok_bind, Attempt.ok_bind]
  dsimp only
  rw [hD, hd, Attempt.ok_bind, Attempt.ok_bind]
  refine Attempt.Both.bind (.same _) ?_
  rintro ⟨qualified, names⟩ _ rfl
  exact h.put hnew (.obj qualified) names

theorem mergeSection (h : Counterparts [("execution", "processes")] D d) (entries : Json) :
    Attempt.Both (Matched []) (mergeSection (.obj D) entries) (mergeSection (.obj d) entries) := by
  obtain ⟨es, hD, hd⟩ := h.givenIn_eq
  unfold Document.mergeSection
  rw [Json.fieldsFor_obj, Json.fieldsFor_obj, Attempt.ok_bind, Attempt.ok_bind]
  dsimp only
  rw [hD, hd, Attempt.ok_bind, Attempt.ok_bind]
  refine Attempt.Both.bind (.same _) ?_
  rintro ⟨merged, names⟩ _ rfl
  exact h.put List.not_mem_nil (.obj merged) names

/-- Where nothing is left to be qualified the documents are alike. -/
theorem alike (h : Counterparts [] D d) : (Json.obj D).Alike (.obj d) := by
  have hopened : ∀ o ∈ Stage.sections.map (·.1), IsOpen D o ∧ IsOpen d o := by
    intro o ho
    obtain ⟨x, hx, rfl⟩ := List.mem_map.1 ho
    exact h.opened x hx List.not_mem_nil
  refine alike_of_parts h.once.1 h.once.2 (fun o ho => (hopened o ho).1) (fun o ho => (hopened o ho).2)
    (fun o _ i => ?_) fun o ho => ?_
  · rw [h.part o i List.not_mem_nil]
  · rw [h.outside o ho]

/-- Documents that differ only in how they leave out sections are qualified alike. -/
theorem qualify (h : Counterparts Stage.sections D d) :
    Attempt.Both Json.Alike (qualify (.obj D)) (qualify (.obj d)) := by
  unfold Document.qualify
  refine (h.qualifySection (by decide) .process).bind ?_
  rintro - - ⟨D₁, d₁, rfl, rfl, h₁⟩
  refine (h₁.qualifySection (by decide) .factor).bind ?_
  rintro - - ⟨D₂, d₂, rfl, rfl, h₂⟩
  rw [section?_obj, section?_obj, h₂.part _ _ (by decide), Attempt.ok_bind, Attempt.ok_bind]
  refine (h₂.mergeSection _).mono ?_
  rintro - - ⟨D₃, d₃, rfl, rfl, h₃⟩
  exact h₃.alike

end Counterparts

variable {document : Fields} {outer inner : String} {names : List String} {kind : Kind} {v w : Json}

/-! ## With and without missing sections -/

/-- Sections that are created where they are missing make no difference. -/
theorem counterparts_initObjects (honce : Once document)
    (hsections : ∀ x ∈ Stage.sections, MayOpen document x.1)
    (hshape : ∀ x ∈ Stage.sections, Given document x.1 x.2)
    (hinit : Stage.initObjects.transform (.obj document) = .ok v) :
    ∃ document', v = .obj document' ∧ Counterparts Stage.sections document document' := by
  obtain ⟨document', hrun, hholds, hchanges⟩ := initObjects_run
    (by simpa [Stage.sections] using fun x hx => (hsections x hx).isSection) hshape
  obtain ⟨hextractors, hfactors, hprocesses⟩ := hholds.entries
  have hopen : ∀ x ∈ Stage.sections, IsOpen document' x.1 := by
    simpa [Stage.sections] using ⟨hholds.extraction, hholds.inference, hholds.execution⟩
  have hgiven : ∀ x ∈ Stage.sections, Given document' x.1 x.2 := by
    simpa [Stage.sections] using
      ⟨.inr ⟨_, hholds.extractors⟩, .inr ⟨_, hholds.factors⟩, .inr ⟨_, hholds.processes⟩⟩
  have hentries : ∀ x ∈ Stage.sections, entriesIn document x.1 x.2 = entriesIn document' x.1 x.2 := by
    simp [Stage.sections, hextractors, hfactors, hprocesses]
  exact ⟨document', Except.ok.inj (hinit.symm.trans hrun),
    { sections := fun _ => id
      mayOpen := fun x hx => ⟨hsections x hx, (hopen x hx).mayOpen⟩
      given := fun x hx => ⟨hshape x hx, hgiven x hx⟩
      entries := hentries
      opened := fun x hx hnot => absurd hx hnot
      part := fun o i hnot => (hchanges.part o i hnot).symm
      outside := fun o ho => (hchanges.outside o ho).symm
      once := ⟨honce, hchanges.once honce⟩ }⟩

/-! ## Sections that are null -/

/-- Recording names opens no section. -/
theorem mayOpen_before_record (h : recordCollisions (.obj document) names = .ok w) :
    ∃ document', w = .obj document' ∧ ∀ o, MayOpen document' o → MayOpen document o := by
  by_cases hempty : names.isEmpty = true
  · rw [recordCollisions, if_pos hempty] at h
    exact ⟨document, (Except.ok.inj h).symm, fun _ => id⟩
  · have hopen := mayOpen_of_recordCollisions hempty h
    obtain ⟨c, -, document', rfl, -, hchanges, -⟩ := (recordCollisions_both hopen names).left h
    refine ⟨document', rfl, fun o ho => ?_⟩
    by_cases heq : o = "execution"
    · exact heq ▸ hopen
    · exact (mayOpen_congr (hchanges.outside o (by simpa using heq))).1 ho

/-- Qualifying one section opens no other one. -/
theorem mayOpen_before_qualify (h : qualifySection (.obj document) outer inner kind = .ok w) :
    ∃ document', w = .obj document' ∧ MayOpen document outer ∧
      ∀ o, MayOpen document' o → MayOpen document o := by
  unfold qualifySection at h
  rw [Json.fieldsFor_obj, Attempt.ok_bind] at h
  obtain ⟨given, hgiven, h⟩ := Attempt.bind_eq_ok.1 h
  obtain ⟨⟨qualified, names⟩, -, h⟩ := Attempt.bind_eq_ok.1 h
  have hopen := mayOpen_of_givenIn hgiven
  obtain ⟨document', rfl, hbefore⟩ := mayOpen_before_record h
  refine ⟨document', rfl, hopen, fun o ho => ?_⟩
  by_cases heq : o = outer
  · exact heq ▸ hopen
  · exact (mayOpen_congr ((setInSection_puts hopen inner (.obj qualified)).outside o heq)).1 (hbefore o ho)

/-- What can be qualified has no section that is null. -/
theorem mayOpen_of_qualify (h : qualify (.obj document) = .ok w) :
    ∀ x ∈ Stage.sections, MayOpen document x.1 := by
  unfold qualify at h
  obtain ⟨w₁, h₁, h⟩ := Attempt.bind_eq_ok.1 h
  obtain ⟨d₁, rfl, hextraction, hbefore₁⟩ := mayOpen_before_qualify h₁
  obtain ⟨w₂, h₂, h⟩ := Attempt.bind_eq_ok.1 h
  obtain ⟨d₂, rfl, hinference, hbefore₂⟩ := mayOpen_before_qualify h₂
  obtain ⟨extractors, -, h⟩ := Attempt.bind_eq_ok.1 h
  unfold mergeSection at h
  rw [Json.fieldsFor_obj, Attempt.ok_bind] at h
  obtain ⟨given, hgiven, -⟩ := Attempt.bind_eq_ok.1 h
  have hexecution := mayOpen_of_givenIn hgiven
  simp only [Stage.sections, List.forall_mem_cons, List.not_mem_nil, false_implies, implies_true, and_true]
  exact ⟨hextraction, hbefore₁ _ hinference, hbefore₁ _ (hbefore₂ _ hexecution)⟩

/-- A document that can be qualified once its missing sections have been created can be qualified as it is
exactly if none of its sections is null, and then the results are alike. -/
theorem qualify_initObjects {v₀ : Json} (hdistinct : (Json.obj document).Distinct)
    (hraw : check (.obj document) .raw = .ok ())
    (hinit : Stage.initObjects.transform (.obj document) = .ok v₀) (hqualify : qualify v₀ = .ok v) :
    ((∃ q, qualify (.obj document) = .ok q) ↔
        ∀ x ∈ Stage.sections, Assoc.find? document x.1 ≠ some .null) ∧
      ∀ q, qualify (.obj document) = .ok q → q.Alike v := by
  have hboth : (∀ x ∈ Stage.sections, MayOpen document x.1) →
      ∃ q, qualify (.obj document) = .ok q ∧ q.Alike v := by
    intro hsections
    obtain ⟨d, rfl, hcounterparts⟩ :=
      counterparts_initObjects (once_of_distinct hdistinct) hsections (entries_of_raw hraw).1 hinit
    exact hcounterparts.qualify.right hqualify
  refine ⟨⟨fun ⟨q, hq⟩ x hx hnull => ?_, fun hnotnull => ?_⟩, fun q hq => ?_⟩
  · rcases mayOpen_of_qualify hq x hx with hnone | ⟨fs, hfs⟩
    · cases hnone.symm.trans hnull
    · cases hfs.symm.trans hnull
  · have hsections : ∀ x ∈ Stage.sections, IsSection document x.1 := by
      simpa [Stage.sections] using sections_of_initObjects hinit
    obtain ⟨q, hq, -⟩ := hboth fun x hx =>
      (hsections x hx).imp_right fun h => h.resolve_left (hnotnull x hx)
    exact ⟨q, hq⟩
  · obtain ⟨q', hq', halike⟩ := hboth (mayOpen_of_qualify hq)
    obtain rfl : q' = q := Except.ok.inj (hq'.symm.trans hq)
    exact halike

end Document

namespace Pipeline

open Workspace

variable {w : Workspace} {A : Address} {σ σ' : Site} {document c : Json}
  {r : Except Fault (List Finished)}

/-- What is kept under the name of the second standard stage is what the first two stages make. -/
theorem kept_iff_made :
    Assoc.find? (holdings (Stage.standard.map (·.1)) document) Stage.qualifyNames.artifact =
        some (.file (.json c)) ↔
      ∃ v₀ v, Stage.initObjects.apply document = .ok v₀ ∧ Stage.qualifyNames.apply v₀ = .ok v ∧
        c = v.sortKeys := by
  have hinput : inputArtifact ≠ Stage.qualifyNames.artifact := by decide
  have hfirst : Stage.initObjects.artifact ≠ Stage.qualifyNames.artifact := by decide
  have hstages : Stage.standard.map (·.1) =
      [Stage.initObjects, Stage.qualifyNames, Stage.factorProcesses, Stage.dependencies] := rfl
  rw [holdings, hstages]
  constructor
  · intro h
    cases hinit : Stage.initObjects.output? document with
    | none => simp [Stage.outputs_of_none hinit, kept, Assoc.find?_cons, hinput] at h
    | some v₀ =>
      rw [Stage.outputs_cons hinit] at h
      cases hqualify : Stage.qualifyNames.output? v₀ with
      | none => simp [Stage.outputs_of_none hqualify, kept, Assoc.find?_cons, hinput, hfirst] at h
      | some v =>
        rw [Stage.outputs_cons hqualify] at h
        simp only [kept_cons, List.cons_append, Assoc.find?_cons, if_neg hinput, if_neg hfirst] at h
        refine ⟨v₀, v, (Stage.output?_eq_some.1 hinit).2, (Stage.output?_eq_some.1 hqualify).2, ?_⟩
        cases h
        rfl
  · rintro ⟨v₀, v, hinit, hqualify, rfl⟩
    rw [Stage.outputs_cons (Stage.output?_eq_some.2 ⟨by decide, hinit⟩),
      Stage.outputs_cons (Stage.output?_eq_some.2 ⟨by decide, hqualify⟩)]
    simp only [kept_cons, List.cons_append, Assoc.find?_cons, if_neg hinput, if_neg hfirst]
    rfl

/-- In a new workspace the standard stages keep what they make, if the document has the raw shape. -/
theorem run_standard_gains (h : New w A σ) (hraw : Document.check document .raw = .ok ()) :
    ∃ r σ', (run w (Stage.standard.map (·.1)) document).run σ = (r, σ') ∧
      Gains w A (holdings (Stage.standard.map (·.1)) document) σ σ' := by
  obtain ⟨r, σ', hrun, hgains, -⟩ := run_gains h (by simp [Stage.standard])
    (fun s hs => (plain_standard s hs).1) (by decide) (by decide) hraw
  exact ⟨r, σ', hrun, hgains⟩

/-- Once the standard stages have kept a document with qualified names, the document that they were given
can be qualified by itself exactly if none of its sections is null. What results is the document that they
have kept, up to the order of keys. -/
theorem qualified_iff (h : New w A σ) (hdistinct : document.Distinct)
    (hrun : (run w (Stage.standard.map (·.1)) document).run σ = (r, σ'))
    (hkept : σ'.disk.find? (A ++ [w.key] ++ [Stage.qualifyNames.artifact]) = some (.file (.json c))) :
    ∃ fields, document = .obj fields ∧
      ((∃ q, Document.qualify document = .ok q) ↔
        ∀ x ∈ Stage.sections, Assoc.find? fields x.1 ≠ some .null) ∧
      ∀ q, Document.qualify document = .ok q → q.Alike c := by
  have hraw : Document.check document .raw = .ok () := by
    cases hcheck : Document.check document .raw with
    | ok => rfl
    | error f =>
      -- Nothing is kept of a document that has not the raw shape.
      have hsame : σ' = σ := by
        unfold run at hrun
        rw [if_neg (by simp [Stage.standard]), hcheck] at hrun
        exact (congrArg Prod.snd hrun).symm
      rw [hsame, h.empty _ (by decide) (by decide)] at hkept
      cases hkept
  obtain ⟨fields, rfl⟩ := Document.obj_of_check hraw
  obtain ⟨r', σ'', hrun', hgains⟩ := run_standard_gains h hraw
  obtain ⟨rfl, rfl⟩ := Prod.mk.inj (hrun'.symm.trans hrun)
  rw [h.find?_gains hgains (by decide) (by decide), kept_iff_made] at hkept
  obtain ⟨v₀, v, hinit, hqualify, rfl⟩ := hkept
  obtain ⟨hiff, halike⟩ := Document.qualify_initObjects hdistinct hraw
    (Stage.apply_eq_ok.1 hinit).2.1 (Stage.apply_eq_ok.1 hqualify).2.1
  exact ⟨fields, rfl, hiff, fun q hq => (halike q hq).trans (Json.alike_sortKeys v).symm⟩

/-- A document with one extractor and what is given as the section of the factors. -/
def draft (inference : Json) : Json :=
  .obj [("extraction", .obj [("extractors", .obj [("a", .obj [])])]), ("inference", inference)]

/-- The draft with its missing sections. -/
def draftStarted : Json :=
  .obj [("extraction", .obj [("extractors", .obj [("a", .obj [])])]),
    ("inference", .obj [("factors", .obj [])]), ("execution", .obj [("processes", .obj [])])]

/-- The draft with its names qualified. -/
def draftQualified : Json :=
  let entry := Json.obj [("process/a", .obj [("dependencies_", .arr []), ("input_", .arr [])])]
  .obj [("extraction", .obj [("extractors", entry)]), ("inference", .obj [("factors", .obj [])]),
    ("execution", .obj [("processes", entry)])]

theorem qualified_iff_draft :
    New specimen ["/"] specimenSite ∧
      (∃ r σ' c, (run specimen (Stage.standard.map (·.1)) (draft .null)).run specimenSite = (r, σ') ∧
        σ'.disk.find? (["/"] ++ [specimen.key] ++ [Stage.qualifyNames.artifact]) = some (.file (.json c)) ∧
        ¬ ∃ q, Document.qualify (draft .null) = .ok q) ∧
      ∃ r σ' c q, (run specimen (Stage.standard.map (·.1)) (draft (.obj []))).run specimenSite = (r, σ') ∧
        σ'.disk.find? (["/"] ++ [specimen.key] ++ [Stage.qualifyNames.artifact]) = some (.file (.json c)) ∧
        Document.qualify (draft (.obj [])) = .ok q ∧ q.Alike c := by
  have hkeeps : ∀ inference, Document.check (draft inference) .raw = .ok () →
      Stage.initObjects.apply (draft inference) = .ok draftStarted →
      ∃ r σ', (run specimen (Stage.standard.map (·.1)) (draft inference)).run specimenSite = (r, σ') ∧
        σ'.disk.find? (["/"] ++ [specimen.key] ++ [Stage.qualifyNames.artifact]) =
          some (.file (.json draftQualified.sortKeys)) := by
    intro inference hraw hinit
    have hqualify : Stage.qualifyNames.apply draftStarted = .ok draftQualified := by decide +kernel
    obtain ⟨r, σ', hrun, hgains⟩ := run_standard_gains new_specimen hraw
    refine ⟨r, σ', hrun, ?_⟩
    rw [new_specimen.find?_gains hgains (by decide) (by decide), kept_iff_made]
    exact ⟨draftStarted, draftQualified, hinit, hqualify, rfl⟩
  obtain ⟨r, σ', hrun, hkept⟩ := hkeeps .null rfl rfl
  obtain ⟨r', σ'', hrun', hkept'⟩ := hkeeps (.obj []) rfl rfl
  obtain ⟨fields, hfields, hiff, -⟩ := qualified_iff new_specimen
    (by simp [draft, Json.Distinct, Json.DistinctFields, Assoc.keys]) hrun hkept
  obtain ⟨fields', hfields', hiff', halike⟩ := qualified_iff new_specimen
    (by simp [draft, Json.Distinct, Json.DistinctFields, Assoc.keys]) hrun' hkept'
  cases hfields
  cases hfields'
  obtain ⟨q, hq⟩ := hiff'.2 (by decide)
  exact ⟨new_specimen, ⟨r, σ', _, hrun, hkept, fun hq => absurd (hiff.1 hq) (by decide)⟩, r', σ'', _, q, hrun',
    hkept', hq, halike q hq⟩

end Pipeline

end FlowPlan

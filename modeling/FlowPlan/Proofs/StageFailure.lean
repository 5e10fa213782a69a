import FlowPlan.Proofs.Document.Refusal
import FlowPlan.Proofs.Pipeline

/-!
# Which stage has failed

A pipeline that fails blames the first stage that cannot take its input, raises, or breaks its promise.
A document whose only output of a definition is no text is not refused in the stage's name, though: the
misuse of that value gets through. Besides, an artifact may be refused by the file system.

## Main definitions

* `Stage.Fails` — the stage fails on a document.
* `Pipeline.Blamed` — a fault that tells of the first stage that fails.

## Main statements

* `Stage.attempt_blames` — an ordinary stage that fails is blamed.
* `Pipeline.run_fails` — what a pipeline fails with.
-/

namespace FlowPlan

open FlowPlan.Action Site Session Workspace

namespace Stage

/-- The document is not of the level that the stage requires, the stage raises, or what it makes is not of
the level that it promises. -/
def Fails (s : Stage) (document : Json) : Prop :=
  Document.check document s.requires ≠ .ok () ∨ (∃ f, s.transform document = .error f) ∨
    ∃ output, s.transform document = .ok output ∧ Document.check output s.produces ≠ .ok ()

/-- All that the stage raises is of its own: no failure of the build, and nothing that ends the program. -/
def Ordinary (s : Stage) : Prop :=
  ∀ document f, s.transform document = .error f → f.isBuildFailure = false ∧ f.isOrdinary = true

/-- The fault tells of the stage, or it is the misuse of an output in what the stage takes or makes. -/
def Blame (s : Stage) (document : Json) (f : Fault) : Prop :=
  (∃ text, f = .stageFailed s.name text) ∨
    ∃ checked v, (checked = document ∨ s.transform document = .ok checked) ∧
      Document.OddOutput checked v ∧ f = .misuse (.noMember v.kindName "partition")

variable {s : Stage} {document : Json} {f : Fault}

/-- A stage fails where the pipeline sees it fail. -/
theorem fails_of_attempt (h : s.attempt document = .error f) : s.Fails document := by
  by_contra hnot
  simp only [Fails, not_or, not_not] at hnot
  obtain ⟨hrequires, hraises, hproduces⟩ := hnot
  cases htransform : s.transform document with
  | error g => exact hraises ⟨g, htransform⟩
  | ok output =>
    have hcheck : Document.check output s.produces = .ok () := by
      by_contra hcheck
      exact hproduces ⟨output, htransform, hcheck⟩
    rw [attempt_eq_ok.2 (apply_eq_ok.2 ⟨hrequires, htransform, hcheck⟩)] at h
    cases h

theorem expect_blames {role : String} {level : Level} {checked : Json}
    (h : checked = document ∨ s.transform document = .ok checked) :
    Attempt.Blames (s.Blame document) (Pipeline.expect s role level checked) := by
  intro f hf
  unfold Pipeline.expect at hf
  split at hf
  · cases hf
    exact .inl ⟨_, rfl⟩
  · rename_i hschema
    obtain ⟨text, path, rfl⟩ | ⟨-, v, hodd, rfl⟩ := Document.check_blames checked level f hf
    · exact absurd hf (hschema text path)
    · exact .inr ⟨checked, v, h, hodd, rfl⟩

/-- An ordinary stage that fails is blamed. -/
theorem attempt_blames (hs : s.Ordinary) (document : Json) :
    Attempt.Blames (s.Blame document) (s.attempt document) := by
  refine (expect_blames (.inl rfl)).bind fun _ _ => Attempt.Blames.bind ?_ fun output houtput => ?_
  · cases htransform : s.transform document with
    | ok output => exact Attempt.blames_ok _
    | error f =>
      obtain ⟨hfailure, hordinary⟩ := hs document f htransform
      refine Attempt.blames_error ?_
      rw [hfailure, hordinary]
      exact .inl ⟨f.message, rfl⟩
  · obtain ⟨_, htransform, rfl⟩ := (reported_both s _).left houtput
    exact (expect_blames (.inr htransform)).bind fun _ _ => Attempt.blames_ok _

end Stage

namespace Pipeline

/-! ## One stage -/

variable {w : Workspace} {s : Stage} {stages ordered : List Stage} {document output : Json}
  {f : Fault} {σ σ' : Site}

/-- The output is handed on as it is, unless writing it fails. -/
theorem of_keep {start : Instant} {r : Except Fault (Json × Finished)}
    (h : (keep w s output start).run σ = (r, σ')) :
    (∃ finished, r = .ok (output, finished)) ∨
      ∃ f, r = .error f ∧ ((w.writeArtifact s.artifact output).run σ).1 = .error f := by
  unfold keep at h
  cases r with
  | ok r =>
    obtain ⟨_, _, -, h⟩ := of_run_bind_ok h
    obtain ⟨_, _, -, h⟩ := of_run_bind_ok h
    obtain ⟨_, _, -, h⟩ := of_run_bind_ok h
    cases h
    exact .inl ⟨_, rfl⟩
  | error f =>
    rcases of_run_bind_error h with h | ⟨_, _, -, h⟩
    · exact .inr ⟨f, rfl, by rw [of_run_discard_error h]⟩
    · cases h

/-! ## All stages -/

/-- The first of the stages that fails, given what the ones before it have made, is blamed for the
fault. -/
def Blamed (stages : List Stage) (document : Json) (f : Fault) : Prop :=
  ∃ done s rest given, stages = done ++ s :: rest ∧ Stage.applyAll done document = .ok given ∧
    s.Fails given ∧ s.Blame given f

/-- The file system refuses to keep something in the workspace. -/
def Refused (w : Workspace) (f : Fault) : Prop :=
  ∃ σ n, (∃ v, ((w.writeArtifact n v).run σ).1 = .error f) ∨
    ((w.link compiledArtifact n).run σ).1 = .error f

/-- Nothing is in the way of the artifacts of the stages. -/
def Unhindered (w : Workspace) (stages : List Stage) (σ : Site) : Prop :=
  (∃ A, Workable w A σ) ∧ ∀ s ∈ stages, PlainName s.name ∧ Path.NulFree s.name

theorem Blamed.cons (h : s.apply document = .ok output) (hblamed : Blamed stages output f) :
    Blamed (s :: stages) document f := by
  obtain ⟨done, t, rest, given, rfl, happly, hfails, hblame⟩ := hblamed
  refine ⟨s :: done, t, rest, given, rfl, ?_, hfails, hblame⟩
  rw [Stage.applyAll, List.foldlM_cons, h]
  exact happly

/-- Where nothing is in the way, what a stage makes can be kept. -/
theorem Unhindered.runStage (h : Unhindered w (s :: stages) σ) (happly : s.apply document = .ok output) :
    ∃ r σ', (runStage w document s).run σ = (.ok r, σ') ∧ Unhindered w stages σ' := by
  obtain ⟨⟨A, hworkable⟩, hplain⟩ := h
  obtain ⟨hs, hstages⟩ := List.forall_mem_cons.1 hplain
  obtain ⟨r, σ', hrun, -, -, hedits, -⟩ :=
    (runStage_mirrors hworkable (isArtifactName_artifact hs.1 hs.2).1 document).right happly
  exact ⟨r, σ', hrun, ⟨A, hedits.workable hworkable⟩, hstages⟩

/-- A stage that is run hands on what it makes of the document, or it fails on it, or what it makes cannot
be kept. -/
theorem of_runStage {r : Except Fault (Json × Finished)} (hrun : (runStage w document s).run σ = (r, σ')) :
    (∃ f, r = .error f ∧ s.attempt document = .error f) ∨
      ∃ output, s.apply document = .ok output ∧
        ((∃ finished, r = .ok (output, finished)) ∨ ∃ f, r = .error f ∧ Refused w f) := by
  obtain ⟨σ₁, -, hstage⟩ := runStage_run w document s σ
  rw [hrun] at hstage
  cases hattempt : s.attempt document with
  | error f =>
    simp only [hattempt] at hstage
    exact .inl ⟨f, congrArg Prod.fst hstage, rfl⟩
  | ok output =>
    simp only [hattempt] at hstage
    refine .inr ⟨output, Stage.attempt_eq_ok.1 hattempt, ?_⟩
    rcases of_keep hstage.symm with hok | ⟨f, hr, hwrite⟩
    · exact .inl hok
    · exact .inr ⟨f, hr, σ₁, s.artifact, .inl ⟨output, hwrite⟩⟩

theorem runStages_fails (hs : ∀ s ∈ stages, s.Ordinary)
    (hrun : (runStages w document stages).run σ = (.error f, σ')) :
    Blamed stages document f ∨ Refused w f ∧ ¬ Unhindered w stages σ := by
  induction stages generalizing σ document with
  | nil => cases hrun
  | cons s stages ih =>
    obtain ⟨hs, hstages⟩ := List.forall_mem_cons.1 hs
    unfold runStages at hrun
    rcases of_run_bind_error hrun with hstage | ⟨⟨output, finished⟩, σ₁, hstage, hrest⟩
    · obtain ⟨g, ⟨⟩, hattempt⟩ | ⟨output, happly, ⟨_, ⟨⟩⟩ | ⟨g, ⟨⟩, hrefused⟩⟩ := of_runStage hstage
      · exact .inl ⟨[], s, stages, document, rfl, rfl, Stage.fails_of_attempt hattempt,
          Stage.attempt_blames hs document f hattempt⟩
      · refine .inr ⟨hrefused, fun hunhindered => ?_⟩
        obtain ⟨r, σ'', hok, -⟩ := hunhindered.runStage happly
        rw [hok] at hstage
        cases hstage
    · obtain ⟨g, ⟨⟩, -⟩ | ⟨output, happly, ⟨finished, ⟨⟩⟩ | ⟨g, ⟨⟩, -⟩⟩ := of_runStage hstage
      have hrest : (runStages w output stages).run σ₁ = (.error f, σ') := by
        rcases of_run_bind_error hrest with hrest | ⟨_, _, -, hdone⟩
        · exact hrest
        · cases hdone
      rcases ih hstages hrest with hblamed | ⟨hrefused, hnot⟩
      · exact .inl (hblamed.cons happly)
      · refine .inr ⟨hrefused, fun hunhindered => hnot ?_⟩
        obtain ⟨r, σ'', hok, hafter⟩ := hunhindered.runStage happly
        rw [hok] at hstage
        cases hstage
        exact hafter

/-- Where the stages end well, they do so on the documents alone. -/
theorem applyAll_of_runStages {finished : List Finished}
    (hrun : (runStages w document stages).run σ = (.ok finished, σ')) :
    ∃ v, Stage.applyAll stages document = .ok v := by
  induction stages generalizing σ σ' document finished with
  | nil => exact ⟨document, rfl⟩
  | cons s stages ih =>
    unfold runStages at hrun
    obtain ⟨⟨output, _⟩, σ₁, hstage, hrun⟩ := of_run_bind_ok hrun
    obtain ⟨_, _, hrest, -⟩ := of_run_bind_ok hrun
    obtain ⟨g, ⟨⟩, -⟩ | ⟨output, happly, ⟨_, ⟨⟩⟩ | ⟨g, ⟨⟩, -⟩⟩ := of_runStage hstage
    rw [Stage.applyAll, List.foldlM_cons, happly]
    exact ih hrest

/-! ## The pipeline -/

theorem order_eq_ok (h : order stages = .ok ordered) : ordered = Text.sortOn Stage.name stages := by
  unfold order at h
  dsimp only at h
  split at h
  · cases h
  · cases h
    rfl

/-- Where nothing is in the way, the input can be kept. -/
theorem Unhindered.input (h : Unhindered w stages σ) (document : Json) :
    ∃ p σ', (w.writeArtifact inputArtifact document).run σ = (.ok p, σ') ∧ Unhindered w stages σ' := by
  obtain ⟨⟨A, hworkable⟩, hplain⟩ := h
  obtain ⟨σ', hrun, hedits, -⟩ := writeArtifact_run hworkable isArtifactName_input.1 document
  exact ⟨_, σ', hrun, ⟨A, hedits.workable hworkable⟩, hplain⟩

/-- A pipeline that fails on a document of the raw level fails in the name of the first stage that fails, or
with the misuse of an output that this stage takes or makes, unless the file system is in the way. -/
theorem run_fails (horder : order stages = .ok ordered) (hne : stages ≠ [])
    (hraw : Document.check document .raw = .ok ()) (hs : ∀ s ∈ stages, s.Ordinary)
    (hrun : (run w ordered document).run σ = (.error f, σ')) :
    Blamed ordered document f ∨ Refused w f ∧ ¬ Unhindered w ordered σ := by
  have hmem : ∀ s, s ∈ ordered ↔ s ∈ stages := fun s => order_eq_ok horder ▸ Text.mem_sortOn
  obtain ⟨s, hfirst⟩ := List.exists_mem_of_ne_nil stages hne
  have hordered : ordered ≠ [] := List.ne_nil_of_mem ((hmem s).2 hfirst)
  have hrun' := hrun
  unfold run at hrun
  rw [if_neg (by simpa using hordered), hraw, Action.lift_ok_bind] at hrun
  rcases of_run_bind_error hrun with hinput | ⟨_, σ₁, hinput, hrest⟩
  · -- The input cannot be kept.
    have hwrite := of_run_discard_error hinput
    refine .inr ⟨⟨σ, inputArtifact, .inl ⟨document, by rw [hwrite]⟩⟩, fun hunhindered => ?_⟩
    obtain ⟨p, σ'', hok, -⟩ := hunhindered.input document
    rw [hwrite] at hok
    cases hok
  obtain ⟨p, hwrite⟩ := of_run_discard_ok hinput
  rcases of_run_bind_error hrest with hstages | ⟨finished, σ₂, hstages, hrest⟩
  · rcases runStages_fails (fun s hmem' => hs s ((hmem s).1 hmem')) hstages with h | ⟨hrefused, hnot⟩
    · exact .inl h
    · refine .inr ⟨hrefused, fun hunhindered => hnot ?_⟩
      obtain ⟨_, σ'', hok, hafter⟩ := hunhindered.input document
      rw [hwrite] at hok
      cases hok
      exact hafter
  · -- The stages have ended well, but there is no link to what the last one has made.
    have hlink : Refused w f := by
      rcases of_run_bind_error hrest with hlink | ⟨_, _, -, hrest⟩
      · exact ⟨σ₂, _, .inr (by rw [of_run_discard_error hlink])⟩
      · cases hrest
    refine .inr ⟨hlink, fun ⟨⟨A, hworkable⟩, hplain⟩ => ?_⟩
    obtain ⟨v, happly⟩ := applyAll_of_runStages hstages
    obtain ⟨_, σ'', hok, -⟩ := (run_mirrors hworkable hordered hplain document).right
      (Attempt.check_bind_eq_ok.2 ⟨hraw, happly⟩)
    rw [hok] at hrun'
    cases hrun'

/-- A stage that promises qualified names and makes a process whose only output is a number. -/
def odd : Stage where
  name := "5.00"
  form := "FunctionStage"
  requires := .raw
  produces := .qualified
  description := ""
  transform _ := .ok (.obj
    [("extraction", .obj [("extractors", .obj [])]), ("inference", .obj [("factors", .obj [])]),
      ("execution", .obj [("processes", .obj [("process/a", .obj [(outputField, .arr [.int 1])])])])])

theorem run_fails_odd :
    ∃ w σ σ', order [odd] = .ok [odd] ∧ Document.check (.obj []) .raw = .ok () ∧
      (run w [odd] (.obj [])).run σ = (.error (.misuse (.noMember "int" "partition")), σ') ∧
      (Blamed [odd] (.obj []) (.misuse (.noMember "int" "partition")) ∨
        Refused w (.misuse (.noMember "int" "partition")) ∧ ¬ Unhindered w [odd] σ) := by
  obtain ⟨σ, hσ⟩ : ∃ σ : Site, σ = .ofDisk ⟨[(["/"], .dir)], []⟩ ⟨2024, 3, 1, 10, 0, 0, 0, none⟩ := ⟨_, rfl⟩
  have horder : order [odd] = .ok [odd] := by simp [order, Text.sortOn, early?, odd]
  have hrun : ((run ⟨⟨"/", []⟩, "k"⟩ [odd] (.obj [])).run σ).1 =
      .error (.misuse (.noMember "int" "partition")) := by
    rw [hσ]
    decide +kernel
  have hordinary : odd.Ordinary := by
    rintro document f ⟨⟩
  refine ⟨⟨⟨"/", []⟩, "k"⟩, σ, _, horder, rfl, Prod.ext hrun rfl, ?_⟩
  exact run_fails horder (by simp) rfl (List.forall_mem_singleton.2 hordinary) (Prod.ext hrun rfl)

end Pipeline

end FlowPlan

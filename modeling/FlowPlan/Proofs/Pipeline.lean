import FlowPlan.Proofs.Inventory
import FlowPlan.Proofs.Plan.Compilation

/-!
# The pipeline on disk

The pipeline makes of a document what its stages make of it, one after another, and leaves that in the
workspace, where it is read back with its keys in order.

## Main definitions

* `Pipeline.Holds` — the workspace holds a compiled plan.
* `Stage.attempt` — what the pipeline sees of a stage.

## Main statements

* `Pipeline.runStage_run` — a stage is run as it does on the document alone; what it makes is kept.
* `Pipeline.runStage_mirrors`, `Pipeline.runStages_mirrors` — the stages.
* `Pipeline.run_mirrors` — the pipeline ends as its stages do, and leaves their result.
-/

namespace FlowPlan.Pipeline

open FlowPlan.Action Site Session Workspace

/-- The artifact holds the document before or after a stage. -/
def IsStepName (n : String) : Prop := "config-".toList <+: n.toList

instance (n : String) : Decidable (IsStepName n) := inferInstanceAs (Decidable (_ <+: _))

/-- The workspace holds a plan: it is an artifact, to which a link leads. -/
def Holds (w : Workspace) (A : Address) (d : Disk) (plan : Json) : Prop :=
  ∃ t, IsArtifactName t ∧ IsStepName t ∧
    d.find? (A ++ [w.key] ++ [compiledArtifact]) = some (.link t) ∧
    d.find? (A ++ [w.key] ++ [t]) = some (.file (.json plan))

variable {w : Workspace} {A : Address} {σ σ' : Site} {X : String → Prop} {plan : Json}

theorem isArtifactName_input : IsArtifactName inputArtifact ∧ IsStepName inputArtifact := by decide

theorem isArtifactName_compiled : IsArtifactName compiledArtifact ∧ ¬ IsStepName compiledArtifact := by
  decide

/-- A name that can be part of the name of a file makes an artifact. -/
theorem isArtifactName_artifact {s : Stage} (hplain : PlainName s.name) (hnul : Path.NulFree s.name) :
    IsArtifactName s.artifact ∧ IsStepName s.artifact :=
  ⟨isArtifactName_named s.artifact_named (by decide) (by decide) hplain hnul, s.artifact_named.starts⟩

theorem Holds.readJson (h : Holds w A σ.disk plan) (hw : Workable w A σ) :
    σ.disk.readJson (compiledPath w) = .ok plan := by
  obtain ⟨t, ht, -, hlink, hfile⟩ := h
  exact hw.readJson_link isArtifactName_compiled.1 ht hlink hfile

/-- What concerns no artifact of the pipeline leaves the plan as it is. -/
theorem Holds.of_edits (h : Holds w A σ.disk plan) (hedits : Edits w A X σ σ')
    (hX : ∀ n, X n → ¬ IsStepName n ∧ n ≠ compiledArtifact) : Holds w A σ'.disk plan := by
  obtain ⟨t, ht, hstep, hlink, hfile⟩ := h
  refine ⟨t, ht, hstep, ?_, ?_⟩
  · rw [hedits.find? isArtifactName_compiled.1 fun hn => (hX _ hn).2 rfl, hlink]
  · rw [hedits.find? ht fun hn => (hX t hn).1 hstep, hfile]

/-! ## One stage -/

theorem expect_both (s : Stage) (role : String) (level : Level) (document : Json) :
    Attempt.Both Eq (expect s role level document) (Document.check document level) := by
  unfold expect
  split
  · rename_i hcheck
    rw [hcheck]
    exact .error _ _
  · exact .same _

end FlowPlan.Pipeline

namespace FlowPlan.Stage

/-- What the pipeline makes of the outcome of a transformation. -/
def reported (s : Stage) : Attempt Json → Attempt Json
  | .ok output => .ok output
  | .error f => .error (if f.isBuildFailure || !f.isOrdinary then f else .stageFailed s.name f.message)

/-- What a stage makes of a document, with the fault that the pipeline ends with. -/
def attempt (s : Stage) (document : Json) : Attempt Json := do
  Pipeline.expect s "input" s.requires document
  let output ← s.reported (s.transform document)
  Pipeline.expect s "output" s.produces output
  return output

variable {s : Stage} {document output : Json}

theorem reported_both (s : Stage) (x : Attempt Json) : Attempt.Both Eq (s.reported x) x := by
  cases x with
  | ok output => exact .ok rfl
  | error f => exact .error _ _

/-- Only the fault differs from what the stage does alone. -/
theorem attempt_both (s : Stage) (document : Json) :
    Attempt.Both Eq (s.attempt document) (s.apply document) := by
  refine (Pipeline.expect_both s "input" s.requires document).bind ?_
  rintro _ _ -
  refine (reported_both s _).bind ?_
  rintro output _ rfl
  refine (Pipeline.expect_both s "output" s.produces output).bind ?_
  rintro _ _ -
  exact .ok rfl

theorem attempt_eq_ok : s.attempt document = .ok output ↔ s.apply document = .ok output := by
  constructor
  · intro h
    obtain ⟨_, happly, rfl⟩ := (attempt_both s document).left h
    exact happly
  · intro h
    obtain ⟨_, hattempt, rfl⟩ := (attempt_both s document).right h
    exact hattempt

end FlowPlan.Stage

namespace FlowPlan.Pipeline

open FlowPlan.Action Site Session Workspace

/-- The second half of a stage: what it has made is kept. -/
def keep (w : Workspace) (s : Stage) (output : Json) (start : Instant) : Session (Json × Finished) := do
  discard (w.writeArtifact s.artifact output)
  let finished : Finished := ⟨s.name, s.artifact, start, ← Session.now⟩
  Session.info logger s!"Stage {s.name} completed" "stage_completed" (some s.name)
    (some (completion s.artifact (finished.endedAt.secondsSince start)))
  return (output, finished)

variable {w : Workspace} {A : Address} {σ : Site}

theorem transform_run (s : Stage) (document : Json) (σ : Site) :
    ∃ σ', (transform s document).run σ = (s.reported (s.transform document), σ') ∧
      Differs (fun _ => False) σ σ' := by
  unfold transform
  cases s.transform document with
  | ok output =>
    cases s.remark document with
    | none => exact ⟨σ, rfl, .refl _ σ⟩
    | some text =>
      obtain ⟨σ', hrun, hdiff⟩ := debug_run "ddcompile.stages.builtin" text none none σ
      exact ⟨σ', run_bind_ok hrun, hdiff⟩
  | error f =>
    dsimp only [Stage.reported]
    cases f.isBuildFailure || !f.isOrdinary with
    | true => exact ⟨σ, rfl, .refl _ σ⟩
    | false =>
      obtain ⟨σ', hrun, hdiff⟩ := error_run logger s!"Stage {s.name} failed with exception: {f.message}"
        "stage_exception" (some s.name) none (some f) σ
      exact ⟨σ', run_bind_ok hrun, hdiff⟩

/-- Before anything is kept, a stage only reports. -/
theorem runStage_run (w : Workspace) (document : Json) (s : Stage) (σ : Site) :
    ∃ σ₁, Differs (fun _ => False) σ σ₁ ∧ (runStage w document s).run σ =
      match s.attempt document with
      | .ok output => (keep w s output σ.clock).run σ₁
      | .error f => (.error f, σ₁) := by
  obtain ⟨σ₁, hrun₁, hdiff₁⟩ := info_run logger s!"Running stage {s.name}" "stage_started" (some s.name)
    none σ
  obtain ⟨σ₂, hrun₂, hdiff₂⟩ := transform_run s document σ₁
  unfold runStage Stage.attempt
  rw [run_bind_ok (run_now σ), run_bind_ok hrun₁]
  cases expect s "input" s.requires document with
  | error f => exact ⟨σ₁, hdiff₁, rfl⟩
  | ok _ =>
    rw [Action.lift_ok_bind, Attempt.ok_bind]
    cases hreported : s.reported (s.transform document) with
    | error f =>
      rw [hreported] at hrun₂
      exact ⟨σ₂, hdiff₁.trans hdiff₂, run_bind_error hrun₂⟩
    | ok output =>
      rw [hreported] at hrun₂
      refine ⟨σ₂, hdiff₁.trans hdiff₂, (run_bind_ok hrun₂).trans ?_⟩
      rw [Attempt.ok_bind]
      cases expect s "output" s.produces output with
      | error f => rfl
      | ok _ => rfl

/-- In a workspace where nothing is in the way, what a stage has made is written and listed. -/
theorem keep_gains {s : Stage} (h : Workable w A σ) (hs : IsArtifactName s.artifact) (output : Json)
    (start : Instant) :
    ∃ finished σ', (keep w s output start).run σ = (.ok (output, finished), σ') ∧
      finished.artifact = s.artifact ∧ Gains w A [(s.artifact, .file (.json output.sortKeys))] σ σ' := by
  obtain ⟨σ₁, hwrite, hgains₁⟩ := writeArtifact_gains h hs output
  obtain ⟨σ₂, hinfo, hdiff₂⟩ := info_run logger s!"Stage {s.name} completed" "stage_completed"
    (some s.name) (some (completion s.artifact (σ₁.clock.secondsSince start))) σ₁
  refine ⟨⟨s.name, s.artifact, start, σ₁.clock⟩, σ₂, ?_, rfl, ?_⟩
  · unfold keep
    rw [run_bind_ok (run_bind_ok hwrite), run_bind_ok (run_now σ₁), run_bind_ok hinfo]
    rfl
  · refine hgains₁.trans ((hgains₁.edits.workable h).gains_log hdiff₂) ?_
    simp [Assoc.keys, hs]

/-- A stage ends as it does on the document alone, and keeps what it makes. -/
theorem runStage_mirrors {s : Stage} (h : Workable w A σ) (hs : IsArtifactName s.artifact)
    (document : Json) :
    Mirrors (fun r output σ' => r.1 = output ∧ r.2.artifact = s.artifact ∧
        Edits w A (· = s.artifact) σ σ' ∧
        σ'.disk.find? (A ++ [w.key] ++ [s.artifact]) = some (.file (.json output.sortKeys)))
      (runStage w document s) (s.apply document) σ := by
  obtain ⟨σ₁, hdiff₁, hrun⟩ := runStage_run w document s σ
  have hboth := s.attempt_both document
  have hedits₁ := h.edits_log hdiff₁ (· = s.artifact)
  unfold Mirrors
  rw [hrun]
  cases hattempt : s.attempt document with
  | error f =>
    rw [hattempt] at hboth
    cases happly : s.apply document with
    | error f' => exact .error f f'
    | ok output =>
      rw [happly] at hboth
      cases hboth
  | ok output =>
    rw [Stage.attempt_eq_ok.1 hattempt]
    obtain ⟨finished, σ₂, hkeep, hartifact, hgains⟩ := keep_gains (hedits₁.workable h) hs output σ.clock
    dsimp only
    rw [hkeep]
    refine .ok ⟨rfl, hartifact, hedits₁.trans (hgains.edits.mono fun n hn _ => ?_), ?_⟩
    · simpa [Assoc.keys] using hn
    · exact hgains.holds _ List.mem_cons_self

/-! ## All stages -/

/-- The artifact with what the stages make, starting from what another one holds. -/
def lastArtifact (first : String) (stages : List Stage) : String :=
  (stages.getLast?.map (·.artifact)).getD first

theorem lastArtifact_cons (first : String) (s : Stage) (rest : List Stage) :
    lastArtifact first (s :: rest) = lastArtifact s.artifact rest := by
  cases rest with
  | nil => rfl
  | cons s' rest =>
    unfold lastArtifact
    rw [List.getLast?_cons_cons, List.getLast?_eq_some_getLast (by simp), Option.map_some, Option.getD_some,
      Option.getD_some]

theorem lastArtifact_mem {P : String → Prop} {first : String} {stages : List Stage} (hfirst : P first)
    (hstages : ∀ s ∈ stages, P s.artifact) : P (lastArtifact first stages) := by
  induction stages generalizing first with
  | nil => exact hfirst
  | cons s rest ih =>
    rw [lastArtifact_cons]
    exact ih (hstages s List.mem_cons_self) fun t ht => hstages t (List.mem_cons_of_mem s ht)

theorem runStages_mirrors {stages : List Stage} (h : Workable w A σ)
    (hs : ∀ s ∈ stages, IsArtifactName s.artifact ∧ IsStepName s.artifact) {first : String}
    (hfirst : IsArtifactName first) {document : Json}
    (hfile : σ.disk.find? (A ++ [w.key] ++ [first]) = some (.file (.json document.sortKeys))) :
    Mirrors (fun finished output σ' => finished.map (·.artifact) = stages.map (·.artifact) ∧
        Edits w A IsStepName σ σ' ∧ σ'.disk.find? (A ++ [w.key] ++ [lastArtifact first stages]) =
          some (.file (.json output.sortKeys)))
      (runStages w document stages) (Stage.applyAll stages document) σ := by
  induction stages generalizing σ first document with
  | nil => exact .pure ⟨rfl, h.edits_refl _, hfile⟩
  | cons s rest ih =>
    obtain ⟨hname, hstep⟩ := hs s List.mem_cons_self
    unfold Stage.applyAll
    rw [List.foldlM_cons, lastArtifact_cons]
    refine (runStage_mirrors h hname document).bind ?_
    rintro ⟨output, finished⟩ - σ₁ ⟨rfl, hartifact, hedits₁, hfile₁⟩
    have hedits₁' : Edits w A IsStepName σ σ₁ := hedits₁.mono fun n hn _ => hn ▸ hstep
    dsimp only at hartifact hfile₁ ⊢
    rw [← bind_pure (List.foldlM _ _ _)]
    refine (ih (hedits₁.workable h) (fun t ht => hs t (List.mem_cons_of_mem s ht)) hname hfile₁).bind ?_
    rintro finished' output' σ₂ ⟨hartifacts, hedits₂, hfile₂⟩
    exact .pure ⟨by rw [List.map_cons, List.map_cons, hartifact, hartifacts], hedits₁'.trans hedits₂, hfile₂⟩

/-- The pipeline ends as its stages do on the document alone, and leaves what they make as the plan of
the workspace. -/
theorem run_mirrors {stages : List Stage} (h : Workable w A σ) (hne : stages ≠ [])
    (hplain : ∀ s ∈ stages, PlainName s.name ∧ Path.NulFree s.name) (document : Json) :
    Mirrors (fun _ output σ' => Edits w A (fun _ => True) σ σ' ∧ Holds w A σ'.disk output.sortKeys)
      (run w stages document) (do Document.check document .raw; Stage.applyAll stages document) σ := by
  have hs : ∀ s ∈ stages, IsArtifactName s.artifact ∧ IsStepName s.artifact := fun s hmem =>
    isArtifactName_artifact (hplain s hmem).1 (hplain s hmem).2
  unfold run
  rw [if_neg (by simpa using hne)]
  refine .bind_lift (.same (Document.check document .raw)) ?_
  rintro - - -
  obtain ⟨σ₁, hrun₁, hedits₁, hfile₁⟩ := writeArtifact_run h isArtifactName_input.1 document
  have hedits₁' : Edits w A IsStepName σ σ₁ := hedits₁.mono fun n hn _ => hn ▸ isArtifactName_input.2
  rw [← bind_pure (Stage.applyAll _ _)]
  refine .bind_ok (run_bind_ok hrun₁)
    ((runStages_mirrors (hedits₁.workable h) hs isArtifactName_input.1 hfile₁).bind ?_)
  rintro finished output σ₂ ⟨hartifacts, hedits₂, hfile₂⟩
  have hlast : (finished.getLast?.map (·.artifact)).getD inputArtifact = lastArtifact inputArtifact stages := by
    rw [lastArtifact, ← List.getLast?_map, ← List.getLast?_map, hartifacts]
  obtain ⟨hname, hstep⟩ := lastArtifact_mem (P := fun n => IsArtifactName n ∧ IsStepName n)
    isArtifactName_input hs
  have hworkable₂ := (hedits₁'.trans hedits₂).workable h
  obtain ⟨σ₃, hrun₃, hedits₃, hlink⟩ := link_run hworkable₂ isArtifactName_compiled.1 hname hfile₂
  have hfile₃ : σ₃.disk.find? (A ++ [w.key] ++ [lastArtifact inputArtifact stages]) =
      some (.file (.json output.sortKeys)) := by
    rw [hedits₃.find? hname, hfile₂]
    rintro (heq | heq)
    · exact isArtifactName_compiled.2 (heq ▸ hstep)
    · exact absurd (heq ▸ hstep) (by decide)
  obtain ⟨σ₄, hrun₄, hdiff₄⟩ := info_run logger
    s!"Config pipeline completed ({finished.length} stages)" "pipeline_completed" none
    (some (.obj [("compiled", .str (lastArtifact inputArtifact stages))])) σ₃
  have hedits₄ := (hedits₃.workable hworkable₂).edits_log hdiff₄ fun _ => False
  dsimp only
  rw [hlast]
  refine .bind_ok (run_bind_ok hrun₃) (.bind_ok hrun₄ (.pure ⟨?_, ?_⟩))
  · refine ((hedits₁'.trans hedits₂).mono ?_).trans ((hedits₃.mono ?_).trans (hedits₄.mono ?_))
    all_goals exact fun _ _ _ => trivial
  · exact Holds.of_edits ⟨_, hname, hstep, hlink, hfile₃⟩ hedits₄ fun _ hfalse => hfalse.elim

end FlowPlan.Pipeline

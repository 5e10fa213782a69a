import FlowPlan.Proofs.Inventory
import FlowPlan.Proofs.Json.Reordering
import FlowPlan.Proofs.StageFailure

/-!
# What a pipeline leaves

Each stage is given what the one before has made. In a new workspace a pipeline leaves its input, what the
stages have made up to the first that fails, and, if none fails, a link to the last of these. That is also
what the record lists, in the order in which it was written.

## Main definitions

* `Stage.outputs` — what stages make, up to the first that fails.
* `Pipeline.holdings` — what a pipeline leaves.

## Main statements

* `Pipeline.runStage_gains`, `Pipeline.runStages_gains` — one stage, and stages in a row.
* `Pipeline.run_leaves` — the pipeline in a new workspace.
-/

namespace FlowPlan

open FlowPlan.Action Site Session Workspace

namespace Stage

/-- What a stage makes of a document, if it does not fail and there can be a file of that name. -/
def output? (s : Stage) (document : Json) : Option Json :=
  if Path.NulFree s.name then (s.apply document).toOption else none

/-- What stages make of a document, each of what the one before has made, up to the first that fails. -/
def outputs : List Stage → Json → List Json
  | [], _ => []
  | s :: rest, document =>
    match s.output? document with
    | some output => output :: outputs rest output
    | none => []

variable {s : Stage} {stages : List Stage} {document output : Json}

theorem output?_eq_some :
    s.output? document = some output ↔ Path.NulFree s.name ∧ s.apply document = .ok output := by
  unfold output?
  split
  · rename_i hnul
    cases s.apply document <;> simp [hnul, Except.toOption]
  · rename_i hnul
    simp [hnul]

theorem outputs_cons (h : s.output? document = some output) :
    outputs (s :: stages) document = output :: outputs stages output := by
  rw [outputs, h]

theorem outputs_of_none (h : s.output? document = none) : outputs (s :: stages) document = [] := by
  rw [outputs, h]

end Stage

namespace Pipeline

/-- The artifacts of stages that have made these documents. -/
def kept (stages : List Stage) (outputs : List Json) : Assoc String Entry :=
  (stages.zip outputs).map fun x => (x.1.artifact, .file (.json x.2.sortKeys))

/-- What a pipeline leaves of a document, in the order in which it is written. -/
def holdings (stages : List Stage) (document : Json) : Assoc String Entry :=
  let outputs := Stage.outputs stages document
  (inputArtifact, .file (.json document.sortKeys)) :: kept stages outputs ++
    if outputs.length = stages.length then [(compiledArtifact, .link (lastArtifact inputArtifact stages))] else []

variable {w : Workspace} {A : Address} {s : Stage} {stages ordered : List Stage} {document output : Json}
  {f : Fault} {σ σ' : Site} {n : String}

theorem kept_cons (s : Stage) (stages : List Stage) (output : Json) (outputs : List Json) :
    kept (s :: stages) (output :: outputs) =
      (s.artifact, .file (.json output.sortKeys)) :: kept stages outputs := rfl

theorem keys_kept_sublist (stages : List Stage) (outputs : List Json) :
    (Assoc.keys (kept stages outputs)).Sublist (stages.map (·.artifact)) := by
  induction stages generalizing outputs with
  | nil => exact List.Sublist.refl []
  | cons s stages ih =>
    cases outputs with
    | nil => exact List.nil_sublist _
    | cons output outputs => exact (ih outputs).cons_cons s.artifact

theorem lastArtifact_mem_kept (first : String) (c : Content) {outputs : List Json}
    (h : outputs.length = stages.length) :
    ∃ c', (lastArtifact first stages, Entry.file c') ∈ (first, .file c) :: kept stages outputs := by
  induction stages generalizing first c outputs with
  | nil => exact ⟨c, List.mem_cons_self⟩
  | cons s stages ih =>
    cases outputs with
    | nil => cases h
    | cons output outputs =>
      rw [lastArtifact_cons, kept_cons]
      obtain ⟨c', hmem⟩ := ih s.artifact (.json output.sortKeys) (Nat.succ.inj h)
      exact ⟨c', List.mem_cons_of_mem _ hmem⟩

/-- What stages have made is kept under names that files can have. -/
theorem isArtifactName_of_kept (hplain : ∀ s ∈ stages, PlainName s.name) (document : Json) :
    ∀ n ∈ Assoc.keys (kept stages (Stage.outputs stages document)), IsArtifactName n ∧ IsStepName n := by
  induction stages generalizing document with
  | nil => simp [kept, Assoc.keys]
  | cons s stages ih =>
    obtain ⟨hs, hstages⟩ := List.forall_mem_cons.1 hplain
    cases houtput : s.output? document with
    | none => simp [Stage.outputs_of_none houtput, kept, Assoc.keys]
    | some output =>
      rw [Stage.outputs_cons houtput, kept_cons]
      exact List.forall_mem_cons.2
        ⟨isArtifactName_artifact hs (Stage.output?_eq_some.1 houtput).1, ih hstages output⟩

/-! ## One stage -/

/-- A stage leaves what it makes, or it fails and leaves nothing. -/
theorem runStage_gains (h : Workable w A σ) (hplain : PlainName s.name) (document : Json) :
    (∃ f σ', s.output? document = none ∧ (runStage w document s).run σ = (.error f, σ') ∧
      Gains w A [] σ σ') ∨
    ∃ output finished σ', s.output? document = some output ∧
      (runStage w document s).run σ = (.ok (output, finished), σ') ∧ finished.artifact = s.artifact ∧
      Gains w A [(s.artifact, .file (.json output.sortKeys))] σ σ' := by
  obtain ⟨σ₁, hdiff₁, hrun⟩ := runStage_run w document s σ
  have hgains₁ := h.gains_log hdiff₁
  have h₁ := hgains₁.edits.workable h
  cases hattempt : s.attempt document with
  | error f =>
    simp only [hattempt] at hrun
    refine .inl ⟨f, σ₁, Option.eq_none_iff_forall_ne_some.2 fun output houtput => ?_, hrun, hgains₁⟩
    rw [Stage.attempt_eq_ok.2 (Stage.output?_eq_some.1 houtput).2] at hattempt
    cases hattempt
  | ok output =>
    simp only [hattempt] at hrun
    by_cases hnul : Path.NulFree s.name
    · obtain ⟨finished, σ₂, hkeep, hartifact, hgains₂⟩ :=
        keep_gains h₁ (isArtifactName_artifact hplain hnul).1 output σ.clock
      exact .inr ⟨output, finished, σ₂, Stage.output?_eq_some.2 ⟨hnul, Stage.attempt_eq_ok.1 hattempt⟩,
        hrun.trans hkeep, hartifact, hgains₁.trans hgains₂ (by simp [Assoc.keys])⟩
    · obtain ⟨f, hwrite⟩ := writeArtifact_nul h₁ (s.artifact_named.isName (by decide) hplain)
        (mt (s.artifact_named.nulFree (by decide)).1 hnul) output
      exact .inl ⟨f, σ₁, if_neg hnul, hrun.trans (run_bind_error (run_bind_error hwrite)), hgains₁⟩

/-! ## All stages -/

/-- Stages leave what they make up to the first that fails. -/
theorem runStages_gains (h : Workable w A σ) (hplain : ∀ s ∈ stages, PlainName s.name)
    (hnodup : (stages.map (·.artifact)).Nodup) (document : Json) :
    ∃ r σ', (runStages w document stages).run σ = (r, σ') ∧
      Gains w A (kept stages (Stage.outputs stages document)) σ σ' ∧
      ((∃ finished, r = .ok finished ∧ finished.map (·.artifact) = stages.map (·.artifact) ∧
          (Stage.outputs stages document).length = stages.length) ∨
        (∃ f, r = .error f) ∧ (Stage.outputs stages document).length < stages.length) := by
  induction stages generalizing σ document with
  | nil => exact ⟨_, σ, rfl, h.gains_log (.refl _ σ), .inl ⟨[], rfl, rfl, rfl⟩⟩
  | cons s stages ih =>
    obtain ⟨hs, hstages⟩ := List.forall_mem_cons.1 hplain
    rw [List.map_cons, List.nodup_cons] at hnodup
    unfold runStages
    obtain ⟨f, σ₁, houtput, hrun₁, hgains₁⟩ | ⟨output, finished, σ₁, houtput, hrun₁, hartifact, hgains₁⟩ :=
      runStage_gains h hs document
    · rw [Stage.outputs_of_none houtput]
      exact ⟨.error f, σ₁, run_bind_error hrun₁, hgains₁, .inr ⟨⟨f, rfl⟩, by simp⟩⟩
    · have hname := (isArtifactName_artifact hs (Stage.output?_eq_some.1 houtput).1).1
      have hlater : s.artifact ∉ Assoc.keys (kept stages (Stage.outputs stages output)) := fun hmem =>
        hnodup.1 ((keys_kept_sublist _ _).subset hmem)
      obtain ⟨r, σ₂, hrun₂, hgains₂, hr⟩ := ih (hgains₁.edits.workable h) hstages hnodup.2 output
      have hgains := hgains₁.trans hgains₂ (List.forall_mem_singleton.2 ⟨hname, hlater⟩)
      rw [Stage.outputs_cons houtput, kept_cons, List.length_cons, List.length_cons]
      rcases hr with ⟨rest, rfl, hartifacts, hlength⟩ | ⟨⟨f, rfl⟩, hlength⟩
      · refine ⟨.ok (finished :: rest), σ₂, ?_, hgains, .inl ⟨_, rfl, ?_, congrArg _ hlength⟩⟩
        · exact (run_bind_ok hrun₁).trans (run_bind_ok hrun₂)
        · rw [List.map_cons, List.map_cons, hartifact, hartifacts]
      · exact ⟨.error f, σ₂, (run_bind_ok hrun₁).trans (run_bind_error hrun₂), hgains,
          .inr ⟨⟨f, rfl⟩, Nat.succ_lt_succ hlength⟩⟩

/-! ## The pipeline -/

theorem input_not_kept (hinput : ∀ s ∈ stages, s.name ≠ "input") (outputs : List Json) :
    inputArtifact ∉ Assoc.keys (kept stages outputs) := by
  intro hmem
  obtain ⟨s, hs, heq⟩ := List.mem_map.1 ((keys_kept_sublist _ _).subset hmem)
  have hnamed : NamedAfter "config-" "input" inputArtifact := by decide
  exact hinput s hs (s.artifact_named.injective (heq ▸ hnamed))

theorem nodup_artifacts (hnodup : (stages.map (·.name)).Nodup) : (stages.map (·.artifact)).Nodup := by
  rw [List.Nodup, List.pairwise_map] at hnodup ⊢
  refine hnodup.imp fun {s t} hne heq => hne (s.artifact_named.injective ?_)
  exact heq ▸ t.artifact_named

/-- No name is used twice. -/
theorem nodup_holdings (hplain : ∀ s ∈ stages, PlainName s.name) (hnodup : (stages.map (·.name)).Nodup)
    (hinput : ∀ s ∈ stages, s.name ≠ "input") (document : Json) :
    (Assoc.keys (holdings stages document)).Nodup := by
  have hkept : (Assoc.keys ((inputArtifact, Entry.file (.json document.sortKeys)) ::
      kept stages (Stage.outputs stages document))).Nodup :=
    List.nodup_cons.2 ⟨input_not_kept hinput _, (nodup_artifacts hnodup).sublist (keys_kept_sublist _ _)⟩
  have hsteps := isArtifactName_of_kept hplain document
  unfold holdings
  dsimp only
  split
  · rw [Assoc.keys, List.map_append]
    refine List.nodup_append.2 ⟨hkept, by simp, ?_⟩
    rintro n hn _ hcompiled rfl
    obtain rfl : n = compiledArtifact := by simpa using hcompiled
    rcases List.mem_cons.1 hn with hn | hn
    · exact absurd hn (show compiledArtifact ≠ inputArtifact by decide)
    · exact isArtifactName_compiled.2 (hsteps _ hn).2
  · rw [List.append_nil]
    exact hkept

/-- A pipeline leaves its input, what the stages make up to the first that fails, and, if none fails, a link
to what the last one makes. -/
theorem run_gains (h : New w A σ) (hne : stages ≠ []) (hplain : ∀ s ∈ stages, PlainName s.name)
    (hnodup : (stages.map (·.name)).Nodup) (hinput : ∀ s ∈ stages, s.name ≠ "input")
    (hraw : Document.check document .raw = .ok ()) :
    ∃ r σ', (run w stages document).run σ = (r, σ') ∧ Gains w A (holdings stages document) σ σ' ∧
      ((∃ finished, r = .ok finished) ↔ (Stage.outputs stages document).length = stages.length) := by
  obtain ⟨made, hmade⟩ : ∃ made, made = kept stages (Stage.outputs stages document) := ⟨_, rfl⟩
  have hnames : ∀ n ∈ Assoc.keys made, IsArtifactName n ∧ IsStepName n :=
    hmade ▸ isArtifactName_of_kept hplain document
  have hfirst : inputArtifact ∉ Assoc.keys made := hmade ▸ input_not_kept hinput _
  unfold run
  rw [if_neg (by simpa using hne), hraw, Action.lift_ok_bind]
  obtain ⟨σ₁, hrun₁, hgains₁⟩ := writeArtifact_gains h.toWorkable isArtifactName_input.1 document
  have h₁ := hgains₁.edits.workable h.toWorkable
  obtain ⟨r, σ₂, hrun₂, hgains₂, hr⟩ := runStages_gains h₁ hplain (nodup_artifacts hnodup) document
  rw [← hmade] at hgains₂
  have hgains := hgains₁.trans hgains₂ (List.forall_mem_singleton.2 ⟨isArtifactName_input.1, hfirst⟩)
  rw [List.singleton_append] at hgains
  have hsteps : ∀ n ∈ Assoc.keys ((inputArtifact, Entry.file (.json document.sortKeys)) :: made),
      IsArtifactName n ∧ IsStepName n := List.forall_mem_cons.2 ⟨isArtifactName_input, hnames⟩
  unfold holdings
  dsimp only
  rw [← hmade]
  rcases hr with ⟨finished, rfl, hartifacts, hlength⟩ | ⟨⟨f, rfl⟩, hlength⟩
  · have h₂ := hgains.edits.workable h.toWorkable
    have hlast : (finished.getLast?.map (·.artifact)).getD inputArtifact = lastArtifact inputArtifact stages := by
      rw [lastArtifact, ← List.getLast?_map, ← List.getLast?_map, hartifacts]
    -- The last artifact is there, and nothing has been prepared for the link.
    obtain ⟨c, hc⟩ := lastArtifact_mem_kept inputArtifact (.json document.sortKeys) hlength
    rw [← hmade] at hc
    have hnone : σ₂.disk.find? (A ++ [w.key] ++ [Path.temporary compiledArtifact]) = none := by
      rw [h.find?_gains hgains (by decide) (by decide), Assoc.find?_eq_none_iff]
      exact fun hmem => absurd (hsteps _ hmem).2 (by decide)
    obtain ⟨σ₃, hrun₃, hgains₃⟩ := link_gains h₂ isArtifactName_compiled.1
      (hsteps _ (List.mem_map_of_mem hc)).1 (hgains.holds _ hc) hnone
    obtain ⟨σ₄, hrun₄, hdiff₄⟩ := info_run logger
      s!"Config pipeline completed ({finished.length} stages)" "pipeline_completed" none
      (some (.obj [("compiled", .str (lastArtifact inputArtifact stages))])) σ₃
    have hgains₄ := (hgains₃.edits.workable h₂).gains_log hdiff₄
    refine ⟨.ok finished, σ₄, ?_, ?_, by simp [hlength]⟩
    · rw [run_bind_ok (run_bind_ok hrun₁), run_bind_ok hrun₂]
      rw [hlast, run_bind_ok (run_bind_ok hrun₃), run_bind_ok hrun₄]
      rfl
    · have hlinked := hgains₃.trans hgains₄ (by simp [Assoc.keys, isArtifactName_compiled.1])
      rw [if_pos hlength]
      refine hgains.trans hlinked fun n hn => ⟨(hsteps n hn).1, fun hmem => ?_⟩
      obtain rfl : n = compiledArtifact := by simpa [Assoc.keys] using hmem
      exact isArtifactName_compiled.2 (hsteps _ hn).2
  · refine ⟨.error f, σ₂, ?_, ?_, by simp [hlength.ne]⟩
    · rw [run_bind_ok (run_bind_ok hrun₁), run_bind_error hrun₂]
    · rw [if_neg hlength.ne, List.append_nil]
      exact hgains

/-- In a new workspace a pipeline leaves its input, what the stages make up to the first that fails, and, if
none fails, a link to what the last one makes. There is nothing else but the record and the log, and the
record lists all that, in that order. With a slash in its name a stage would leave a directory, or write
outside of the workspace. -/
theorem run_leaves (h : New w A σ) (horder : order stages = .ok ordered) (hne : stages ≠ [])
    (hplain : ∀ s ∈ stages, PlainName s.name) (hnodup : (stages.map (·.name)).Nodup)
    (hinput : ∀ s ∈ stages, s.name ≠ "input") (hraw : Document.check document .raw = .ok ()) :
    ∃ r σ', (run w ordered document).run σ = (r, σ') ∧
      ((∃ finished, r = .ok finished) ↔ (Stage.outputs ordered document).length = ordered.length) ∧
      (∀ n, n ≠ recordName → n ≠ logName →
        σ'.disk.find? (A ++ [w.key] ++ [n]) = Assoc.find? (holdings ordered document) n) ∧
      (w.recordIn σ').artifacts = (Assoc.keys (holdings ordered document)).map .str ∧
      σ'.disk.find? (A ++ [w.key] ++ [recordName]) = some (.file (.json (w.recordIn σ').toJson.sortKeys)) := by
  have hperm : ordered.Perm stages := order_eq_ok horder ▸ Text.sortOn_perm _ _
  have hplain' : ∀ s ∈ ordered, PlainName s.name := fun s hs => hplain s (hperm.mem_iff.1 hs)
  have hinput' : ∀ s ∈ ordered, s.name ≠ "input" := fun s hs => hinput s (hperm.mem_iff.1 hs)
  have hnodup' : (ordered.map (·.name)).Nodup := (hperm.map _).nodup_iff.2 hnodup
  have hne' : ordered ≠ [] := fun hnil => hne (List.nil_perm.1 (hnil ▸ hperm))
  obtain ⟨r, σ', hrun, hgains, hr⟩ := run_gains h hne' hplain' hnodup' hinput' hraw
  exact ⟨r, σ', hrun, hr, fun n hrecord hlog => h.find?_gains hgains hrecord hlog,
    h.artifacts_gains hgains (nodup_holdings hplain' hnodup' hinput' document)⟩

/-- A stage that adds a field, under the name. -/
def marking (name : String) : Stage where
  name := name
  form := "FunctionStage"
  requires := .raw
  produces := .raw
  description := ""
  transform _ := .ok (.obj [("x", .int 1)])

theorem order_marking (name : String) : order [marking name] = .ok [marking name] := by
  simp [order, Text.sortOn, early?, marking]

/-- A stage that puts what it is given under its name. -/
def nesting (name : String) : Stage :=
  { marking name with transform := fun document => .ok (.obj [(name, document)]) }

/-- A stage that fails on whatever has a field of this name. -/
def wary (name field : String) : Stage :=
  { marking name with
    transform := fun document =>
      match document with
      | .obj fs => if field ∈ Assoc.keys fs then .error (.structural field none) else .ok document
      | _ => .ok document }

/-- Two stages that are given in the wrong order, of which the second one nests what the first has made; and two
of which the second one fails over what the first has made. -/
theorem run_leaves_nesting :
    let pair := [nesting "5.00", nesting "6.00"]
    let broken := [nesting "5.00", wary "6.00" "5.00"]
    order [nesting "6.00", nesting "5.00"] = .ok pair ∧ order broken = .ok broken ∧
      (∃ finished σ', (run specimen pair (.obj [])).run specimenSite = (.ok finished, σ') ∧
        (∀ n, n ≠ recordName → n ≠ logName → σ'.disk.find? ["/", "k", n] = Assoc.find?
          [("config-input.json", .file (.json (.obj []))),
            ("config-5.00.json", .file (.json (.obj [("5.00", .obj [])]))),
            ("config-6.00.json", .file (.json (.obj [("6.00", .obj [("5.00", .obj [])])]))),
            ("config.json", .link "config-6.00.json")] n) ∧
        (specimen.recordIn σ').artifacts =
          [.str "config-input.json", .str "config-5.00.json", .str "config-6.00.json", .str "config.json"]) ∧
      ∃ f σ', (run specimen broken (.obj [])).run specimenSite = (.error f, σ') ∧
        (∀ n, n ≠ recordName → n ≠ logName → σ'.disk.find? ["/", "k", n] = Assoc.find?
          [("config-input.json", .file (.json (.obj []))),
            ("config-5.00.json", .file (.json (.obj [("5.00", .obj [])])))] n) ∧
        (specimen.recordIn σ').artifacts = [.str "config-input.json", .str "config-5.00.json"] := by
  intro pair broken
  have hpair : order [nesting "6.00", nesting "5.00"] = .ok pair := by
    have hperm : [nesting "5.00", nesting "6.00"].Perm [nesting "6.00", nesting "5.00"] := .swap ..
    have hswap : Text.sortOn Stage.name pair = Text.sortOn Stage.name [nesting "6.00", nesting "5.00"] :=
      Text.sortOn_eq_of_perm hperm (by decide)
    rw [order, ← hswap, Text.sortOn_of_pairwise (by decide)]
    rfl
  have hbroken : order broken = .ok broken := by
    rw [order, Text.sortOn_of_pairwise (by decide)]
    rfl
  have hmade : holdings pair (.obj []) = [("config-input.json", .file (.json (.obj []))),
      ("config-5.00.json", .file (.json (.obj [("5.00", .obj [])]))),
      ("config-6.00.json", .file (.json (.obj [("6.00", .obj [("5.00", .obj [])])]))),
      ("config.json", .link "config-6.00.json")] := by decide +kernel
  have hleft : holdings broken (.obj []) = [("config-input.json", .file (.json (.obj []))),
      ("config-5.00.json", .file (.json (.obj [("5.00", .obj [])])))] := by decide +kernel
  have hraw : Document.check (.obj []) .raw = .ok () := rfl
  refine ⟨hpair, hbroken, ?_, ?_⟩
  · obtain ⟨r, σ', hrun, hr, hholds, hlists, -⟩ := run_leaves new_specimen hpair (by simp)
      (by decide) (by decide) (by decide) hraw
    obtain ⟨finished, rfl⟩ := hr.2 rfl
    rw [hmade] at hholds hlists
    exact ⟨finished, σ', hrun, hholds, hlists⟩
  · obtain ⟨r, σ', hrun, hr, hholds, hlists, -⟩ := run_leaves new_specimen hbroken (by simp [broken])
      (by decide) (by decide) (by decide) hraw
    cases r with
    | ok finished => exact absurd (hr.1 ⟨finished, rfl⟩) (by decide)
    | error f =>
      rw [hleft] at hholds hlists
      exact ⟨f, σ', hrun, hholds, hlists⟩

/-- A name with slashes leads to the input, which the stage replaces. -/
theorem input_replaced_marking :
    New specimen ["/"] specimenSite ∧ order [marking "a/../config-input"] = .ok [marking "a/../config-input"] ∧
      (marking "a/../config-input").name ≠ "input" ∧ Document.check (.obj []) .raw = .ok () ∧
      ∃ r σ', (run specimen [marking "a/../config-input"] (.obj [])).run specimenSite = (r, σ') ∧
        r.isOk = true ∧ σ'.disk.find? (["/"] ++ [specimen.key] ++ [inputArtifact]) =
          some (.file (.json (.obj [("x", .int 1)]))) ∧
        (.obj [("x", .int 1)] : Json) ≠ (Json.obj []).sortKeys :=
  ⟨new_specimen, order_marking _, by decide, rfl, _, _, rfl, by decide +kernel, by decide +kernel, by decide +kernel⟩

end Pipeline

end FlowPlan

import FlowPlan.Proofs.Fanout
import FlowPlan.Proofs.Interference
import FlowPlan.Proofs.Inventory
import Mathlib

/-!
# Generators among others

A generator that works while others do reads the plan for itself, does what it likes with its copy and
writes a file of its own. So what it comes to does not depend on what the others do in between, and they
do not see what it does.

## Main definitions

* `Fanout.worker` — a generator at work, with its copy of the plan.
* `Fanout.verdict` — what a generator makes of the plan, whatever others there are.
* `Fanout.apart` — what leaves a worker alone.
* `Fanout.Reports` — a worker has come to the verdict of its generator.

## Main statements

* `Fanout.worker_run` — a worker that is alone.
* `Fanout.worker_secure` — a worker among others.
-/

namespace FlowPlan.Fanout

open FlowPlan.Action Site Session Workspace Pipeline

/-! ## Workers -/

/-- What the workers share: the site, and the copies of the plan, by the names of the generators that they
were read for. -/
structure Bench where
  site : Site
  copies : Assoc String Json

/-- An action on the site is one on the bench. -/
def onSite {α : Type} : Session α → Action Bench Fault α
  | .done r => .done r
  | .step change next => .step (fun b => { b with site := change b.site }) fun b => onSite (next b.site)

/-- The generator works on its copy of the plan. What it leaves of that is up to the generator. -/
def generateFrom (leaves : Generator → Json → Json) (g : Generator) : Action Bench Fault Json :=
  .atomic fun b =>
    let plan := (Assoc.find? b.copies g.name).getD .null
    (g.generate plan, { b with copies := Assoc.set b.copies g.name (leaves g plan) })

/-- Read a copy of the plan, make the fragment from it and write that. -/
def worker (compiled : Path) (w : Workspace) (leaves : Generator → Json → Json) (g : Generator) :
    Action Bench Fault Generated := do
  let start ← onSite Session.now
  let plan ← onSite (Session.read (·.readJson compiled))
  Action.modify fun b => { b with copies := Assoc.set b.copies g.name plan }
  let fragment ← generateFrom leaves g
  Action.lift (expectMapping fragment)
  onSite (Session.write (·.writeJson (w.artifactPath g.artifact) fragment))
  return ⟨g.name, g.artifact, (← onSite Session.now).secondsSince start⟩

variable {w : Workspace} {A : Address} {σ σ' : Site} {plan : Json} {g : Generator} {gs : List Generator}
  {compiled : Path} {leaves : Generator → Json → Json} {b b' : Bench} {r : Attempt Generated}

theorem run_onSite {α : Type} (a : Session α) (b : Bench) :
    (onSite a).run b = ((a.run b.site).1, { b with site := (a.run b.site).2 }) := by
  induction a generalizing b with
  | done r => rfl
  | step change next ih => exact ih b.site { b with site := change b.site }

theorem onSite_read {α : Type} (f : Disk → Attempt α) :
    onSite (Session.read f) = .atomic fun b => (f b.site.disk, b) := rfl

theorem onSite_write (f : Disk → Disk.Change) : onSite (Session.write f) = .atomic fun b =>
    (((Session.write f).run b.site).1, { b with site := ((Session.write f).run b.site).2 }) := rfl

/-- Alone, a worker does what the generator does in the sequence of all. -/
theorem worker_run (compiled : Path) (w : Workspace) (leaves : Generator → Json → Json) (g : Generator)
    (b : Bench) : ((worker compiled w leaves g).run b).1 = ((work compiled w g).run b.site).1 ∧
      ((worker compiled w leaves g).run b).2.site = ((work compiled w g).run b.site).2 := by
  unfold worker work generateFrom
  simp only [run_bind, run_onSite, run_now, run_read, run_modify, run_atomic, run_lift, run_pure]
  cases hread : b.site.disk.readJson compiled with
  | error f => exact ⟨rfl, rfl⟩
  | ok plan =>
    simp only [Assoc.find?_set, if_true, Option.getD_some]
    cases hgenerate : g.generate plan with
    | error f => exact ⟨rfl, rfl⟩
    | ok fragment =>
      dsimp only
      cases expectMapping fragment with
      | error f => exact ⟨rfl, rfl⟩
      | ok _ =>
        dsimp only
        cases (Session.write (·.writeJson (w.artifactPath g.artifact) fragment)).run b.site with
        | mk r σ => cases r <;> exact ⟨rfl, rfl⟩

/-! ## What a generator comes to -/

/-- What a generator makes of the plan, whatever others there are: a mapping that can be written under its
name, or a failure. -/
def verdict (plan : Json) (g : Generator) : Attempt Json := do
  let fragment ← g.generate plan
  expectMapping fragment
  Disk.checkName g.name
  return fragment

/-- The plan is the compiled artifact, or that is a link to it. -/
def Held (w : Workspace) (A : Address) (d : Disk) (plan : Json) : Prop :=
  Holds w A d plan ∨ d.find? (A ++ [w.key] ++ [compiledArtifact]) = some (.file (.json plan))

/-- A fragment of these generators is written under the name. -/
def IsWritten (plan : Json) (gs : List Generator) (n : String) : Prop :=
  ∃ g ∈ gs, n = g.artifact ∧ ∃ v, verdict plan g = .ok v

/-- The generator has come to its verdict, and has written its fragment. -/
structure Reports (w : Workspace) (A : Address) (plan : Json) (g : Generator) (r : Attempt Generated)
    (d : Disk) : Prop where
  failure : ∀ f, verdict plan g = .error f → r = .error f
  success : ∀ v, verdict plan g = .ok v → (∃ seconds, r = .ok ⟨g.name, g.artifact, seconds⟩) ∧
    d.find? (A ++ [w.key] ++ [g.artifact]) = some (.file (.json v.sortKeys))

theorem nulFree_of_verdict {v : Json} (h : verdict plan g = .ok v) : Path.NulFree g.name := by
  by_contra hnul
  obtain ⟨fragment, -, h⟩ := Attempt.bind_eq_ok.1 h
  obtain ⟨_, h⟩ := Attempt.check_bind_eq_ok.1 h
  rw [Disk.checkName_of_nul hnul] at h
  cases h

theorem IsWritten.names {n : String} (h : IsWritten plan gs n) (hplain : ∀ g ∈ gs, PlainName g.name) :
    IsArtifactName n ∧ IsFragmentName n := by
  obtain ⟨g, hg, rfl, v, hv⟩ := h
  exact isArtifactName_artifact (hplain g hg) (nulFree_of_verdict hv)

theorem Held.readJson (h : Held w A σ.disk plan) (hw : Workable w A σ) :
    σ.disk.readJson (compiledPath w) = .ok plan := by
  rcases h with h | hfile
  · exact Holds.readJson h hw
  · exact hw.readJson isArtifactName_compiled.1 hfile

/-- Fragments leave the plan as it is. -/
theorem Held.of_edits (h : Held w A σ.disk plan) (hedits : Edits w A IsFragmentName σ σ') :
    Held w A σ'.disk plan := by
  refine h.imp (fun h => holds_of_edits h hedits) fun hfile => ?_
  rw [hedits.find? isArtifactName_compiled.1 (by decide), hfile]

/-! ## A worker among others -/

/-- A worker is left alone by those who write other fragments than its own, and leave the record and its
copy of the plan. An onlooker is left alone by those who write fragments. -/
def apart (w : Workspace) (A : Address) (plan : Json) (gs : List Generator) : Tolerance String Bench where
  Allows k b b' := Workable w A b.site →
    Edits w A (fun n => IsWritten plan gs n ∧ ∀ g : Generator, k = some g.name → n ≠ g.artifact)
      b.site b'.site ∧ Adds w A [] b.site b'.site ∧
    ∀ n, k = some n → Assoc.find? b'.copies n = Assoc.find? b.copies n
  refl _ b h := ⟨h.edits_refl _, .refl w A b.site, fun _ _ => rfl⟩
  trans {k s s' s''} h h' hs := by
    obtain ⟨hedits, hadds, hcopies⟩ := h hs
    obtain ⟨hedits', hadds', hcopies'⟩ := h' (hedits.workable hs)
    exact ⟨hedits.trans hedits', hadds.trans hadds', fun n hn => (hcopies' n hn).trans (hcopies n hn)⟩

/-- The workspace can be worked in, and the plan is there. -/
structure Stocked (w : Workspace) (A : Address) (plan : Json) (b : Bench) : Prop where
  workable : Workable w A b.site
  held : Held w A b.site.disk plan

theorem Stocked.of_edits {X : String → Prop} (h : Stocked w A plan b) (hedits : Edits w A X b.site b'.site)
    (hX : ∀ n, X n → IsFragmentName n) : Stocked w A plan b' :=
  ⟨hedits.workable h.workable, h.held.of_edits (hedits.mono fun n hn _ => hX n hn)⟩

theorem Stocked.of_allows {k : Option String} (h : Stocked w A plan b) (hplain : ∀ g ∈ gs, PlainName g.name)
    (hallows : (apart w A plan gs).Allows k b b') : Stocked w A plan b' :=
  h.of_edits (hallows h.workable).1 fun _ hn => (hn.1.names hplain).2

/-- What a worker does to its copy is nothing to the others. -/
theorem apart_copy (b : Bench) (v : Json) (j : Option String) (hj : j ≠ some g.name) :
    (apart w A plan gs).Allows j b { b with copies := Assoc.set b.copies g.name v } := by
  refine fun h => ⟨h.edits_refl _, .refl w A b.site, ?_⟩
  rintro n rfl
  rw [Assoc.find?_set, if_neg]
  exact fun heq => hj (congrArg some heq.symm)

/-- What a worker writes is nothing to the others. -/
theorem apart_write (hg : g ∈ gs) {v : Json} (hv : verdict plan g = .ok v)
    (hedits : Edits w A (· = g.artifact) b.site σ') (hadds : Adds w A [] b.site σ') (j : Option String)
    (hj : j ≠ some g.name) : (apart w A plan gs).Allows j b { b with site := σ' } := by
  refine fun _ => ⟨hedits.mono ?_, hadds, fun _ _ => rfl⟩
  rintro n rfl -
  refine ⟨⟨g, hg, rfl, v, hv⟩, fun g' hg' heq => hj ?_⟩
  rw [hg', g.artifact_named.injective (heq ▸ g'.artifact_named)]

theorem Reports.of_allows (h : Reports w A plan g r b.site.disk) (hb : Workable w A b.site)
    (hplain : PlainName g.name) (hallows : (apart w A plan gs).Allows (some g.name) b b') :
    Reports w A plan g r b'.site.disk := by
  refine ⟨h.failure, fun v hv => ⟨(h.success v hv).1, ?_⟩⟩
  have hname := (isArtifactName_artifact hplain (nulFree_of_verdict hv)).1
  rw [(hallows hb).1.find? hname fun hn => hn.2 g rfl rfl, (h.success v hv).2]

theorem reports_failure {f : Fault} (h : verdict plan g = .error f) (d : Disk) :
    Reports w A plan g (.error f) d where
  failure f' hf' := congrArg Except.error (Except.error.inj (h.symm.trans hf'))
  success v hv := by
    rw [h] at hv
    cases hv

theorem verdict_of_mapping {fragment : Json} (hgenerate : g.generate plan = .ok fragment)
    (hmapping : expectMapping fragment = .ok ()) :
    verdict plan g = Disk.checkName g.name >>= fun _ => .ok fragment := by
  unfold verdict
  rw [hgenerate, Attempt.ok_bind, hmapping, Attempt.ok_bind]
  rfl

/-- The last part of a worker's work. -/
theorem writing_secure (hb : Stocked w A plan b) (hg : g ∈ gs) (hplain : ∀ g ∈ gs, PlainName g.name)
    {fragment : Json} (hgenerate : g.generate plan = .ok fragment)
    (hmapping : expectMapping fragment = .ok ()) (start : Instant) :
    Secure (apart w A plan gs) g.name (fun r b => Reports w A plan g r b.site.disk)
      (onSite (Session.write (·.writeJson (w.artifactPath g.artifact) fragment)) >>= fun _ =>
        onSite Session.now >>= fun t => (pure ⟨g.name, g.artifact, t.secondsSince start⟩ :
          Action Bench Fault Generated)) b := by
  have hverdict := verdict_of_mapping hgenerate hmapping
  rw [onSite_write]
  refine secure_atomic fun b₁ h₁ => ?_
  have hb₁ := hb.of_allows hplain h₁
  dsimp only
  by_cases hnul : Path.NulFree g.name
  · rw [Disk.checkName_of_nulFree hnul, Attempt.ok_bind] at hverdict
    have hname := (isArtifactName_artifact (hplain g hg) hnul).1
    obtain ⟨σ', hrun, hedits, hfile⟩ := writeJson_run hb₁.workable hname fragment
    have hreports : ∀ seconds, Reports w A plan g (.ok ⟨g.name, g.artifact, seconds⟩) σ'.disk := by
      refine fun seconds => ⟨fun f hf => ?_, fun v hv => ⟨⟨seconds, rfl⟩, ?_⟩⟩
      · rw [hverdict] at hf
        cases hf
      · rw [hverdict] at hv
        cases hv
        exact hfile
    rw [hrun, lift_ok_bind]
    refine ⟨apart_write hg hverdict hedits (writeJson_adds hb₁.workable hname hrun), ?_⟩
    have hworkable : Workable w A σ' := hedits.workable hb₁.workable
    refine secure_look fun b₂ h₂ b₃ h₃ => ?_
    exact (hreports _).of_allows hworkable (hplain g hg) ((apart w A plan gs).trans h₂ h₃)
  -- Nothing has been written, and the worker fails.
  · rw [Disk.checkName_of_nul hnul, Attempt.error_bind] at hverdict
    rw [writeJson_nul hb₁.workable (g.artifact_named.isName (by decide) (hplain g hg))
      (mt (g.artifact_named.nulFree (by decide)).1 hnul)]
    exact ⟨fun j _ => (apart w A plan gs).refl j b₁, fun _ _ => reports_failure hverdict _⟩

/-- A worker comes to the verdict of its generator, whatever the others do, and leaves them alone. -/
theorem worker_secure (leaves : Generator → Json → Json) (hb : Stocked w A plan b) (hg : g ∈ gs)
    (hplain : ∀ g ∈ gs, PlainName g.name) :
    (worker (compiledPath w) w leaves g).Secure (apart w A plan gs) g.name
      (fun r b => Reports w A plan g r b.site.disk) b := by
  unfold worker
  rw [onSite_read]
  refine secure_look fun b₁ h₁ => secure_atomic fun b₂ h₂ => ⟨fun j _ => (apart w A plan gs).refl j b₂, ?_⟩
  have hb₂ := (hb.of_allows hplain h₁).of_allows hplain h₂
  dsimp only
  rw [hb₂.held.readJson hb₂.workable, lift_ok_bind]
  refine secure_modify fun b₃ h₃ => ⟨apart_copy b₃ plan, ?_⟩
  have hb₃ : Stocked w A plan { b₃ with copies := Assoc.set b₃.copies g.name plan } :=
    ⟨(hb₂.of_allows hplain h₃).workable, (hb₂.of_allows hplain h₃).held⟩
  unfold generateFrom
  refine secure_atomic fun b₄ h₄ => ⟨apart_copy b₄ _, ?_⟩
  have hb₄ := hb₃.of_allows hplain h₄
  have hb₅ : Stocked w A plan { b₄ with copies := Assoc.set b₄.copies g.name (leaves g plan) } :=
    ⟨hb₄.workable, hb₄.held⟩
  -- No one else has touched the copy.
  have hcopy : Assoc.find? b₄.copies g.name = some plan := by
    rw [(h₄ hb₃.workable).2.2 g.name rfl, Assoc.find?_set, if_pos rfl]
  dsimp only
  rw [hcopy, Option.getD_some]
  cases hgenerate : g.generate plan with
  | error f =>
    have hverdict : verdict plan g = .error f := by
      rw [verdict, hgenerate, Attempt.error_bind]
    exact fun _ _ => reports_failure hverdict _
  | ok fragment =>
    rw [lift_ok_bind]
    cases hmapping : expectMapping fragment with
    | error f =>
      have hverdict : verdict plan g = .error f := by
        rw [verdict, hgenerate, Attempt.ok_bind, hmapping, Attempt.error_bind]
      exact fun _ _ => reports_failure hverdict _
    | ok _ =>
      rw [lift_ok_bind]
      exact writing_secure hb₅ hg hplain hgenerate hmapping _

end FlowPlan.Fanout

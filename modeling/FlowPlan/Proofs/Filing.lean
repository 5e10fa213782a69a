import FlowPlan.Proofs.Bookkeeping
import FlowPlan.Proofs.Scheduling
import FlowPlan.Proofs.Survival

/-!
# What the phases file

The pipeline and the fan-out list what they have written, and nothing else. What they list can be read from
then on, whatever becomes of the phase, and the record is written whenever something is listed. The workers of
the fan-out write their fragments first, in any order; these are listed once the last worker has ended.

## Main definitions

* `Workspace.Writable` — the name of an artifact of a unit.
* `Fanout.Furnishes` — work after which all that it offers can be read.
* `Fanout.Works` — the ways in which generators may work.

## Main statements

* `Workspace.Settled.writeArtifact`, `Workspace.Settled.link` — an artifact, and the link of the compiled plan.
* `Pipeline.run_diligent` — the pipeline.
* `Fanout.launch_furnishes`, `Fanout.Works.furnishes` — the generators.
* `Fanout.runBy_diligent` — the fan-out.
-/

namespace FlowPlan

open FlowPlan.Action Site Pointers

namespace Workspace

variable {w : Workspace} {A : Address} {Y : String → Prop} {s s' : Site} {m n t : String} {r : Record}
  {α β : Type}

/-! ## Writing and linking -/

/-- Under the name an artifact is written that is no link, or nothing. -/
structure Writable (n : String) : Prop where
  isName : Path.IsName n
  ordinary : Path.NulFree n → Ordinary n

theorem writable_named {word name : String} (h : NamedAfter word name n) (hword : PlainName word ∧ Path.NulFree word)
    (hother : ∀ m ∈ [recordName, logName, Pipeline.compiledArtifact, Path.temporary Pipeline.compiledArtifact],
      ¬ word.toList <+: m.toList) (hplain : PlainName name) : Writable n where
  isName := h.isName hword.1 hplain
  ordinary hnul := by
    have hne : ∀ m, ¬ word.toList <+: m.toList → n ≠ m := fun m hm heq => hm (heq ▸ h.starts)
    simp only [List.forall_mem_cons] at hother
    exact ⟨⟨h.isName hword.1 hplain, hnul, hne _ hother.1, hne _ hother.2.1⟩, hne _ hother.2.2.1, hne _ hother.2.2.2.1⟩

theorem writable_stage {x : Stage} (hplain : PlainName x.name) : Writable x.artifact :=
  writable_named x.artifact_named (by decide) (by decide) hplain

theorem writable_generator {g : Generator} (hplain : PlainName g.name) : Writable g.artifact :=
  writable_named g.artifact_named (by decide) (by decide) hplain

theorem writable_input : Writable Pipeline.inputArtifact where
  isName := by decide
  ordinary _ := ⟨Pipeline.isArtifactName_input.1, by decide, by decide⟩

/-- A file is written in one step, or nothing is. -/
theorem Settled.writeJson (h : Settled w A Y r s) (hn : Writable n) {v : Json} {d : Disk}
    (hd : s.disk.writeJson (w.artifactPath n) v = .ok d) :
    Settled w A Y r { s with disk := d } ∧ Filed w A d n := by
  by_cases hnul : Path.NulFree n
  · have hord := hn.ordinary hnul
    cases (h.stands.rooted.writeJson hn.isName hnul (h.workable.flat n) v).symm.trans hd
    refine ⟨h.set hord.ne_record (by simp) (fun _ => ⟨_, rfl⟩) fun hc => absurd hc hord.ne_compiled, hord, v.sortKeys,
      ?_⟩
    rw [Disk.find?_set_child, if_pos rfl]
  · have hrun := writeJson_nul h.workable hn.isName hnul v
    rw [Session.run_write_ok (f := (·.writeJson (w.artifactPath n) v)) hd] at hrun
    cases hrun

theorem Settled.always_writeJson (h : Settled w A Y r s) (hn : Writable n) (v : Json) :
    Always (Settled w A Y r) (Session.write (·.writeJson (w.artifactPath n) v)) s :=
  Session.always_write h fun _ hd => (h.writeJson hn hd).1

/-- An artifact is written and listed, or there can be no file of the name. -/
theorem Settled.writeArtifact (h : Settled w A Y r s) (hn : Writable n) (v : Json) :
    Diligent w A Y (w.writeArtifact n v) s := by
  refine (diligent_of_always (h.always_writeJson hn v)).bind fun _ s₁ hrun => ?_
  obtain ⟨d, hd, rfl⟩ := Session.of_run_write hrun
  obtain ⟨hsettled, hfiled⟩ := h.writeJson hn hd
  exact (hsettled.addArtifact (.inl hfiled)).bind_pure _

theorem of_run_addArtifact (h : Settled w A Y r s) {x : Attempt Unit} (hrun : (w.addArtifact n).run s = (x, s')) :
    .str n ∈ (w.recordIn s').artifacts := by
  obtain ⟨_, hrun', hadds, -⟩ := addArtifact_saves h.stands n
  cases hrun.symm.trans hrun'
  rw [hadds, h.plain.artifacts_add n]
  split
  · assumption
  · simp

/-- The artifact that has been written is listed. -/
theorem of_run_writeArtifact (h : Settled w A Y r s) (hn : Writable n) {v : Json} {p : Path}
    (hrun : (w.writeArtifact n v).run s = (.ok p, s')) : .str n ∈ (w.recordIn s').artifacts := by
  obtain ⟨_, s₁, hwrite, hrest⟩ := of_run_bind_ok hrun
  obtain ⟨_, s₂, hadd, hdone⟩ := of_run_bind_ok hrest
  obtain ⟨d, hd, rfl⟩ := Session.of_run_write hwrite
  cases hdone
  exact of_run_addArtifact (h.writeJson hn hd).1 hadd

/-! ### The link of the compiled plan -/

/-- The link of the compiled plan is placed, or cannot be. -/
theorem upholds_bindLink (ht : Y t) (hfiled : t ≠ Pipeline.compiledArtifact) :
    Upholds (Settled w A Y r) (bindLink (.str t) (w.artifactPath Pipeline.compiledArtifact)) := by
  have hname : IsArtifactName Pipeline.compiledArtifact := Pipeline.isArtifactName_compiled.1
  have htarget : ∀ s, Settled w A Y r s → Filed w A s.disk t := fun s hs => (hs.known t ht).filed hfiled
  refine bindLink_upholds hname.isName (fun s hs => hs.stands.rooted.opens) (fun s u _ hs _ => ?_)
    (fun s u hu hs _ _ => ?_) fun s hs _ => hs.erase rfl
  · exact hs.set (by decide) (by simp) (fun hord => absurd rfl hord.ne_prepared) fun hc => absurd hc (by decide)
  · cases hu
    refine Settled.erase (s := { s with disk := _ }) ?_ rfl
    exact hs.set (by decide) (by simp) (fun hord => absurd rfl hord.ne_compiled) fun _ => ⟨t, htarget s hs, rfl⟩

/-- The compiled plan is a link to an artifact, and is listed. -/
theorem Settled.link (h : Settled w A Y r s) (ht : Filed w A s.disk t) :
    Diligent w A Y (w.link Pipeline.compiledArtifact t) s := by
  have hname : IsArtifactName Pipeline.compiledArtifact := Pipeline.isArtifactName_compiled.1
  have hne : t ≠ Pipeline.compiledArtifact := ht.1.ne_compiled
  -- The target stays what it is while the link is made.
  have h' : Settled w A (fun n => Y n ∨ n = t) r s := h.learn <| by
    rintro n (hn | rfl)
    · exact .inl hn
    · exact .inr (.inl ht)
  suffices hlink : Diligent w A (fun n => Y n ∨ n = t) (w.link Pipeline.compiledArtifact t) s from
    hlink.mono fun _ => .inl
  unfold Workspace.link
  refine h'.bind (Supervision.upholds_read _) fun present s₁ _ h₁ => ?_
  split
  · exact .done h₁.own
  · refine h₁.bind (upholds_bindLink (.inr rfl) hne) fun _ s₂ hrun h₂ => ?_
    obtain ⟨_, _, hrun', -, -, -, hlink⟩ := bindLink_run h₁.stands.rooted hname.isName hname.nulFree (.str t)
    obtain ⟨rfl, rfl⟩ := Prod.mk.inj (hrun.symm.trans hrun')
    exact (h₂.addArtifact (.inr ⟨rfl, t, (h₂.known t (.inr rfl)).filed hne, hlink t rfl rfl⟩)).bind_pure _

end Workspace

/-! ## The pipeline -/

namespace Pipeline

open Workspace

variable {w : Workspace} {A : Address} {Y : String → Prop} {r : Record} {σ σ' : Site} {x : Stage}
  {stages : List Stage} {document : Json}

theorem upholds_report {p : LogRecord} : Upholds (Settled w A Y r) (Session.report p) := indifferent_settled.report p

theorem upholds_transform (x : Stage) (document : Json) : Upholds (Settled w A Y r) (transform x document) := by
  unfold transform
  cases x.transform document with
  | ok output =>
    dsimp only
    split
    · exact upholds_report.bind fun _ => Supervision.upholds_pure _
    · exact Supervision.upholds_pure _
  | error f =>
    dsimp only
    split
    · exact (keeps_fail f).upholds
    · exact upholds_report.bind fun _ => (keeps_fail _).upholds

theorem runStage_diligent (h : Settled w A Y r σ) (hplain : PlainName x.name) (document : Json) :
    Diligent w A Y (runStage w document x) σ := by
  have hlift : ∀ {β : Type} (x : Attempt β), Upholds (Settled w A Y r) (Action.lift x) := fun _ =>
    (keeps_lift _).upholds
  refine h.bind (keeps_look _).upholds fun start σ₁ _ h₁ => ?_
  refine h₁.bind upholds_report fun _ σ₂ _ h₂ => h₂.bind (hlift _) fun _ σ₃ _ h₃ => ?_
  refine h₃.bind (upholds_transform x document) fun output σ₄ _ h₄ => h₄.bind (hlift _) fun _ σ₅ _ h₅ => ?_
  refine (h₅.writeArtifact (writable_stage hplain) output).discard.bind fun _ σ₆ hrun => ?_
  have h₆ := (h₅.writeArtifact (writable_stage hplain) output).discard.of_run hrun
  refine h₆.bind (keeps_look _).upholds fun ended σ₇ _ h₇ => ?_
  exact h₇.bind upholds_report fun _ σ₈ _ h₈ => .done h₈.own

/-- A stage that ends well has its artifact listed. -/
theorem of_run_runStage (h : Settled w A Y r σ) (hplain : PlainName x.name) {y : Json × Finished}
    (hrun : (runStage w document x).run σ = (.ok y, σ')) :
    y.2.artifact = x.artifact ∧ .str x.artifact ∈ (w.recordIn σ').artifacts := by
  obtain ⟨σ₁, hdiff, hstage⟩ := runStage_run w document x σ
  have h₁ : Settled w A Y r σ₁ := indifferent_settled.log σ σ₁ h hdiff
  rw [hrun] at hstage
  cases hattempt : x.attempt document with
  | error f =>
    rw [hattempt] at hstage
    cases hstage
  | ok output =>
    rw [hattempt] at hstage
    obtain ⟨_, σ₂, hwrite, hrest⟩ := of_run_bind_ok hstage.symm
    obtain ⟨p, hwrite⟩ := of_run_discard_ok hwrite
    have hlisted := of_run_writeArtifact h₁ (writable_stage hplain) hwrite
    obtain ⟨ended, _, hnow, hrest⟩ := of_run_bind_ok hrest
    cases hnow
    obtain ⟨_, σ₃, hinfo, hdone⟩ := of_run_bind_ok hrest
    cases hdone
    obtain ⟨_, hinfo', hdiff'⟩ := Session.info_run logger s!"Stage {x.name} completed" "stage_completed" (some x.name)
      (some (completion x.artifact (σ₂.clock.secondsSince σ.clock))) σ₂
    cases hinfo.symm.trans hinfo'
    rw [recordIn_congr hdiff'.records hdiff'.clock]
    exact ⟨rfl, hlisted⟩

/-- What the stages have made is listed, one after another. -/
theorem runStages_diligent (hplain : ∀ x ∈ stages, PlainName x.name) (h : Settled w A Y r σ) (document : Json) :
    Diligent w A Y (runStages w document stages) σ := by
  induction stages generalizing σ r document with
  | nil => exact .done h.own
  | cons x rest ih =>
    obtain ⟨hfirst, hrest⟩ := List.forall_mem_cons.1 hplain
    have hstage := runStage_diligent h hfirst document
    refine hstage.bind fun y σ₁ hrun => ?_
    exact (ih hrest (hstage.of_run hrun) y.1).bind_pure _

theorem of_run_runStages (hplain : ∀ x ∈ stages, PlainName x.name) (h : Settled w A Y r σ) {finished : List Finished}
    (hrun : (runStages w document stages).run σ = (.ok finished, σ')) :
    ∀ f ∈ finished, (∃ x ∈ stages, f.artifact = x.artifact) ∧ .str f.artifact ∈ (w.recordIn σ').artifacts := by
  induction stages generalizing σ r document finished with
  | nil =>
    cases hrun
    nofun
  | cons x rest ih =>
    obtain ⟨hfirst, hrest⟩ := List.forall_mem_cons.1 hplain
    obtain ⟨y, σ₁, hstage, hrun⟩ := of_run_bind_ok hrun
    obtain ⟨later, σ₂, hlater, hdone⟩ := of_run_bind_ok hrun
    cases hdone
    have h₁ := (runStage_diligent h hfirst document).of_run hstage
    obtain ⟨hartifact, hlisted⟩ := of_run_runStage h hfirst hstage
    have hlonger := (runStages_diligent hrest h₁ y.1).prefix_run
    rw [hlater] at hlonger
    rw [List.forall_mem_cons]
    refine ⟨⟨⟨x, List.mem_cons_self, hartifact⟩, hartifact ▸ hlonger.subset hlisted⟩, fun f hf => ?_⟩
    obtain ⟨⟨z, hz, heq⟩, hmem⟩ := ih hrest h₁ hlater f hf
    exact ⟨⟨z, List.mem_cons_of_mem x hz, heq⟩, hmem⟩

/-- The pipeline lists what it makes, and what it lists can be read. -/
theorem run_diligent (hplain : ∀ x ∈ stages, PlainName x.name) (h : Settled w A Y r σ) (document : Json) :
    Diligent w A Y (run w stages document) σ := by
  unfold run
  split
  · exact .done h.own
  refine h.bind (keeps_lift _).upholds fun _ σ₁ _ h₁ => ?_
  have hinput := (h₁.writeArtifact writable_input document).discard
  refine hinput.bind fun _ σ₂ hrun₂ => ?_
  have h₂ := hinput.of_run hrun₂
  have hstages := runStages_diligent hplain h₂ document
  refine hstages.bind fun finished σ₃ hrun₃ => ?_
  have h₃ := hstages.of_run hrun₃
  have hlast : Filed w A σ₃.disk ((finished.getLast?.map (·.artifact)).getD inputArtifact) := by
    cases hlast : finished.getLast? with
    | none =>
      obtain ⟨p, hwrite⟩ := of_run_discard_ok hrun₂
      have hlonger := hstages.prefix_run
      rw [hrun₃] at hlonger
      exact (h₃.listed _ (hlonger.subset (of_run_writeArtifact h₁ writable_input hwrite))).filed (by decide)
    | some f =>
      obtain ⟨⟨x, -, hx⟩, hlisted⟩ := of_run_runStages hplain h₂ hrun₃ f (List.mem_of_getLast? hlast)
      refine (h₃.listed _ hlisted).filed ?_
      rw [hx]
      intro heq
      exact absurd (heq ▸ x.artifact_named.starts) (by decide)
  have hlink := (h₃.link hlast).discard
  refine hlink.bind fun _ σ₄ hrun₄ => ?_
  exact (hlink.of_run hrun₄).bind upholds_report fun _ _ _ h₅ => .done h₅.own

end Pipeline

/-! ## The fan-out -/

namespace Fanout

open Workspace

variable {w : Workspace} {A : Address} {Y : String → Prop} {r : Record} {σ σ' : Site} {g : Generator}
  {gs : List Generator} {compiled : Path} {limit : Json} {outcomes : Assoc String (Attempt Generated)}

/-- One of the outcomes is a fragment of this name. -/
def Offers (outcomes : Assoc String (Attempt Generated)) (n : String) : Prop :=
  ∃ name y, (name, .ok y) ∈ outcomes ∧ y.artifact = n

theorem upholds_work (hplain : PlainName g.name) : Upholds (Settled w A Y r) (work compiled w g) := by
  have hlift : ∀ {β : Type} (x : Attempt β), Upholds (Settled w A Y r) (Action.lift x) := fun _ =>
    (keeps_lift _).upholds
  refine (keeps_look _).upholds.bind fun start => (Supervision.upholds_read _).bind fun plan => ?_
  refine (hlift _).bind fun fragment => (hlift _).bind fun _ => ?_
  refine Upholds.bind (fun σ h => h.always_writeJson (writable_generator hplain) fragment) fun _ => ?_
  exact (keeps_look _).upholds.bind fun _ => Supervision.upholds_pure _

/-- A generator that ends well has left a fragment that can be read. -/
theorem of_run_work (h : Settled w A Y r σ) (hplain : PlainName g.name) {y : Generated}
    (hrun : (work compiled w g).run σ = (.ok y, σ')) : y.artifact = g.artifact ∧ Legible w A σ'.disk g.artifact := by
  obtain ⟨start, _, hnow, hrun⟩ := of_run_bind_ok hrun
  cases hnow
  obtain ⟨plan, σ₁, hread, hrun⟩ := of_run_bind_ok hrun
  obtain rfl : σ = σ₁ := congrArg Prod.snd hread
  obtain ⟨fragment, σ₂, hgenerate, hrun⟩ := of_run_bind_ok hrun
  obtain rfl : σ = σ₂ := congrArg Prod.snd hgenerate
  obtain ⟨_, σ₃, hmapping, hrun⟩ := of_run_bind_ok hrun
  obtain rfl : σ = σ₃ := congrArg Prod.snd hmapping
  obtain ⟨_, σ₄, hwrite, hrun⟩ := of_run_bind_ok hrun
  obtain ⟨d, hd, rfl⟩ := Session.of_run_write hwrite
  obtain ⟨ended, _, hnow, hdone⟩ := of_run_bind_ok hrun
  cases hnow
  cases hdone
  exact ⟨rfl, .inl (h.writeJson (writable_generator hplain) hd).2⟩

/-- The work leaves the record as it is, and what it offers can be read. -/
def Furnishes (w : Workspace) (A : Address) (work : Session (Assoc String (Attempt Generated))) : Prop :=
  ∀ r σ, Settled w A (fun _ => False) r σ → Diligent w A (fun _ => False) work σ ∧
    ∀ outcomes σ', work.run σ = (.ok outcomes, σ') → Settled w A (Offers outcomes) r σ'

theorem launch_furnishes (hplain : ∀ g ∈ gs, PlainName g.name) (hkeys : (Assoc.keys outcomes).Nodup)
    (h : Settled w A (Offers outcomes) r σ) :
    Diligent w A (fun _ => False) (launch compiled w outcomes gs) σ ∧
      ∀ o σ', (launch compiled w outcomes gs).run σ = (.ok o, σ') → Settled w A (Offers o) r σ' := by
  induction gs generalizing outcomes σ with
  | nil =>
    refine ⟨.done (h.mono nofun).own, fun o σ' hrun => ?_⟩
    cases hrun
    exact h
  | cons g rest ih =>
    obtain ⟨hfirst, hrest⟩ := List.forall_mem_cons.1 hplain
    have hwork : Always (Settled w A (Offers outcomes) r) (work compiled w g) σ := upholds_work hfirst σ h
    have hnext : Settled w A (Offers (Assoc.set outcomes g.name ((work compiled w g).run σ).1)) r
        ((work compiled w g).run σ).2 := by
      refine hwork.run.learn ?_
      rintro n ⟨name, y, hy, rfl⟩
      rcases Assoc.mem_set hkeys hy with hy | ⟨hy, -⟩
      · obtain ⟨-, hok⟩ := Prod.mk.inj hy
        obtain ⟨hartifact, hlegible⟩ := of_run_work h hfirst (Prod.ext hok.symm rfl)
        exact .inr (hartifact ▸ hlegible)
      · exact .inl ⟨name, y, hy, rfl⟩
    obtain ⟨hdiligent, hend⟩ := ih hrest (Assoc.nodup_set hkeys _ _) hnext
    have hfirst : (Action.outcome (work compiled w g)).run σ = _ := run_outcome _ _
    refine ⟨?_, fun o σ' hrun => hend o σ' ?_⟩
    · have halways := (hwork.mono fun _ ht => ht.mono (X := fun _ => False) nofun).outcome
      refine (diligent_of_always halways).bind fun x σ₁ hrun => ?_
      cases hfirst.symm.trans hrun
      exact hdiligent
    · exact (run_bind_ok hfirst).symm.trans hrun

/-! ### Workers that take turns -/

/-- Whatever leaves the record as it is and what can be read is tolerated. -/
def mindful (w : Workspace) (A : Address) : Tolerance String Bench where
  Allows _ b b' := ∀ Y r, Settled w A Y r b.site → Settled w A Y r b'.site
  refl _ _ _ _ := id
  trans h h' Y r := h' Y r ∘ h Y r

/-- A worker that ends well has left a fragment that can be read, whatever the others do. -/
theorem worker_mindful {leaves : Generator → Json → Json} {b : Bench} (h : Settled w A Y r b.site)
    (hplain : PlainName g.name) (compiled : Path) :
    (worker compiled w leaves g).Secure (mindful w A) g.name
      (fun x b => ∀ y, x = .ok y → Legible w A b.site.disk y.artifact) b := by
  have hfails : ∀ (f : Fault) (b : Bench), (Action.done (.error f) : Action Bench Fault Generated).Secure
      (mindful w A) g.name (fun x b => ∀ y, x = .ok y → Legible w A b.site.disk y.artifact) b :=
    fun _ _ _ _ => nofun
  unfold worker
  rw [onSite_read]
  refine secure_look fun b₁ h₁ => secure_atomic fun b₂ h₂ => ⟨fun _ _ => (mindful w A).refl none b₂, ?_⟩
  cases b₂.site.disk.readJson compiled with
  | error f => exact hfails f _
  | ok plan =>
    rw [lift_ok_bind]
    refine secure_modify fun b₃ h₃ => ⟨fun _ _ _ _ => id, ?_⟩
    unfold generateFrom
    refine secure_atomic fun b₄ h₄ => ⟨fun _ _ _ _ => id, ?_⟩
    dsimp only
    cases g.generate ((Assoc.find? b₄.copies g.name).getD .null) with
    | error f => exact hfails f _
    | ok fragment =>
      rw [lift_ok_bind]
      cases expectMapping fragment with
      | error f => exact hfails f _
      | ok _ =>
        rw [lift_ok_bind, onSite_write]
        refine secure_atomic fun b₅ h₅ => ⟨fun _ _ Y r ht => ?_, ?_⟩
        · exact (ht.always_writeJson (writable_generator hplain) fragment).run
        have hsettled : Settled w A Y r b₅.site := h₅ _ _ (h₄ _ _ (h₃ _ _ (h₂ _ _ (h₁ _ _ h))))
        dsimp only
        cases hwrite : (Session.write (·.writeJson (w.artifactPath g.artifact) fragment)).run b₅.site with
        | mk x σ =>
          cases x with
          | error f => exact hfails f _
          | ok _ =>
            obtain ⟨d, hd, rfl⟩ := Session.of_run_write hwrite
            obtain ⟨hafter, hfiled⟩ := hsettled.writeJson (writable_generator hplain) hd
            have hknown : Settled w A (· = g.artifact) r { b₅.site with disk := d } := hafter.learn fun n hn =>
              .inr (.inl (hn ▸ hfiled))
            rw [lift_ok_bind]
            refine secure_look fun b₆ h₆ b₇ h₇ y hy => ?_
            cases hy
            exact (h₇ _ _ (h₆ _ _ hknown)).known _ rfl

/-- The way in which the generators work: one after another, or their workers take turns in some way. -/
inductive Works (w : Workspace) (gs : List Generator) (limit : Json) (compiled : Path) :
    Session (Assoc String (Attempt Generated)) → Prop
  | inOrder : Works w gs limit compiled (launch compiled w [] (Text.sortOn Generator.name gs))
  | together {leaves : Generator → Json → Json} {turns : Site → Pool String Bench Fault Generated}
      (distinct : (gs.map (·.name)).Nodup)
      (runs : checkLimit limit = .ok () → ∀ σ,
        Pool.Runs (threads limit gs.length) (lineup compiled w leaves gs σ) (turns σ) ∧ (turns σ).Final) :
      Works w gs limit compiled (Action.atomic fun σ => (.ok (turns σ).ended, (turns σ).state.site))

theorem Works.furnishes {work : Session (Assoc String (Attempt Generated))} (hwork : Works w gs limit compiled work)
    (hlimit : checkLimit limit = .ok ()) (hplain : ∀ g ∈ gs, PlainName g.name) : Furnishes w A work := by
  intro r σ h
  have hsorted : ∀ g ∈ Text.sortOn Generator.name gs, PlainName g.name := fun g hg => hplain g (Text.mem_sortOn.1 hg)
  cases hwork with
  | inOrder => exact launch_furnishes hsorted List.nodup_nil (h.learn (by rintro n ⟨_, _, hmem, -⟩; cases hmem))
  | @together leaves turns distinct runs =>
    obtain ⟨hruns, hfinal⟩ := runs hlimit σ
    have hjobs : (jobs compiled w leaves (Text.sortOn Generator.name gs)).map (·.1) =
        (Text.sortOn Generator.name gs).map (·.name) := by
      rw [jobs, List.map_map]
      rfl
    have hnames : ((jobs compiled w leaves (Text.sortOn Generator.name gs)).map (·.1)).Nodup :=
      hjobs ▸ ((Text.sortOn_perm _ gs).map _).nodup_iff.2 distinct
    have hsecure : ∀ j ∈ jobs compiled w leaves (Text.sortOn Generator.name gs), j.2.Secure (mindful w A) j.1
        (fun x b => ∀ y, x = .ok y → Legible w A b.site.disk y.artifact) ⟨σ, []⟩ := fun j hj => by
      obtain ⟨g, hg, rfl⟩ := List.mem_map.1 hj
      exact worker_mindful h (hsorted g hg) compiled
    obtain ⟨-, hallows, hended⟩ := Pool.ended_of_runs
      (Q := fun _ x b => ∀ y, x = .ok y → Legible w A b.site.disk y.artifact) hnames hsecure hruns hfinal
    have hafter : Settled w A (fun _ => False) r (turns σ).state.site := hallows _ _ h
    refine ⟨diligent_of_always (always_atomic h hafter), fun o σ' hrun => ?_⟩
    cases hrun
    refine hafter.learn ?_
    rintro n ⟨name, y, hy, rfl⟩
    exact .inr (hended _ hy y rfl)

/-! ### The whole fan-out -/

/-- What is offered is listed. -/
theorem conclude_diligent (h : Settled w A (Offers outcomes) r σ) :
    Diligent w A (Offers outcomes) (conclude w outcomes) σ := by
  have hsettle : Diligent w A (Offers outcomes) ((Text.sortOn (·.1) outcomes).forM fun e => settle w e.1 e.2) σ := by
    refine diligent_forM (fun e he r' t ht => ?_) h
    obtain ⟨name, o⟩ := e
    cases o with
    | error f => exact diligent_of_always (indifferent_settled.report _ t ht)
    | ok y =>
      have hlist := ht.addArtifact (ht.known _ ⟨name, y, Text.mem_sortOn.1 he, rfl⟩)
      exact hlist.bind fun _ t' hrun => diligent_of_always (indifferent_settled.report _ t' (hlist.of_run hrun))
  refine hsettle.bind fun _ σ' hrun => ?_
  have h' := hsettle.of_run hrun
  dsimp only
  split
  · exact .done h'
  · exact .done h'

/-- The fan-out, with generators that work in the given way. -/
def runBy (w : Workspace) (gs : List Generator) (limit : Json) (compiled : Path)
    (work : Session (Assoc String (Attempt Generated))) : Session (List Generated) :=
  if gs = [] then run w gs limit compiled else announce gs limit >>= fun _ => work >>= conclude w

theorem run_eq_runBy (w : Workspace) (gs : List Generator) (limit : Json) (compiled : Path) :
    run w gs limit compiled = runBy w gs limit compiled (launch compiled w [] (Text.sortOn Generator.name gs)) := by
  unfold runBy
  split
  · rfl
  · exact run_eq ‹_›

/-- The fan-out lists what its workers have left, and what it lists can be read. -/
theorem runBy_diligent {work : Session (Assoc String (Attempt Generated))} (hwork : Works w gs limit compiled work)
    (hplain : ∀ g ∈ gs, PlainName g.name) (h : Settled w A (fun _ => False) r σ) :
    Diligent w A (fun _ => False) (runBy w gs limit compiled work) σ := by
  unfold runBy
  split
  · rename_i hnone
    unfold run
    rw [if_pos (by simp [hnone])]
    exact h.bind (indifferent_settled.report _) fun _ _ _ h' => .done h'.own
  · have hannounce : Upholds (Settled w A (fun _ => False) r) (announce gs limit) :=
      (indifferent_settled.report _).bind fun _ => (keeps_lift _).upholds
    refine h.bind hannounce fun _ σ₁ hrun h₁ => ?_
    have hlimit : checkLimit limit = .ok () := by
      obtain ⟨_, _, -, hlift⟩ := of_run_bind_ok hrun
      exact congrArg Prod.fst hlift
    obtain ⟨hdiligent, hend⟩ := hwork.furnishes hlimit hplain r σ₁ h₁
    exact hdiligent.bind fun o σ₂ hrun₂ => (conclude_diligent (hend o σ₂ hrun₂)).mono nofun

end Fanout

end FlowPlan

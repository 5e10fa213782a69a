import FlowPlan.Proofs.Document.Refusal
import FlowPlan.Proofs.Phases
import FlowPlan.Proofs.Scheduling

/-!
# With what an attempt fails

A command that fails, a generator and everything that the build refuses have a status that says so: it is
not zero. Only a stage, or a check that is a function, can fail with any status, and then it has raised
the fault by itself.

## Main definitions

* `Fault.Tells` — the status of a fault says that something has failed.
* `Action.Blames` — an action ends with faults of a kind only.
* `Builder.Raises` — a stage, or a check that is a function, fails by itself.

## Main statements

* `Pointers.update_yields` — updates of the pointers.
* `Pipeline.run_yields`, `Gate.run_yields`, `Fanout.run_yields` — the phases.
* `Builder.phases_yields` — all phases, with the promotion.
-/

namespace FlowPlan

open FlowPlan.Action Attempt

/-! ## Faults of the build -/

/-- The status of the fault says that something has failed, and its class has a name. -/
def Fault.Tells (f : Fault) : Prop := f.exitStatus ≠ 0 ∧ f.label ≠ ""

theorem Fault.tells_disk (cause : DiskCause) (path : String) (second : Option String) :
    (disk cause path second).Tells := ⟨by simp [exitStatus], cause.label_ne_empty⟩

theorem Fault.tells_misuse (m : Misuse) : (misuse m).Tells := ⟨by simp [exitStatus], m.label_ne_empty⟩

/-- A failure of the build, and one that ends the program, have names. -/
theorem Fault.label_ne_empty {f : Fault} (h : f.isBuildFailure = true ∨ f.isOrdinary = false) : f.label ≠ "" := by
  cases f <;> simp_all [isBuildFailure, isOrdinary, label]

namespace Disk

variable (d : Disk) (p : Path)

theorem refuse_blames {α : Type} (cause : DiskCause) : Blames Fault.Tells (refuse cause p : Attempt α) :=
  blames_error (Fault.tells_disk _ _ _)

theorem checkName_blames (text : String) : Blames Fault.Tells (checkName text) := by
  unfold checkName
  split
  · exact blames_error (Fault.tells_misuse _)
  · exact blames_ok _

theorem address_blames (last : Bool) : Blames Fault.Tells (d.address p last) := by
  refine (checkName_blames _).bind fun _ _ => ?_
  split
  · exact blames_ok _
  · exact refuse_blames p _

theorem ensureDir_blames : Blames Fault.Tells (d.ensureDir p) := by
  unfold ensureDir
  split
  · exact blames_ok _
  · refine (address_blames d p false).bind fun a _ => ?_
    split
    · exact refuse_blames p _
    · exact blames_ok _
    · exact refuse_blames p _

theorem makeDirsUp_blames (n : Nat) : Blames Fault.Tells (d.makeDirsUp n p) := by
  induction n generalizing p with
  | zero => exact ensureDir_blames d p
  | succ n ih =>
    unfold makeDirsUp
    split
    · exact (ih p.parent).bind fun d' _ => ensureDir_blames d' p
    · exact ensureDir_blames d p

theorem replaceWith_blames (source target : Path) (e : Entry) :
    Blames Fault.Tells (d.replaceWith source target e) := by
  refine (checkName_blames _).bind fun _ _ => ?_
  dsimp only
  split
  · rw [pure_bind]
    split
    · exact blames_error (Fault.tells_disk _ _ _)
    · exact blames_ok _
  · exact blames_error (Fault.tells_disk _ _ _)

theorem writeJson_blames (v : Json) : Blames Fault.Tells (d.writeJson p v) :=
  (makeDirsUp_blames d p.parent _).bind fun d' _ => replaceWith_blames d' _ p _

theorem makeLink_blames (target : String) : Blames Fault.Tells (d.makeLink target p) := by
  refine (checkName_blames _).bind fun _ _ => ?_
  split
  · exact blames_error (Fault.tells_disk _ _ _)
  · refine (address_blames d p false).bind fun a _ => ?_
    split
    · exact blames_error (Fault.tells_disk _ _ _)
    · exact blames_ok _

theorem moveLink_blames (source target : Path) : Blames Fault.Tells (d.moveLink source target) := by
  refine (address_blames d source false).bind fun a _ => ?_
  split
  · exact blames_error (Fault.tells_disk _ _ _)
  · exact (replaceWith_blames d source target _).bind fun _ _ => blames_ok _
  · exact blames_error (Fault.tells_disk _ _ _)

theorem unlink_blames : Blames Fault.Tells (d.unlink p) := by
  refine (address_blames d p false).bind fun a _ => ?_
  split
  · exact refuse_blames p _
  · exact blames_ok _
  · exact refuse_blames p _

end Disk

/-! ## Steps of the build -/

section Steps

variable {F : Fault → Prop} (hF : ∀ f, f.Tells → F f)

/-- The action ends with faults of this kind only. -/
abbrev Action.Blames {α : Type} (F : Fault → Prop) (a : Session α) : Prop := Yields F (fun _ => True) a

theorem Action.blames_lift {α : Type} {r : Attempt α} (h : Attempt.Blames F r) :
    Action.Blames F (lift r : Session α) :=
  yields_lift h fun _ _ => trivial

theorem Action.Blames.discard {α : Type} {a : Session α} (h : Action.Blames F a) :
    Action.Blames F (discard a : Session PUnit) :=
  h.bind fun _ _ => yields_pure trivial

namespace Session

theorem blames_read {α : Type} {f : Disk → Attempt α} (h : ∀ d, Attempt.Blames F (f d)) :
    Action.Blames F (read f) :=
  yields_atomic (fun s => h s.disk) fun _ _ _ => trivial

theorem blames_write {f : Disk → Disk.Change} (h : ∀ d, Attempt.Blames F (f d)) :
    Action.Blames F (write f) := by
  refine yields_atomic (fun s e he => h s.disk e ?_) fun _ _ _ => trivial
  cases hd : f s.disk with
  | ok d => simp [hd] at he
  | error g => simpa [hd] using he

theorem blames_report (r : LogRecord) : Action.Blames F (report r) := yields_modify _

end Session

open Session

namespace Pointers

variable (p : Pointers)

include hF in
theorem placeLink_yields (v : Json) (temporary link : Path) : Action.Blames F (placeLink v temporary link) := by
  cases v with
  | str target =>
    exact (blames_write fun d f hf => hF f (Disk.makeLink_blames d _ target f hf)).bind fun _ _ =>
      blames_write fun d f hf => hF f (Disk.moveLink_blames d _ _ f hf)
  | _ => exact yields_fail (hF _ (Fault.tells_misuse _))

include hF in
theorem bindLink_yields (v : Json) (link : Path) : Action.Blames F (bindLink v link) := by
  rw [bindLink_eq]
  refine (blames_read fun d => blames_ok _).bind fun b _ => ?_
  split
  · exact (blames_write fun d f hf => hF f (Disk.unlink_blames d _ f hf)).bind fun _ _ =>
      placeLink_yields hF v _ link
  · exact placeLink_yields hF v _ link

end Pointers

namespace Workspace

variable (w : Workspace)

include hF in
theorem writeJson_yields (p : Path) (v : Json) : Action.Blames F (write (·.writeJson p v)) :=
  blames_write fun d f hf => hF f (Disk.writeJson_blames d p v f hf)

include hF in
theorem addArtifact_yields (n : String) : Action.Blames F (w.addArtifact n) :=
  (yields_modify _).bind fun _ _ => (yields_look _).bind fun _ _ => writeJson_yields hF _ _

include hF in
theorem writeArtifact_yields (n : String) (v : Json) : Action.Blames F (w.writeArtifact n v) :=
  (writeJson_yields hF _ _).bind fun _ _ => (addArtifact_yields hF w n).bind fun _ _ => yields_pure trivial

include hF in
theorem link_yields (n target : String) : Action.Blames F (w.link n target) := by
  have hrest : Action.Blames F (do
      Pointers.bindLink (.str target) (w.artifactPath n)
      w.addArtifact n
      return w.artifactPath n) :=
    (Pointers.bindLink_yields hF (.str target) _).bind fun _ _ =>
      (addArtifact_yields hF w n).bind fun _ _ => yields_pure trivial
  unfold link
  refine (blames_read fun d => blames_ok _).bind fun b _ => ?_
  split
  · exact yields_fail (hF _ (by simp [Fault.Tells, Fault.exitStatus, Fault.label]))
  · exact hrest

end Workspace

/-! ### The pipeline -/

/-- The stage fails like this, and it is a failure of the build or ends the program. -/
def Stage.Raises (s : Stage) (f : Fault) : Prop :=
  (∃ document, s.transform document = .error f) ∧ (f.isBuildFailure = true ∨ f.isOrdinary = false)

namespace Pipeline

variable {w : Workspace} {s : Stage} {stages : List Stage}

theorem order_blames (stages : List Stage) : Attempt.Blames Fault.Tells (order stages) := by
  unfold order
  dsimp only
  split
  · exact blames_error (by simp [Fault.Tells, Fault.exitStatus, Fault.label])
  · exact blames_ok _

theorem check_tells (document : Json) (level : Level) :
    Attempt.Blames Fault.Tells (Document.check document level) := by
  intro f hf
  obtain ⟨text, path, rfl⟩ | ⟨-, v, -, rfl⟩ := Document.check_blames document level f hf
  · simp [Fault.Tells, Fault.exitStatus, Fault.label]
  · exact Fault.tells_misuse _

theorem expect_tells (s : Stage) (role : String) (level : Level) (document : Json) :
    Attempt.Blames Fault.Tells (expect s role level document) := by
  unfold expect
  split
  · exact blames_error (by simp [Fault.Tells, Fault.exitStatus, Fault.label])
  · exact check_tells document level

include hF in
/-- Every other failure goes on in the name of the stage. -/
theorem transform_yields (hs : ∀ f, s.Raises f → F f) (document : Json) :
    Action.Blames F (transform s document) := by
  unfold transform
  cases htransform : s.transform document with
  | ok output =>
    dsimp only
    split
    · exact (blames_report _).bind fun _ _ => yields_pure trivial
    · exact yields_pure trivial
  | error f =>
    dsimp only
    split
    · rename_i hends
      exact yields_fail (hs f ⟨⟨document, htransform⟩, by simpa using hends⟩)
    · exact (blames_report _).bind fun _ _ => yields_fail (hF _ (by simp [Fault.Tells, Fault.exitStatus, Fault.label]))

include hF in
theorem runStage_yields (hs : ∀ f, s.Raises f → F f) (document : Json) :
    Action.Blames F (runStage w document s) := by
  have hexpect : ∀ role level v, Action.Blames F (lift (expect s role level v) : Session Unit) :=
    fun role level v => blames_lift fun f hf => hF f (expect_tells s role level v f hf)
  refine (yields_look _).bind fun start _ => ?_
  refine (blames_report _).bind fun _ _ => (hexpect _ _ _).bind fun _ _ => ?_
  refine (transform_yields hF hs document).bind fun output _ => (hexpect _ _ _).bind fun _ _ => ?_
  refine (Workspace.writeArtifact_yields hF w _ _).discard.bind fun _ _ => ?_
  refine (yields_look _).bind fun ended _ => ?_
  exact (blames_report _).bind fun _ _ => yields_pure trivial

include hF in
theorem runStages_yields (hs : ∀ s ∈ stages, ∀ f, s.Raises f → F f)
    (document : Json) : Action.Blames F (runStages w document stages) := by
  induction stages generalizing document with
  | nil => exact yields_pure trivial
  | cons s stages ih =>
    obtain ⟨hfirst, hrest⟩ := List.forall_mem_cons.1 hs
    exact (runStage_yields hF hfirst document).bind fun x _ => (ih hrest x.1).bind fun _ _ => yields_pure trivial

include hF in
/-- A pipeline ends with a fault that a stage has raised by itself, or with one of the build. -/
theorem run_yields (hs : ∀ s ∈ stages, ∀ f, s.Raises f → F f)
    (document : Json) : Action.Blames F (run w stages document) := by
  have hraw : Action.Blames F (lift (Document.check document .raw) : Session Unit) :=
    blames_lift fun f hf => hF f (check_tells document .raw f hf)
  unfold run
  split
  · rw [fail_bind]
    exact yields_fail (hF _ (by simp [Fault.Tells, Fault.exitStatus, Fault.label]))
  · refine hraw.bind fun _ _ => ?_
    refine (Workspace.writeArtifact_yields hF w _ _).discard.bind fun _ _ => ?_
    refine (runStages_yields hF hs document).bind fun finished _ => ?_
    refine (Workspace.link_yields hF w _ _).discard.bind fun _ _ => ?_
    exact (blames_report _).bind fun _ _ => yields_pure trivial

end Pipeline

/-! ### The gate -/

/-- The status of a command that failed is another one than zero. -/
def Verdict.Tells (v : Verdict) : Prop := v.exitStatus ≠ some 0

namespace Check

theorem start_blames (host : Host) (words : List String) : Action.Blames Fault.Tells (start host words) := by
  refine yields_atomic (fun s f hf => ?_) fun _ _ _ => trivial
  split at hf
  · rename_i g hg
    cases hf
    exact blames_forM (fun word _ => Disk.checkName_blames word) _ hg
  · split at hf <;> cases hf

theorem commandVerdict_yields (name command : String) (p : Process) :
    Yields Fault.Tells Verdict.Tells (lift (commandVerdict name command p) : Session Verdict) := by
  have hdecode : ∀ os : Octets, Attempt.Blames Fault.Tells
      ((Text.decode os).mapError fun broken => Fault.undecodable broken.text) := by
    intro os f hf
    cases hos : Text.decode os with
    | ok cs => simp [hos, Except.mapError] at hf
    | error broken =>
      simp only [hos, Except.mapError, Except.error.injEq] at hf
      simp [← hf, Fault.Tells, Fault.exitStatus, Fault.label]
  refine yields_lift ((hdecode _).bind fun output _ => (hdecode _).bind fun errors _ => ?_) fun v hv => ?_
  · split
    · exact blames_ok _
    · exact blames_ok _
  · obtain ⟨output, -, hv⟩ := Attempt.bind_eq_ok.1 hv
    obtain ⟨errors, -, hv⟩ := Attempt.bind_eq_ok.1 hv
    split at hv
    · cases hv
      simp [Verdict.Tells]
    · rename_i hending
      cases hv
      -- A number of a signal is counted from 128 on.
      cases hp : p.ending with
      | exited n => simpa [Verdict.Tells, statusOf, hp] using hending
      | killed n =>
        suffices (128 : Int) + n ≠ 0 by simpa [Verdict.Tells, statusOf, hp] using this
        omega

include hF in
theorem evaluateCommand_yields (host : Host) (name : String) (words : List String) (artifact : Option Path) :
    Yields F Verdict.Tells (evaluateCommand host name words artifact) := by
  unfold evaluateCommand
  cases artifact with
  | none => exact yields_pure (by simp [Verdict.Tells])
  | some path =>
    refine (blames_report _).bind fun _ _ => (Yields.mono (start_blames host _) hF fun _ => id).bind fun r _ => ?_
    split
    · exact (commandVerdict_yields _ _ _).mono hF fun _ => id
    · exact yields_pure (by simp [Verdict.Tells])

/-- The check is a function that ends the program. -/
def Raises (c : Check) (f : Fault) : Prop :=
  ∃ examine subject, c.judge = .function examine ∧ (examine subject).1 = .error f ∧ f.isOrdinary = false

include hF in
theorem evaluate_yields {c : Check} (hc : ∀ f, c.Raises f → F f) (host : Host) (subject : Json)
    (artifact : Option Path) : Yields F (fun x => x.1.Tells) (c.evaluate host subject artifact) := by
  unfold evaluate
  cases hjudge : c.judge with
  | command words => exact (evaluateCommand_yields hF host c.name words artifact).bind fun v hv => yields_pure hv
  | function examine =>
    have hfunction : Yields F Verdict.Tells (evaluateFunction c.name (examine subject).1) := by
      unfold evaluateFunction
      split
      · exact yields_pure (by simp [Verdict.Tells])
      · rename_i f hf
        dsimp only
        split
        · rename_i hends
          exact yields_fail (hc f ⟨examine, subject, hjudge, hf, by simpa using hends⟩)
        · exact (blames_report _).bind fun _ _ => yields_pure (by simp [Verdict.Tells])
    exact hfunction.bind fun v hv => yields_pure hv

end Check

namespace Gate

variable {checks : List Check}

include hF in
theorem runChecks_yields (hc : ∀ c ∈ checks, ∀ f, c.Raises f → F f) (host : Host) (phase subject : Json)
    (artifact : Option Path) :
    Yields F (fun vs => ∀ v ∈ vs, v.Tells) (runChecks host phase artifact subject checks) := by
  induction checks generalizing subject with
  | nil => exact yields_pure (by simp)
  | cons c checks ih =>
    obtain ⟨hfirst, hrest⟩ := List.forall_mem_cons.1 hc
    refine (Check.evaluate_yields hF hfirst host subject artifact).bind fun x hx => ?_
    have hreport : Action.Blames F (report phase x.1) := by
      unfold report
      split
      · exact blames_report _
      · exact yields_forM fun _ _ => blames_report _
    exact hreport.bind fun _ _ => (ih hrest x.2).bind fun vs hvs =>
      yields_pure (List.forall_mem_cons.2 ⟨hx, hvs⟩)

theorem fault?_tells {phase : Json} {verdicts : List Verdict} (h : ∀ v ∈ verdicts, v.Tells) {f : Fault}
    (hf : fault? phase verdicts = some f) : f.Tells := by
  unfold fault? at hf
  split at hf
  · cases hf
  · rename_i v rest hfailed
    cases hf
    have hv : v.Tells := h v (List.mem_filter.1 (hfailed ▸ List.mem_cons_self)).1
    unfold Verdict.Tells at hv
    cases hstatus : v.exitStatus <;> simp_all [Fault.Tells, Fault.exitStatus, Fault.label]

include hF in
/-- A gate ends with a fault that a function has ended the program with, or with one of the build. -/
theorem run_yields (hc : ∀ c ∈ checks, ∀ f, c.Raises f → F f) (host : Host) (phase subject : Json)
    (artifact : Option Path) : Action.Blames F (run host checks phase subject artifact) := by
  have hmem : ∀ c ∈ checksOf phase checks, c ∈ checks := fun c h =>
    Text.mem_sortOn.1 (List.mem_filter.1 h).1
  refine (runChecks_yields hF (fun c h => hc c (hmem c h)) host phase subject artifact).bind fun vs hvs => ?_
  split
  · rename_i f hf
    exact yields_fail (hF f (fault?_tells hvs hf))
  · exact yields_pure trivial

end Gate

/-! ### The fan-out -/

namespace Fanout

theorem checkLimit_blames (limit : Json) : Attempt.Blames Fault.Tells (checkLimit limit) := by
  unfold checkLimit
  split
  · exact blames_ok _
  · split
    · exact blames_error (Fault.tells_misuse _)
    · split
      · exact blames_error (Fault.tells_misuse _)
      · exact blames_ok _

/-- No failure of a generator leaves its worker. -/
theorem launch_yields (compiled : Path) (w : Workspace) (gs : List Generator)
    (outcomes : Assoc String (Attempt Generated)) : Action.Blames F (launch compiled w outcomes gs) := by
  induction gs generalizing outcomes with
  | nil => exact yields_pure trivial
  | cons g gs ih => exact (yields_true _).outcome.bind fun r _ => ih _

include hF in
theorem announce_yields (gs : List Generator) (limit : Json) : Action.Blames F (announce gs limit) :=
  (blames_report _).bind fun _ _ => blames_lift fun f hf => hF f (checkLimit_blames limit f hf)

include hF in
theorem conclude_yields (w : Workspace) (outcomes : Assoc String (Attempt Generated)) :
    Action.Blames F (conclude w outcomes) := by
  refine Yields.bind (R := fun _ => True) (yields_forM fun x _ => ?_) fun _ _ => ?_
  · cases x.2 with
    | ok r => exact (Workspace.addArtifact_yields hF w _).bind fun _ _ => blames_report _
    | error f => exact blames_report _
  · dsimp only
    split
    · exact yields_pure trivial
    · exact yields_fail (hF _ (by simp [Fault.Tells, Fault.exitStatus, Fault.label]))

include hF in
/-- Whatever the generators fail with, the fan-out fails in its own name. -/
theorem run_yields (w : Workspace) (gs : List Generator) (limit : Json) (compiled : Path) :
    Action.Blames F (run w gs limit compiled) := by
  by_cases hne : gs = []
  · unfold run
    rw [if_pos (by simp [hne])]
    exact (blames_report _).bind fun _ _ => yields_pure trivial
  · rw [run_eq hne]
    refine (announce_yields hF gs limit).bind fun _ _ => ?_
    exact (launch_yields compiled w _ []).bind fun outcomes _ => conclude_yields hF w outcomes

end Fanout

end Steps

/-! ## Phases -/

namespace Builder

variable {b : Builder}

/-- A stage of the build, or a check that is a function, fails like this by itself. -/
inductive Raises (b : Builder) (f : Fault) : Prop
  | stage {stages : List Stage} {s : Stage}
      (units : b.catalogs.stages.units b.settings.disabledStages = .ok stages) (mem : s ∈ stages)
      (raises : s.Raises f)
  | check {checks : List Check} {c : Check} (units : b.checks = .ok checks) (mem : c ∈ checks)
      (raises : c.Raises f)

/-- What the phases up to the promotion may fail with. -/
def Blamed (b : Builder) (f : Fault) : Prop := (f.exitStatus ≠ 0 ∨ b.Raises f) ∧ f.label ≠ ""

end Builder

end FlowPlan

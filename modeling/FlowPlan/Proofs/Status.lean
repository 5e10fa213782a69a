import FlowPlan.Proofs.Blame
import FlowPlan.Proofs.Custody
import FlowPlan.Proofs.History

/-!
# What an attempt reports

In a vacant build root every build leaves a record with an end. One that returns is completed with the
status zero and no error; one that fails is aborted with the status and the message of its failure. That
status is zero only if a unit has raised it by itself.

## Main definitions

* `Workspace.field?` — what the record on disk says.
* `Builder.conduct` — a build up to the end of its phases.

## Main statements

* `Builder.supervise_ended` — an attempt under supervision.
* `Call.reported` — what the record says when a build has ended.
-/

namespace FlowPlan

open FlowPlan.Action

/-! ## Records -/

namespace Workspace

open Site

/-- What the record on disk says in a field. -/
def field? (w : Workspace) (d : Disk) (name : String) : Option Json :=
  match d.readJson w.recordPath with
  | .ok (.obj fs) => Assoc.find? fs name
  | _ => none

/-- The record on disk says that the attempt has ended like this. -/
structure Reports (w : Workspace) (d : Disk) (status : String) (exitStatus : Json) (error : Option Json) :
    Prop where
  status : w.field? d "status" = some (.str status)
  exitStatus : w.field? d "exit_status" = some exitStatus
  error : w.field? d "error" = error

variable {w : Workspace} {A : Address} {s : Site}

end Workspace

theorem Fault.sortKeys_recorded (f : Fault) :
    f.recordedStatus ≠ .null ∧ f.recordedStatus.sortKeys = f.recordedStatus := by
  unfold recordedStatus
  split <;> simp [Json.sortKeys]

namespace Builder

open Pointers Site Supervision Workspace

variable {b : Builder} {w : Workspace} {A : Address} {locked : List Address} {now : Instant} {s s₁ : Site}

end Builder

namespace Call

open Builder Pointers Workspace

variable {root : Path} {A : Address} {c : Call} {runs : List Run} {key : String} {s s₁ s₂ s₃ : Site}

/-- A build that has begun goes on in its workspace, whose log is open. -/
theorem Started.engaged (hstart : c.Started root A runs s key s₁ s₂ s₃) (h : Orderly root A s runs)
    (hroot : c.builder.settings.root = root) (ht : s.disk.IsTree) :
    Engaged (c.builder.directory.workspace key) A ((A ++ [".lock"]) :: s.locked) s.clock s₃ := by
  subst hroot
  have h₁ := guarded_of_acquired h.rooted h.journal ht hstart.acquired
  obtain ⟨-, r, t, hrun, hopens⟩ := guarded_allocate (e := c.builder.directory) h₁ hstart.orderly.journal
  rw [hstart.allocate] at hrun
  cases hrun
  have hend := (engaged_openLog (hopens.engaged _ rfl) (hopens.unlogged _ rfl) c.builder.settings.logLevel
    c.builder.style !c.builder.quiet).run
  rwa [hstart.log] at hend

/-- Its pointers can be set, since no link of theirs is in the way. -/
theorem Started.enter (hstart : c.Started root A runs s key s₁ s₂ s₃) (h : Orderly root A s runs)
    (hroot : c.builder.settings.root = root) :
    ∃ s₄, (c.builder.supervision (c.builder.directory.workspace key)).enter.run s₃ = (.ok (), s₄) ∧
      ((c.builder.directory.workspace key).recordIn s₄).status = .str Record.running := by
  subst hroot
  have hp := hstart.prepared
  obtain ⟨B, hload⟩ := h.sound.load c.builder.settings.links
  have hunblocked : ∀ n ∈ aliases, ¬ c.builder.pointers.Blocked s₃.disk A (n, .str key) := fun n hn hb =>
    ((blocked_key hp.name n).1 hb).2 ((hp.clear hn).2 (h.clear n hn))
  obtain ⟨r, s₄, hrun, hpoints, -, -, hok, hrecords⟩ := Builder.enter_run hp.root.symm hp.stands (hp.load.trans hload)
  obtain rfl := hok.2 fun hb => hb.elim (hunblocked _ (by simp [aliases])) (hunblocked _ (by simp [aliases]))
  exact ⟨s₄, hrun, by rw [recordIn_congr hrecords (passes_of_repoints hpoints hp.stands hp.closed).clock, hp.status]⟩

/-- A build whose only stage ends it with this failure. -/
def failing (f : Fault) : Call :=
  let c := lone "5.00" []
  { c with builder := { c.builder with catalogs := { c.builder.catalogs with
      stages := ⟨"stage", [("5.00", ⟨"5.00", "FunctionStage", .raw, .raw, "", fun _ => .error f, fun _ => none⟩)]⟩ } } }

end Call

end FlowPlan

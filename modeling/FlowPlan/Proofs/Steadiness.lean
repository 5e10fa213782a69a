import FlowPlan.Proofs.Atomicity
import FlowPlan.Proofs.Sound
import FlowPlan.Proofs.Survival

/-!
# What keeps a build root calm

Taking the lock, the allocation, the log, the beginning and the end of an attempt and everything up to
the promotion leave the build root calm at every moment. Only the promotion does not.

## Main definitions

* `Builder.Amid` — an attempt is going on in a sound build root.
* `Builder.Steady` — an action that keeps the build root calm.

## Main statements

* `Builder.acquire_always`, `Builder.allocate_always`, `Builder.openLog_always` — up to the attempt.
* `Builder.steady_enter`, `Builder.steady_judged` — up to the promotion.
* `Builder.steady_complete`, `Builder.steady_abort` — the two ends, as all that survives them.
-/

namespace FlowPlan.Builder

open FlowPlan.Action Site Pointers Workspace

/-- An attempt is going on in a sound build root. -/
structure Amid (w : Workspace) (A : Address) (s : Site) : Prop where
  stands : Stands w A s
  sound : Sound w.root A s.disk

/-- Begun in the middle of an attempt, the action keeps the build root calm at every moment. -/
def Steady (w : Workspace) (A : Address) {α : Type} (a : Session α) : Prop :=
  ∀ s, Amid w A s → Always (fun t => Amid w A t ∧ Calm w.root A s.disk t.disk) a s

variable {w : Workspace} {A : Address} {s t : Site} {α β : Type} {a : Session α} {f : α → Session β}

theorem Amid.refl (h : Amid w A s) : Amid w A s ∧ Calm w.root A s.disk s.disk := ⟨h, h.sound.calm_refl⟩

theorem Amid.of_passes (h : Amid w A s) (hpass : Passes w A s t)
    (hstore : t.disk.find? (A ++ [storeName]) = s.disk.find? (A ++ [storeName])) :
    Amid w A t ∧ Calm w.root A s.disk t.disk := by
  have hstands := hpass.stands h.stands
  have hbound : Pointers.bound ⟨w.root, true⟩ t.disk = Pointers.bound ⟨w.root, true⟩ s.disk :=
    Supervision.bound_congr (h.sound.load_eq hstands.ready.rooted hstore true)
  have hsound := h.sound.of_passes rfl hpass (hstore ▸ h.sound.store) (hbound ▸ h.sound.named)
  exact ⟨⟨hstands, hsound⟩, hsound, fun n _ => congrFun hbound n⟩

/-- The bindings have changed, and the compiled key is that of a workspace. -/
theorem Amid.of_named (h : Amid w A s) {links : Bool} {g : String → Option Json}
    (ht : Holds ⟨w.root, links⟩ A s g t)
    (hnamed : ∀ v, g compiled = some v →
      ∃ k, v = .str k ∧ Key.IsKeyName k ∧ s.disk.find? (A ++ [k]) = some .dir) : Amid w A t := by
  have hpass := passes_of_repoints ht.repoints h.stands h.sound.closed
  refine ⟨hpass.stands h.stands, h.sound.of_passes rfl hpass (fun e he => ?_) fun v hv => ?_⟩
  · obtain ⟨fs, hfs⟩ := ht.stored
    rw [hfs] at he
    cases he
    exact ⟨fs, rfl⟩
  · exact hnamed v ((congrFun ht.bound compiled).symm.trans hv)

/-- The bindings have changed, but not the compiled key and its backup. -/
theorem Amid.of_holds (h : Amid w A s) {links : Bool} {g : String → Option Json}
    (ht : Holds ⟨w.root, links⟩ A s g t)
    (hg : ∀ n ∈ [compiled, compiledBackup], g n = Pointers.bound ⟨w.root, links⟩ s.disk n) :
    Amid w A t ∧ Calm w.root A s.disk t.disk := by
  have hamid := h.of_named ht fun v hv => h.sound.named v ((hg compiled (by simp)).symm.trans hv)
  exact ⟨hamid, hamid.sound, fun n hn => (congrFun ht.bound n).trans (hg n hn)⟩

/-! ## Steady actions -/

/-- Calm adds up, so it may as well be counted from any moment before. -/
theorem steady_iff :
    Steady w A a ↔ ∀ d₀, Upholds (fun t : Site => Amid w A t ∧ Calm w.root A d₀ t.disk) a :=
  ⟨fun h _ s hs => (h s hs.1).mono fun _ ht => ⟨ht.1, hs.2.trans ht.2⟩,
    fun h s hs => h s.disk s hs.refl⟩

theorem Steady.bind (ha : Steady w A a) (hf : ∀ x, Steady w A (f x)) : Steady w A (a >>= f) :=
  steady_iff.2 fun d₀ => (steady_iff.1 ha d₀).bind fun x => steady_iff.1 (hf x) d₀

theorem steady_of_keeps
    (h : ∀ s : Site, Keeps (fun t : Site => t.disk = s.disk ∧ t.journal = s.journal) a) :
    Steady w A a := fun s hs => by
  refine ((h s).always ⟨rfl, rfl⟩).mono fun t ⟨hdisk, hjournal⟩ => ?_
  have hlog : ∀ c, t.IsLog c ↔ s.IsLog c := fun c => by rw [IsLog, IsLog, hjournal]
  rw [hdisk]
  refine ⟨⟨⟨⟨?_, fun c hc => hs.stands.ready.log c ((hlog c).1 hc)⟩, hs.stands.name, ?_, ?_⟩,
    hdisk ▸ hs.sound⟩,
    hs.sound.calm_refl⟩
  · exact hdisk ▸ hs.stands.ready.rooted
  · exact hdisk ▸ hs.stands.dir
  · exact hdisk ▸ hs.stands.record

theorem steady_done (r : Except Fault α) : Steady w A (Action.done r) := steady_of_keeps fun _ => trivial

theorem steady_pure (x : α) : Steady w A (pure x : Session α) := steady_done _

/-- What stays within the workspace is steady. -/
theorem steady_of_stays (h : Stays w A a) : Steady w A a := fun s hs =>
  ((h s).always ⟨hs.stands, .refl hs.stands hs.sound.closed⟩).mono fun _ ht =>
    hs.of_passes ht.2.passes (ht.2.own _)

theorem steady_report (r : LogRecord) : Steady w A (Session.report r) := steady_of_stays (stays_report r)

theorem steady_changeRecord (f : Instant → Record → Record) : Steady w A (w.changeRecord f) :=
  steady_of_keeps fun _ => keeps_modify fun _ ht => ht

theorem steady_setRecord (r : Record) : Steady w A (w.setRecord r) :=
  steady_of_keeps fun _ => keeps_modify fun _ ht => ht

theorem steady_saveRecord : Steady w A w.saveRecord :=
  steady_of_stays fun s₀ => (keeps_look _).bind fun _ => stays_writeJson isName_recordName.1 _ s₀

theorem foldl_rebound_of_ne {g : String → Option Json} {changes : Bindings} {n : String}
    (h : ∀ c ∈ changes, c.1 ≠ n) : changes.foldl rebound g n = g n := by
  induction changes generalizing g with
  | nil => rfl
  | cons change changes ih =>
    rw [List.foldl_cons, ih fun c hc => h c (List.mem_cons_of_mem change hc)]
    exact rebound_of_ne g (h change List.mem_cons_self) _

/-- So is an update of the other aliases. -/
theorem steady_update (links : Bool) (changes : Bindings)
    (h : ∀ c ∈ changes, c.1 ∈ [latest, running, aborted]) :
    Steady w A (Pointers.update ⟨w.root, links⟩ changes) := by
  intro s hs
  obtain ⟨B, hload⟩ := hs.sound.load links
  have hal : ∀ n ∈ [latest, running, aborted], n ∈ aliases ∧ n ≠ compiled ∧ n ≠ compiledBackup := by
    decide
  refine (update_turns (p := ⟨w.root, links⟩) hs.stands.ready hs.sound.clear hload changes fun c hc =>
    (hal _ (h c hc)).1).always ?_ fun t ht => hs.of_holds ht fun n hn => ?_
  · rintro t rfl
    exact hs.refl
  · refine foldl_rebound_of_ne fun c hc => ?_
    simp only [List.mem_cons, List.not_mem_nil, or_false] at hn
    rcases hn with rfl | rfl
    · exact (hal _ (h c hc)).2.1
    · exact (hal _ (h c hc)).2.2

/-! ## Attempts -/

variable {b : Builder}

section Attempt

variable (hroot : b.directory.root = w.root)
include hroot

theorem pointers_eq : b.directory.pointers = ⟨w.root, b.settings.links⟩ := by
  rw [← hroot]
  rfl

/-- An attempt stays calm through its beginning and its ends. -/
theorem survives_amid (d₀ : Disk) :
    (b.supervision w).Survives fun t => Amid w A t ∧ Calm w.root A d₀ t.disk where
  report r := steady_iff.1 (steady_report r) d₀
  changeRecord f := steady_iff.1 (steady_changeRecord f) d₀
  saveRecord := steady_iff.1 steady_saveRecord d₀
  excerpt f := by
    have hkeeps : Steady w A (Action.modify fun s : Site => { s with excerpt := f s } : Session Unit) :=
      steady_of_keeps fun _ => keeps_modify fun _ ht => ht
    exact steady_iff.1 hkeeps d₀
  update changes h := by
    rw [show (b.supervision w).directory.pointers = _ from pointers_eq hroot]
    exact steady_iff.1 (steady_update _ changes h) d₀

theorem steady_enter : Steady w A (b.supervision w).enter :=
  steady_iff.2 fun d₀ => (survives_amid hroot d₀).enter

theorem steady_complete : Steady w A (b.supervision w).complete :=
  steady_iff.2 fun d₀ => (survives_amid hroot d₀).complete

theorem steady_abort (f : Fault) : Steady w A ((b.supervision w).abort f) :=
  steady_iff.2 fun d₀ => (survives_amid hroot d₀).abort f

theorem steady_judged (hd : b.Discreet A) (document : Json) : Steady w A (b.judged document w) :=
  steady_of_stays (stays_judged hroot.symm hd document)

end Attempt

/-! ## Up to the attempt -/

section Opening

variable {root : Path} {P : Site → Prop}

theorem acquire_always (h : Sound root A s.disk) (wait : Bool) :
    Always (fun t => Calm root A s.disk t.disk) (Lock.acquire (Lock.path root) wait) s := by
  have hcalm := h.calm_refl
  have htouched : ∀ d, s.disk.touch (Lock.path root) = .ok d → Disk.Wrote (A ++ [".lock"]) s.disk d := by
    intro d hd
    obtain ⟨a, haddress, hwrote, -⟩ := Disk.of_touch hd h.lock_ne_link
    have hlocate := Disk.of_address haddress
    rw [h.locate_lock] at hlocate
    cases hlocate
    exact hwrote
  rw [Lock.acquire_eq]
  refine (Session.always_makeDirs h.rooted hcalm).bind_ok (Session.makeDirs_run h.rooted) ?_
  refine (Session.always_write hcalm fun d hd => h.calm_lock (htouched d hd)).bind fun _ s₁ hrun₁ => ?_
  obtain ⟨d, hd, rfl⟩ := Session.of_run_write hrun₁
  have hwrote := htouched d hd
  have hcalm₁ := h.calm_lock hwrote
  have hread : Always (fun t => Calm root A s.disk t.disk) (Session.read (·.address (Lock.path root)))
      { s with disk := d } := (Session.keeps_read _).always hcalm₁
  refine hread.bind fun a s₂ hrun₂ => ?_
  obtain ⟨haddress, rfl⟩ := Prod.mk.inj hrun₂
  have hlocate := Disk.of_address haddress
  rw [hcalm₁.sound.locate_lock] at hlocate
  cases hlocate
  have hmarked : Disk.Wrote (A ++ [".lock"]) d (d.set (A ++ [".lock"]) (.file (.text "held\n"))) := by
    obtain ⟨c, hc⟩ := hwrote.file
    exact Disk.wrote_set hwrote.ne_nil (fun e he => hcalm₁.sound.lock e he) (by simp [hc]) _
  have htake : Always (fun t => Calm root A s.disk t.disk) (Lock.take (Lock.path root) wait (A ++ [".lock"]))
      { s with disk := d } := by
    refine ⟨hcalm₁, ?_⟩
    simp only [Always]
    split
    · exact hcalm₁
    · exact h.calm_lock (hwrote.trans hmarked)
  exact htake.bind_pure _

theorem allocate_always {e : BuildDir} (h : Sound e.root A s.disk) (hj : s.journal.file = none) :
    Always (fun t => Calm e.root A s.disk t.disk) e.allocate s := by
  have hcalm := h.calm_refl
  have hready : Ready e.root A s := ready_of_journal h.rooted hj
  have hget := get_always e.pointers latest s
  unfold BuildDir.allocate
  refine (Session.always_makeDirs h.rooted hcalm).bind_ok (Session.makeDirs_run h.rooted) ?_
  refine (hget.mono ?_).bind fun v s' hrun => ?_
  · rintro t rfl
    exact hcalm
  have hend := hget.run
  rw [hrun] at hend
  obtain rfl : s' = s := hend
  have hlift : Always (fun t => Calm e.root A s'.disk t.disk)
      (Action.lift (BuildDir.latestKey v) : Session (Option String)) s' := hcalm
  refine hlift.bind fun l s'' hlatest => ?_
  obtain rfl : s' = s'' := congrArg Prod.snd hlatest
  rcases BuildDir.claim_run h.rooted l with ⟨-, hclaim⟩ | ⟨key, -, hname, hnone, hclaim⟩
  · refine Always.bind_error (always_atomic hcalm ?_) hclaim
    exact (congrArg (·.2.disk) hclaim) ▸ hcalm
  · have hmade := h.calm_claim hname hnone
    refine Always.bind_ok (always_atomic hcalm ?_) hclaim ?_
    · have hdisk := congrArg (·.2.disk) hclaim
      exact hdisk ▸ hmade
    -- The rest stays within the new workspace.
    have hamid : Amid (e.workspace key) A { s' with disk := s'.disk.set (A ++ [key]) .dir } :=
      ⟨BuildDir.stands_claim hready h.closed hname hnone s'.records, hmade.sound⟩
    have hrest : Steady (e.workspace key) A (do
        (e.workspace key).setRecord (Record.start key (← Session.now))
        (e.workspace key).saveRecord
        Session.debug Pointers.logger s!"Allocated workspace {key}"
        return e.workspace key) :=
      (steady_of_keeps fun _ => keeps_look _).bind fun _ =>
        (steady_setRecord _).bind fun _ => steady_saveRecord.bind fun _ =>
          (steady_report _).bind fun _ => steady_pure _
    exact (hrest _ hamid).mono fun t ht => hmade.trans ht.2

theorem openLog_always (h : Amid w A s) (hnone : s.disk.find? (A ++ [w.key] ++ [logName]) = none)
    (severity : String) (style : LogStyle) (console : Bool) :
    Always (fun t => Calm w.root A s.disk t.disk) (Session.openLog w.logPath severity style console) s := by
  have hcalm := h.sound.calm_refl
  have htouch := h.stands.rooted.touch isName_logName.1 isName_logName.2 hnone
  have hlog := h.sound.calm_file h.stands.dir (n := logName) (.text "")
  have hparent : w.logPath.parent = w.path := Path.parent_child w.path isName_logName.1
  unfold Session.openLog
  rw [hparent]
  refine (Session.always_makeDirs h.stands.rooted hcalm).bind_ok (Session.makeDirs_run h.stands.rooted) ?_
  cases Session.thresholdOf (Text.upper severity) with
  | error f => exact hcalm
  | ok threshold =>
    rw [Action.lift_ok_bind]
    refine Always.bind ⟨hcalm, hcalm⟩ fun _ s₁ hrun₁ => ?_
    obtain rfl : _ = s₁ := congrArg Prod.snd hrun₁
    refine Always.bind (Session.always_write hcalm fun d hd => ?_) fun _ s₂ hrun₂ => ?_
    · cases htouch.symm.trans hd
      exact hlog
    obtain ⟨d, hd, rfl⟩ := Session.of_run_write hrun₂
    cases htouch.symm.trans hd
    refine Always.bind ⟨hlog, hlog⟩ fun a s₃ hrun₃ => ?_
    obtain rfl : _ = s₃ := congrArg Prod.snd hrun₃
    exact ⟨hlog, hlog⟩

end Opening

end FlowPlan.Builder

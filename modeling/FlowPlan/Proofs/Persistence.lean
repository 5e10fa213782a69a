import FlowPlan.Proofs.Blame
import FlowPlan.Proofs.Filing
import FlowPlan.Proofs.Operations
import FlowPlan.Proofs.Status
import FlowPlan.Proofs.Threading

/-!
# The record on disk is never behind

From the allocation of a workspace to the end of its supervision the record on disk is the one that is held:
behind the allocation, behind every operation of the workspace, and at the end. What the record lists can be
read at every moment. It does not matter in which order the generators work, which of the units fails, or
where a failure strikes the attempt, as long as the failure says something. Names are plain here: with a
slash in its name a unit leads elsewhere, to the link of the compiled plan or through that of the running
attempt, and what it leaves there may be lost.

## Main definitions

* `Supervision.settleFailure` — what follows the report of a failure.
* `Workspace.compiling` — what is attempted in a workspace.

## Main statements

* `BuildDir.settled_of_allocate` — an allocation leaves a workspace whose record is on disk.
* `Supervision.supervise_diligent`, `Supervision.supervise_struck` — under supervision an attempt keeps the
  record, also if a failure strikes it.
* `Supervision.abort_holds` — the error of a failure is held and written, whatever it says.
* `Supervision.supervise_accurate` — all together.
-/

namespace FlowPlan

open FlowPlan.Action Site Pointers Workspace

namespace Supervision

variable {v : Supervision} {A : Address} {Y : String → Prop} {I : Site → Prop} {r : Record} {s s' : Site} {α : Type}

/-- An end is written to the record. -/
theorem finish_saves (h : Tidy v.workspace A Y s) (status : String) {exitStatus error : Json}
    (hexit : exitStatus.sortKeys = exitStatus) (herror : error = .null ∨ ∃ t, t ≠ "" ∧ error = .str t)
    {g : Unit → Session α} (hg : ∀ r t, Settled v.workspace A Y r t → Diligent v.workspace A Y (g ()) t) :
    Saves v.workspace A Y
      (v.workspace.finish (.str status) exitStatus error >>= fun _ => v.workspace.saveRecord >>= g) s :=
  h.saves List.prefix_rfl (h.plain.finish h.clock status hexit herror) h.listed hg

/-- What follows the report of a failure. -/
def settleFailure (v : Supervision) (f : Fault) : Session Unit := do
  match ← Action.outcome (v.recordFailure f) with
  | .ok () => pure ()
  | .error g =>
    Session.error logger s!"Could not record aborted workspace {v.workspace.key}: {g.message}"
      "bookkeeping_failed"
  if v.quiet then v.reportFailure

theorem abort_eq (v : Supervision) (f : Fault) : v.abort f =
    Session.error logger s!"Build aborted: {f.message}" "build_aborted" none (some (abortion f))
      (if f.isBuildFailure then none else some f) >>= fun _ => v.settleFailure f := rfl

section Ends

variable (hroot : v.directory.root = v.workspace.root)
include hroot

theorem upholds_update (hI : Indifferent v.workspace.root A I) {changes : Bindings}
    (hal : ∀ c ∈ changes, c.1 ∈ aliases) : Upholds I (v.directory.pointers.update changes) := by
  have hupdate := hI.update v.directory.links changes hal
  rwa [← hroot] at hupdate

theorem upholds_removeRunning (hI : Indifferent v.workspace.root A I) :
    Upholds I (discard (v.directory.pointers.removeIf running v.key) : Session Unit) :=
  (upholds_removeIf (upholds_update hroot hI (by simp [aliases])) _).discard

/-- The pointers are told of a failure. -/
theorem upholds_bindAborted (hI : Indifferent v.workspace.root A I) : Upholds I (do
    v.directory.pointers.set Pointers.aborted v.key
    discard (v.directory.pointers.removeIf running v.key) : Session Unit) :=
  (upholds_update hroot hI (by simp [aliases])).discard.bind fun _ => upholds_removeRunning hroot hI

omit hroot in
/-- What follows the recording of a failure. -/
theorem upholds_reported (hI : Indifferent v.workspace.root A I) (o : Except Fault Unit) : Upholds I (do
    match o with
    | .ok () => pure ()
    | .error g =>
      Session.error logger s!"Could not record aborted workspace {v.workspace.key}: {g.message}"
        "bookkeeping_failed"
    if v.quiet then v.reportFailure : Session Unit) := by
  have hreport : Upholds I (if v.quiet then v.reportFailure else pure ()) := by
    refine upholds_ite (fun _ => (upholds_read _).bind fun _ => (keeps_modify fun t ht => ?_).upholds)
      fun _ => upholds_pure _
    exact hI.log t _ ht ⟨rfl, rfl, rfl, rfl, rfl, fun _ _ => .inl rfl⟩
  cases o with
  | ok _ => exact hreport
  | error g => exact (hI.report _).bind fun _ => hreport

theorem upholds_enter : Upholds (Settled v.workspace A Y r) v.enter :=
  (upholds_update hroot indifferent_settled (by simp [aliases])).discard.bind fun _ => indifferent_settled.report _

theorem complete_diligent (h : Settled v.workspace A Y r s) : Diligent v.workspace A Y v.complete s := by
  have hrest : ∀ r t, Settled v.workspace A Y r t → Diligent v.workspace A Y (do
      discard (v.directory.pointers.removeIf running v.key)
      Session.info logger s!"Build completed in workspace {v.workspace.key}" "build_completed" : Session Unit) t :=
    fun r t ht => diligent_of_always
      (((upholds_removeRunning hroot indifferent_settled).bind fun _ => indifferent_settled.report _) t ht)
  unfold complete completeRecord
  rw [bind_assoc]
  refine h.bind (keeps_look _).upholds fun held s₁ _ h₁ => ?_
  split
  · exact (finish_saves h₁.toTidy Record.completed rfl (.inl rfl) hrest).diligent h₁
  · rw [pure_bind]
    exact h₁.bind (fun t ht => ht.always_saveRecord) fun _ s₂ _ h₂ => hrest r s₂ h₂

theorem settleFailure_saves (h : Tidy v.workspace A Y s) {f : Fault} (hf : f.describe ≠ "") :
    Saves v.workspace A Y (v.settleFailure f) s := by
  have hfailure : Saves v.workspace A Y (v.recordFailure f) s :=
    finish_saves h Record.aborted (Fault.sortKeys_recorded f).2 (.inr ⟨_, hf, rfl⟩) fun _ t ht =>
      diligent_of_always (upholds_bindAborted hroot indifferent_settled t ht)
  exact hfailure.outcome.bind fun o t _ ht => diligent_of_always (upholds_reported indifferent_settled o t ht)

theorem abort_diligent (h : Settled v.workspace A Y r s) {f : Fault} (hf : f.describe ≠ "") :
    Diligent v.workspace A Y (v.abort f) s := by
  rw [abort_eq]
  exact h.bind (indifferent_settled.report _) fun _ t _ ht => (settleFailure_saves hroot ht.toTidy hf).diligent ht

/-- Whether the workspace has held the record before or not, it holds it behind a failure. -/
theorem abort_careful (h : Tidy v.workspace A Y s) {f : Fault} (hf : f.describe ≠ "") :
    Careful v.workspace A Y (v.abort f) s := by
  rw [abort_eq]
  obtain ⟨s₁, hreport, -⟩ := Session.error_run logger s!"Build aborted: {f.message}" "build_aborted" none
    (some (abortion f)) (if f.isBuildFailure then none else some f) s
  refine (h.report _).bind_careful (fun e s' hrun => ?_) fun _ t hrun => ?_
  · cases hreport.symm.trans hrun
  · have ht := (h.report _).of_run hrun
    exact (settleFailure_saves hroot ht hf).careful ht

/-- The error of a failure is held and written, whatever it says. -/
theorem abort_holds (h : Workable v.workspace A s) (f : Fault) :
    ∃ r : Record, r.error = .str f.describe ∧ Holds v.workspace A r ((v.abort f).run s).2 := by
  obtain ⟨s₁, hreport, hdiff⟩ := Session.error_run logger s!"Build aborted: {f.message}" "build_aborted" none
    (some (abortion f)) (if f.isBuildFailure then none else some f) s
  have h₁ := (h.edits_log hdiff fun _ => False).workable h
  obtain ⟨s₂, hfinish, h₂, herror⟩ : ∃ s₂,
      (v.workspace.finish (.str Record.aborted) f.recordedStatus (.str f.describe)).run s₁ = (.ok (), s₂) ∧
        Workable v.workspace A s₂ ∧ (v.workspace.recordIn s₂).error = .str f.describe := by
    refine ⟨_, rfl, h₁.of_disk rfl rfl, ?_⟩
    exact congrArg Record.error (recordIn_setRecord v.workspace s₁ _)
  have hbind := upholds_bindAborted hroot indifferent_holds _ h₂.store
  have hfailure : (v.recordFailure f).run s₁ = _ :=
    (run_bind_ok hfinish).trans (run_bind_ok (saveRecord_run h₂.stands))
  refine ⟨_, herror, ?_⟩
  unfold abort
  rw [run_bind_ok hreport, run_bind_ok (run_outcome (v.recordFailure f) s₁), hfailure]
  exact (upholds_reported indifferent_holds _ _ hbind.run).run

/-- An attempt that keeps the record does so under supervision, however it ends. -/
theorem supervise_diligent {a : Session α} (h : Settled v.workspace A Y r s)
    (ha : ∀ t, Settled v.workspace A Y r t → Diligent v.workspace A Y a t)
    (hblames : Action.Blames (fun f => f.describe ≠ "") a) : Diligent v.workspace A Y (v.supervise a) s := by
  unfold supervise
  refine h.bind (upholds_enter hroot) fun _ s₁ _ h₁ => ?_
  refine (ha s₁ h₁).outcome.bind fun o s₂ hrun => ?_
  have h₂ := (ha s₁ h₁).outcome.of_run hrun
  cases o with
  | ok x => exact (complete_diligent hroot h₂).bind_pure _
  | error f =>
    have habort := abort_diligent hroot h₂ (hblames.run_error (of_run_outcome hrun))
    exact habort.bind fun _ s₃ hrun₃ => .done (habort.of_run hrun₃)

/-- Wherever a failure strikes the attempt, the record is in order, and on disk at the end. -/
theorem supervise_struck {a : Session α} (h : Settled v.workspace A Y r s)
    (ha : ∀ t, Settled v.workspace A Y r t → Diligent v.workspace A Y a t)
    (hblames : Action.Blames (fun f => f.describe ≠ "") a) {f : Fault} (hf : f.describe ≠ "") (n : Nat) :
    Careful v.workspace A Y (v.supervise (Action.struck f n a)) s := by
  have henter := upholds_enter hroot s h
  unfold supervise
  refine (diligent_of_always henter).careful.orderly.bind_careful (fun e t hrun => ?_) fun _ s₁ hrun => ?_
  · exact (diligent_of_always henter).of_run hrun
  have h₁ : Settled v.workspace A Y r s₁ := by
    have hend := henter.run
    rwa [hrun] at hend
  have hstruck := (ha s₁ h₁).careful.orderly.struck f n
  refine hstruck.outcome.bind_careful (fun e t hrun => ?_) fun o s₂ hrun => ?_
  · rw [run_outcome] at hrun
    cases hrun
  replace hrun := of_run_outcome hrun
  have h₂ := hstruck.of_run hrun
  -- The attempt has ended by itself, or the failure is the one that struck.
  have hends := hrun ▸ run_struck f n a s₁
  cases o with
  | ok x =>
    have hrun' : a.run s₁ = (.ok x, s₂) := hends.elim Eq.symm nofun
    exact ((complete_diligent hroot ((ha s₁ h₁).of_run hrun')).bind_pure _).careful
  | error g =>
    have hg : g.describe ≠ "" := by
      rcases hends with hsame | hthat
      · exact hblames.run_error hsame.symm
      · cases hthat
        exact hf
    have habort := abort_careful hroot h₂ hg
    exact habort.orderly.bind_careful (fun _ _ hrun₃ => habort.of_run hrun₃)
      fun _ _ hrun₃ => (Diligent.done (habort.of_run hrun₃)).careful

end Ends

end Supervision

/-! ## From the allocation to the attempt -/

namespace Workspace

variable {w : Workspace} {A : Address} {Y : String → Prop} {r : Record} {s s' : Site} {now : Instant}

theorem New.settled (h : New w A s) (hclock : s.clock.Readable) :
    Settled w A (fun _ => False) (Record.start w.key s.clock) s where
  workable := h.toWorkable
  plain := h.record ▸ Record.plain_start w.key hclock
  clock := hclock
  listed n hn := by
    rw [h.record] at hn
    cases hn
  known := nofun
  held := h.record
  saved := h.file

/-- The time goes on. -/
theorem Settled.of_clock (h : Settled w A Y r s) (hheld : (Assoc.find? s.records w.path.text).isSome)
    (hnow : now.Readable) : Settled w A Y r { s with clock := now } := by
  have hrecord : w.recordIn { s with clock := now } = w.recordIn s := by
    obtain ⟨r, hr⟩ := Option.isSome_iff_exists.1 hheld
    simp only [recordIn, hr, Option.getD_some]
  exact {
    workable := h.workable.of_disk rfl rfl
    plain := hrecord ▸ h.plain
    clock := hnow
    listed := fun n hn => h.listed n (hrecord ▸ hn)
    known := h.known
    held := hrecord.trans h.held
    saved := h.saved }

/-- A log has been opened. -/
theorem Settled.of_opened (h : Settled w A Y r s) (ho : Opened w A s s')
    (hnone : s.disk.find? (A ++ [w.key] ++ [logName]) = none) : Settled w A Y r s' := by
  have hways := (Disk.grows_of_new ho.home (ho.kept_of_some hnone)).keepsWays A
  have hkept : ∀ k, k ≠ logName → s'.disk.find? (A ++ [w.key] ++ [k]) = s.disk.find? (A ++ [w.key] ++ [k]) :=
    fun k hk => ho.kept _ (by simpa using hk)
  have hworkable : Workable w A s' := by
    refine ⟨ho.stands h.stands hnone, fun k n hk => ?_, h.workable.spare.of_keepsWays hways, fun n hdir => ?_⟩
    · rw [ho.kept _ (by simp)] at hk
      rw [ho.kept _ ?_]
      · exact h.workable.closed k n hk
      · rintro heq
        obtain ⟨rfl, -⟩ : k = w.key ∧ n = logName := by simpa using heq
        exact hk h.stands.dir
    · exact h.workable.flat n ((ho.sameDirs _).1 hdir)
  refine h.of_changed hworkable ho.records ho.clock (hkept _ (by decide)) fun n hn => ?_
  exact hn.of_entry hkept (fun hord => absurd rfl hord.ne_log) fun hc => absurd hc (by decide)

end Workspace

namespace BuildDir

variable {b : BuildDir} {A : Address} {w : Workspace} {s s' : Site}

/-- The record of a new workspace is held. -/
theorem allocate_holds (h : b.allocate.run s = (.ok w, s')) : (Assoc.find? s'.records w.path.text).isSome := by
  obtain ⟨_, s₁, -, h⟩ := of_run_bind_ok h
  obtain ⟨_, s₂, -, h⟩ := of_run_bind_ok h
  obtain ⟨_, s₃, -, h⟩ := of_run_bind_ok h
  obtain ⟨key, s₄, -, h⟩ := of_run_bind_ok h
  obtain ⟨now, s₅, -, h⟩ := of_run_bind_ok h
  obtain ⟨_, s₆, hset, h⟩ := of_run_bind_ok h
  have hheld : (Assoc.find? s₆.records (b.workspace key).path.text).isSome := by
    cases hset
    dsimp only
    rw [Assoc.find?_set, if_pos rfl]
    rfl
  obtain ⟨_, s₇, hsave, h⟩ := of_run_bind_ok h
  obtain ⟨_, s₈, hdebug, h⟩ := of_run_bind_ok h
  cases h
  have hsaves : Action.Keeps (fun t : Site => (Assoc.find? t.records (b.workspace key).path.text).isSome)
      (b.workspace key).saveRecord := (keeps_look _).bind fun _ => Session.keeps_write fun _ _ ht _ => ht
  have hreports : ∀ p, Action.Keeps (fun t : Site => (Assoc.find? t.records (b.workspace key).path.text).isSome)
      (Session.report p) := Session.keeps_report fun _ _ ht hd => hd.records ▸ ht
  exact (hreports _).of_run (hsaves.of_run hheld hsave) hdebug

/-- An allocation that ends well leaves a workspace whose record is on disk. -/
theorem settled_of_allocate (hroot : ∀ d, s.disk.makeDirs b.root = .ok d →
      Disk.Rooted (Disk.maxLinks - 1) d b.root A ∧ Disk.Closed A d)
    (hjournal : s.journal.file = none) (hclock : s.clock.Readable) (h : b.allocate.run s = (.ok w, s')) :
    w.root = b.root ∧ s'.disk.find? (A ++ [w.key] ++ [logName]) = none ∧
      Settled w A (fun _ => False) (Record.start w.key s'.clock) s' := by
  obtain ⟨_, s₁, hmake, -⟩ := of_run_bind_ok h
  obtain ⟨d, hmade, rfl⟩ := Session.of_run_write hmake
  obtain ⟨hspare, hclosed⟩ := hroot d hmade
  have hrooted : Disk.Rooted Disk.maxLinks d b.root A := hspare.add 1
  have hready : Ready b.root A { s with disk := d } := ready_of_journal hrooted hjournal
  rw [allocate_made hmade hrooted] at h
  cases hload : b.pointers.load d with
  | error f =>
    rw [allocate_unreadable hready hload] at h
    cases h
  | ok B =>
    rcases allocate_run hready hclosed hjournal hload with ⟨f, hrun, -⟩ | ⟨key, l, s₂, hrun, hallocated, -, -⟩
    · rw [hrun] at h
      cases h
    · cases h.symm.trans hrun
      refine ⟨rfl, ?_, (hallocated.new hspare hclosed hjournal).settled (hallocated.clock ▸ hclock)⟩
      rw [hallocated.kept _ (by simp) (by simpa using fun _ => (by decide : logName ≠ recordName))]
      exact hclosed key logName (by simp [hallocated.free])

end BuildDir

/-! ## Attempts -/

/-- What is attempted in a workspace: the stages are put in order, the pipeline runs, and the generators do,
working in the given way. -/
def Workspace.compiling (w : Workspace) (stages : List Stage) (document : Json) (gs : List Generator) (limit : Json)
    (work : Session (Assoc String (Attempt Fanout.Generated))) : Session Unit := do
  let ordered ← Action.lift (Pipeline.order stages)
  discard (Pipeline.run w ordered document)
  discard (Fanout.runBy w gs limit (Pipeline.compiledPath w) work)

section Attempts

variable {w : Workspace} {A : Address} {r : Record} {s : Site} {stages : List Stage} {document limit : Json}
  {gs : List Generator} {work : Session (Assoc String (Attempt Fanout.Generated))}

/-- The fan-out fails in its own name, in whichever way the generators work. -/
theorem Fanout.runBy_yields {F : Fault → Prop} (hF : ∀ f, f.Tells → F f) {compiled : Path}
    (hwork : Fanout.Works w gs limit compiled work) : Action.Blames F (Fanout.runBy w gs limit compiled work) := by
  unfold Fanout.runBy
  split
  · exact Fanout.run_yields hF w gs limit compiled
  · refine (Fanout.announce_yields hF gs limit).bind fun _ _ => ?_
    suffices hworks : Action.Blames F work from hworks.bind fun outcomes _ => Fanout.conclude_yields hF w outcomes
    cases hwork with
    | inOrder => exact Fanout.launch_yields _ _ _ _
    | together => exact yields_atomic (fun _ _ => nofun) fun _ _ _ => trivial

theorem Workspace.compiling_diligent (hstages : ∀ x ∈ stages, PlainName x.name)
    (hgenerators : ∀ g ∈ gs, PlainName g.name) (hwork : Fanout.Works w gs limit (Pipeline.compiledPath w) work)
    (h : Settled w A (fun _ => False) r s) :
    Diligent w A (fun _ => False) (w.compiling stages document gs limit work) s := by
  refine h.bind (keeps_lift _).upholds fun ordered s₁ hrun h₁ => ?_
  have hplain : ∀ x ∈ ordered, PlainName x.name := fun x hx =>
    hstages x (Pipeline.mem_of_order (congrArg Prod.fst hrun) hx)
  have hpipeline := (Pipeline.run_diligent hplain h₁ document).discard
  exact hpipeline.bind fun _ s₂ hrun₂ =>
    (Fanout.runBy_diligent hwork hgenerators (hpipeline.of_run hrun₂)).discard

/-- Whatever the attempt fails with has a description. -/
theorem Workspace.compiling_blames (hwork : Fanout.Works w gs limit (Pipeline.compiledPath w) work) :
    Action.Blames (fun f => f.describe ≠ "") (w.compiling stages document gs limit work) := by
  have hF : ∀ f : Fault, f.Tells → f.describe ≠ "" := fun f hf => f.describe_ne_empty_of_label hf.2
  refine (blames_lift fun f hf => hF f (Pipeline.order_blames stages f hf)).bind fun ordered _ => ?_
  have hraises : ∀ x ∈ ordered, ∀ f, x.Raises f → f.describe ≠ "" := fun x _ f hf =>
    f.describe_ne_empty_of_label (Fault.label_ne_empty hf.2)
  exact (Pipeline.run_yields hF hraises document).discard.bind fun _ _ => (Fanout.runBy_yields hF hwork).discard

/-- The record of an attempt is never behind, and is in order wherever a failure strikes the attempt. -/
theorem Supervision.supervise_accurate {b : BuildDir} {v : Supervision} {s₀ s₁ : Site} {now : Instant}
    (hroot : ∀ d, s.disk.makeDirs b.root = .ok d →
      Disk.Rooted (Disk.maxLinks - 1) d b.root A ∧ Disk.Closed A d)
    (hjournal : s.journal.file = none) (hclock : s.clock.Readable) (hnow : now.Readable)
    (hallocate : b.allocate.run s = (.ok w, s₀))
    (hbegin : s₁ = { s₀ with clock := now } ∨ ∃ severity style console,
      (Session.openLog w.logPath severity style console).run { s₀ with clock := now } = (.ok (), s₁))
    (hdirectory : v.directory = b) (hworkspace : v.workspace = w) (hstages : ∀ x ∈ stages, PlainName x.name)
    (hgenerators : ∀ g ∈ gs, PlainName g.name) (hwork : Fanout.Works w gs limit (Pipeline.compiledPath w) work) :
    w.Current s₀ ∧ w.Accurate (v.supervise (w.compiling stages document gs limit work)) s₁ ∧
      ∀ n f, f.describe ≠ "" →
        w.Faithful (v.supervise (Action.struck f n (w.compiling stages document gs limit work))) s₁ := by
  obtain ⟨hwroot, hunlogged, h₀⟩ := BuildDir.settled_of_allocate hroot hjournal hclock hallocate
  subst hworkspace hdirectory
  have h₁ := h₀.of_clock (BuildDir.allocate_holds hallocate) hnow
  have h : Settled v.workspace A (fun _ => False) (Record.start v.workspace.key s₀.clock) s₁ := by
    rcases hbegin with rfl | ⟨severity, style, console, hopen⟩
    · exact h₁
    · rcases openLog_run h₁.stands hunlogged severity style console with ⟨f, -, hrun⟩ | ⟨s', hrun, hopened⟩
      · cases hopen.symm.trans hrun
      · cases hopen.symm.trans hrun
        exact h₁.of_opened hopened hunlogged
  have hblames : Action.Blames (fun f => f.describe ≠ "") (v.workspace.compiling stages document gs limit work) :=
    compiling_blames hwork
  have hattempt : ∀ t, Settled v.workspace A (fun _ => False) (Record.start v.workspace.key s₀.clock) t →
      Diligent v.workspace A (fun _ => False) (v.workspace.compiling stages document gs limit work) t :=
    fun _ => compiling_diligent hstages hgenerators hwork
  exact ⟨h₀.load, (supervise_diligent hwroot.symm h hattempt hblames).accurate,
    fun n f hf => (supervise_struck hwroot.symm h hattempt hblames hf n).faithful⟩

end Attempts

/-! ### First attempts -/

/-- The build root of a project in which nothing has been built. -/
def BuildDir.bare : BuildDir := ⟨⟨"/", ["p", "run"]⟩, true⟩

/-- Its first workspace. -/
def Workspace.bare : Workspace := BuildDir.bare.workspace "20240301-100000.000000"

/-- The site in which that has been allocated. -/
def Site.allocated : Site := (BuildDir.bare.allocate.run Call.bare).2

/-- What is attempted in it, at an empty document, with one generator working after another. -/
def Workspace.firstTrial (stages : List Stage) (gs : List Generator) : Session Unit :=
  Workspace.bare.compiling stages (.obj []) gs .null
    (Fanout.launch (Pipeline.compiledPath .bare) .bare [] (Text.sortOn Generator.name gs))

/-- Its supervision. -/
def Supervision.bare : Supervision := { directory := .bare, workspace := .bare, quiet := true }

/-- The site in which the attempt begins: the two aliases are on record and linked. -/
def Site.begun : Site :=
  let key := Workspace.bare.key
  let entry (n : String) : Address := ["/", "p", "run", n]
  let linked (d : Disk) (name temporary : String) : Disk :=
    ((d.set (entry temporary) (.link key)).set (entry name) (.link key)).erase (entry temporary)
  let pointers : Json := .obj [("latest", .str key), ("running", .str key)]
  let d := Site.allocated.disk.set (entry "pointers.json") (.file (.json pointers))
  { Site.allocated with disk := linked (linked d "latest" ".latest.tmp") "running" ".running.tmp" }

namespace Supervision

theorem allocate_bare : BuildDir.bare.allocate.run Call.bare = (.ok .bare, .allocated) := by
  have hkey : (BuildDir.bare.allocate.run Call.bare).1.toOption = some .bare := by decide
  refine Prod.ext ?_ rfl
  cases hrun : (BuildDir.bare.allocate.run Call.bare).1 with
  | error f => simp [hrun, Except.toOption] at hkey
  | ok w => simpa [hrun, Except.toOption] using hkey

theorem enter_bare : Supervision.bare.enter.run .allocated = (.ok (), .begun) := by
  -- The aliases are written in order.
  have hsorted : (Json.obj [("latest", .str Workspace.bare.key), ("running", .str Workspace.bare.key)]).sortKeys =
      .obj [("latest", .str Workspace.bare.key), ("running", .str Workspace.bare.key)] := by
    cbv
  dsimp only [Site.begun]
  rw [← hsorted]
  rfl

theorem rooted_bare {d : Disk} (hmade : Call.bare.disk.makeDirs BuildDir.bare.root = .ok d) :
    Disk.Rooted (Disk.maxLinks - 1) d BuildDir.bare.root ["/", "p", "run"] ∧ Disk.Closed ["/", "p", "run"] d := by
  obtain ⟨d', hmade', -, hempty⟩ := Call.vacant_bare.made
  obtain rfl : d' = d := Except.ok.inj (hmade'.symm.trans hmade)
  refine ⟨?_, fun k n _ => hempty _ (below_grandchild _ k n)⟩
  rw [show Call.bare.disk.makeDirs BuildDir.bare.root =
    .ok (Call.bare.disk.set ["/", "p", "run"] .dir) from rfl] at hmade
  cases hmade
  exact .of_dirs _ (by unfold Path.Clean; decide) rfl (by decide) (by decide)

theorem workable_bare : Workable .bare ["/", "p", "run"] .begun := by
  obtain ⟨-, -, h⟩ := BuildDir.settled_of_allocate (fun _ => rooted_bare) rfl (by decide) allocate_bare
  have hbegun := (upholds_enter (v := bare) rfl _ h).run
  rw [enter_bare] at hbegun
  exact hbegun.workable

/-- A first attempt that ends well. The writing of the input is one of its operations. -/
theorem supervise_accurate_first :
    BuildDir.bare.allocate.run Call.bare = (.ok .bare, .allocated) ∧
      Reaches (bare.supervise (firstTrial [Pipeline.marking "a"] [Fanout.emptying "x"])) .allocated
        ((Operation.write Pipeline.inputArtifact (.obj [])).action .bare) .begun ∧
      Workspace.bare.Current .allocated ∧
      Workspace.bare.Accurate (bare.supervise (firstTrial [Pipeline.marking "a"] [Fanout.emptying "x"])) .allocated ∧
      ∀ n, Workspace.bare.Faithful
        (bare.supervise (struck (.interrupted 15) n (firstTrial [Pipeline.marking "a"] [Fanout.emptying "x"])))
        .allocated := by
  have hpipeline : Reaches (Pipeline.run .bare [Pipeline.marking "a"] (.obj [])) .begun
      ((Operation.write Pipeline.inputArtifact (.obj [])).action .bare) .begun := by
    have hraw : Document.check (.obj []) .raw = .ok () := rfl
    simp only [Pipeline.run, List.isEmpty_cons, Bool.false_eq_true, if_false, hraw, Action.lift_ok_bind]
    exact reaches_bind _ _ _
  have hnow : Site.allocated.clock.Readable := by decide
  have hattempt : Workspace.bare.Current .allocated ∧
      Workspace.bare.Accurate (bare.supervise (firstTrial [Pipeline.marking "a"] [Fanout.emptying "x"])) .allocated ∧
      ∀ n f, f.describe ≠ "" → Workspace.bare.Faithful
        (bare.supervise (struck f n (firstTrial [Pipeline.marking "a"] [Fanout.emptying "x"]))) .allocated :=
    supervise_accurate (fun _ => rooted_bare) rfl (by decide) hnow allocate_bare (.inl rfl) rfl rfl
      (by decide) (by decide) .inOrder
  obtain ⟨hcurrent, haccurate, hfaithful⟩ := hattempt
  refine ⟨allocate_bare, ?_, hcurrent, haccurate, fun n => hfaithful n (.interrupted 15) (by decide)⟩
  unfold supervise firstTrial Workspace.compiling
  rw [Pipeline.order_marking, Action.lift_ok_bind]
  exact ((hpipeline.bind _).bind _).outcome.bind _ |>.behind enter_bare

/-- The record lists an artifact that cannot be read. -/
def misses (w : Workspace) (n : String) (s : Site) : Bool :=
  (w.recordIn s).artifacts.contains (.str n) && !(s.disk.readJson (w.artifactPath n)).isOk

theorem not_accurate {α : Type} {w : Workspace} {a : Session α} {s : Site} {n : String}
    (hmisses : misses w n (a.run s).2 = true) : ¬ w.Accurate a s := by
  intro h
  obtain ⟨hlisted, hread⟩ := Bool.and_eq_true_iff.1 hmisses
  have hend := after_of_le (Nat.le_refl (a.steps s))
  obtain ⟨m, v, hm, hv⟩ := h.readable (a.steps s) (.str n) (hend ▸ List.contains_iff_mem.1 hlisted)
  cases hm
  rw [hend] at hv
  rw [hv] at hread
  cases hread

/-- A failure without a text and without a name leaves an error that says nothing, and is not written. -/
theorem unfaithful_untold {f : Fault} (hf : f.describe = "") (stages : List Stage) (gs : List Generator) :
    ¬ Workspace.bare.Faithful (bare.supervise (struck f 0 (firstTrial stages gs))) .allocated := by
  intro h
  obtain ⟨⟨e, s'⟩, habort⟩ : ∃ x, (bare.abort f).run .begun = x := ⟨_, rfl⟩
  have hexit := h.exit
  rw [supervise_failed enter_bare rfl habort] at hexit
  obtain ⟨r, herror, hholds⟩ := abort_holds (v := bare) rfl workable_bare f
  rw [habort] at hholds
  have hloaded : Record.ofJson r.toJson.sortKeys = .ok r := by
    rw [← load_eq_ofJson hholds.workable.stands hholds.saved]
    exact hexit.trans (congrArg Except.ok hholds.held)
  have hread := Record.error_of_ofJson_toJson hloaded
  rw [herror, hf] at hread
  exact absurd hread (by decide)

set_option maxRecDepth 100000 in
/-- A stage whose name has a slash takes the place of the link of the compiled plan, which is then listed but
leads to itself. A generator whose name has one leaves its fragment by way of the link of the running attempt,
and the end of the attempt removes that. Of a failure without a text or a name nothing is written. -/
theorem inaccurate_straying :
    (∀ c ∈ [([Pipeline.marking "a/../config"], []), ([Pipeline.marking "a"], [Fanout.emptying "x/../../running/z"])],
      (c.1.map (·.name)).Nodup ∧ (c.2.map (·.name)).Nodup ∧
      BuildDir.bare.allocate.run Call.bare = (.ok .bare, .allocated) ∧
      ¬ Workspace.bare.Accurate (bare.supervise (firstTrial c.1 c.2)) .allocated) ∧
    (Fault.raised "" []).describe = "" ∧
      ¬ Workspace.bare.Faithful (bare.supervise (struck (.raised "" []) 0 (firstTrial [] []))) .allocated := by
  simp only [List.forall_mem_cons, List.not_mem_nil, false_implies, implies_true, and_true]
  refine ⟨⟨⟨by decide, by decide, allocate_bare, not_accurate (n := "config.json") ?_⟩,
    by decide, by decide, allocate_bare, not_accurate (n := "code-x/../../running/z.json") ?_⟩, by decide,
    unfaithful_untold (by decide) _ _⟩
  all_goals
    unfold supervise
    rw [run_bind_ok enter_bare]
    decide +kernel

end Supervision

end FlowPlan

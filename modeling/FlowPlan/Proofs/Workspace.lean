import FlowPlan.Build.Workspace
import FlowPlan.Proofs.Disk.Growth
import FlowPlan.Proofs.Key
import FlowPlan.Proofs.Pointers

/-!
# New workspaces

An allocation that succeeds makes one new directory with the record of an attempt in progress; one
that fails changes nothing.

## Main definitions

* `Workspace.status?` — the status that a record on disk says.
* `BuildDir.Allocated` — what an allocation does.

## Main statements

* `BuildDir.allocate_run` — an allocation.
* `Workspace.openLog_run` — the log of a new workspace.
* `Workspace.saveRecord_run` — the record is written.
-/

namespace FlowPlan

open FlowPlan.Action Site

/-- Nothing lies in what is no directory. -/
def Disk.Closed (A : Address) (d : Disk) : Prop :=
  ∀ k n, d.find? (A ++ [k]) ≠ some .dir → d.find? (A ++ [k] ++ [n]) = none

theorem Disk.IsTree.closed {d : Disk} (h : d.IsTree) (A : Address) : Disk.Closed A d := by
  intro k n hk
  cases hn : d.find? (A ++ [k] ++ [n]) with
  | none => rfl
  | some e => exact absurd (h.parent _ _ _ hn) hk

namespace Workspace

/-! ## Records -/

def recordName : String := "status.json"

def logName : String := "run.log"

theorem isName_recordName : Path.IsName recordName ∧ Path.NulFree recordName := by decide

theorem isName_logName : Path.IsName logName ∧ Path.NulFree logName := by decide

/-- The status that the record on disk says. -/
def status? (w : Workspace) (d : Disk) : Option Json :=
  match d.readJson w.recordPath with
  | .ok (.obj fs) => Assoc.find? fs "status"
  | _ => none

/-- The workspace is a directory of the build root, and its record can be written. -/
structure Stands (w : Workspace) (A : Address) (s : Site) : Prop where
  ready : Ready w.root A s
  name : Path.IsName w.key ∧ Path.NulFree w.key
  dir : s.disk.find? (A ++ [w.key]) = some .dir
  record : s.disk.find? (A ++ [w.key] ++ [recordName]) ≠ some .dir

variable {w : Workspace} {A : Address} {s : Site}

theorem Stands.rooted (h : Stands w A s) :
    Disk.Rooted Disk.maxLinks s.disk w.path (A ++ [w.key]) :=
  h.ready.rooted.child h.name.1 h.name.2 h.dir

theorem Stands.of_clock (h : Stands w A s) (now : Instant) : Stands w A { s with clock := now } :=
  ⟨⟨h.ready.rooted, h.ready.log⟩, h.name, h.dir, h.record⟩

theorem below_grandchild (A : Address) (k n : String) : Address.Below A (A ++ [k] ++ [n]) :=
  ⟨k, [n], by simp⟩

/-- The record is written as it is held. -/
theorem saveRecord_run (h : Stands w A s) :
    (w.saveRecord).run s = (.ok (), { s with
      disk := s.disk.set (A ++ [w.key] ++ [recordName]) (.file (.json (w.recordIn s).toJson.sortKeys)) }) := by
  have hwrite : s.disk.writeJson w.recordPath (w.recordIn s).toJson = .ok (s.disk.set
      (A ++ [w.key] ++ [recordName]) (.file (.json (w.recordIn s).toJson.sortKeys))) :=
    h.rooted.writeJson isName_recordName.1 isName_recordName.2 h.record _
  exact Session.run_write_ok (f := (·.writeJson w.recordPath (w.recordIn s).toJson)) hwrite

theorem find?_status_toJson (r : Record) :
    ∃ fs, r.toJson.sortKeys = .obj fs ∧ Assoc.find? fs "status" = some r.status.sortKeys := by
  refine ⟨_, rfl, ?_⟩
  rw [Json.find?_sortKeysFields]
  simp [Assoc.find?_cons]

/-- A record that was written says its status. -/
theorem status?_of_record (h : Stands w A s) {r : Record}
    (hr : s.disk.find? (A ++ [w.key] ++ [recordName]) = some (.file (.json r.toJson.sortKeys))) :
    w.status? s.disk = some r.status.sortKeys := by
  obtain ⟨fs, hfs, hstatus⟩ := find?_status_toJson r
  unfold status?
  have hread := h.rooted.readJson isName_recordName.1 isName_recordName.2 hr
  rw [hfs] at hread
  rw [show w.recordPath = w.path.child recordName from rfl, hread]
  exact hstatus

theorem recordIn_setRecord (w : Workspace) (s : Site) (r : Record) :
    w.recordIn { s with records := Assoc.set s.records w.path.text r } = r := by
  simp [recordIn, Assoc.find?_set]

theorem recordIn_congr {s' : Site} (hrecords : s'.records = s.records) (hclock : s'.clock = s.clock) :
    w.recordIn s' = w.recordIn s := by
  unfold recordIn
  rw [hrecords, hclock]

/-! ## Logs -/

/-- What opening the log of a workspace does, when its severity is known. -/
structure Opened (w : Workspace) (A : Address) (s s' : Site) : Prop where
  home : s'.disk.home = s.disk.home
  records : s'.records = s.records
  locked : s'.locked = s.locked
  clock : s'.clock = s.clock
  log : ∃ style, s'.journal.file = some (A ++ [w.key] ++ [logName], style)
  kept : ∀ a, a ≠ A ++ [w.key] ++ [logName] → s'.disk.find? a = s.disk.find? a
  sameDirs : s.disk.SameDirs s'.disk

theorem Opened.kept_of_some {s' : Site} (h : Opened w A s s')
    (hnone : s.disk.find? (A ++ [w.key] ++ [logName]) = none) (a : Address) (hne : s.disk.find? a ≠ none) :
    s'.disk.find? a = s.disk.find? a := by
  refine h.kept a ?_
  rintro rfl
  exact hne hnone

theorem Opened.stands {s' : Site} (h : Opened w A s s') (hs : Stands w A s)
    (hnone : s.disk.find? (A ++ [w.key] ++ [logName]) = none) : Stands w A s' := by
  have hways := (Disk.grows_of_new h.home (h.kept_of_some hnone)).keepsWays A
  refine ⟨⟨hs.ready.rooted.of_keepsWays hways, ?_⟩, hs.name, ?_, ?_⟩
  · rintro a ⟨style, hfile⟩
    obtain ⟨style', hfile'⟩ := h.log
    rw [hfile'] at hfile
    cases hfile
    exact ⟨w.key, rfl⟩
  · rw [h.kept _ (by simp), hs.dir]
  · rw [h.kept _ (by simp; decide)]
    exact hs.record

/-- A new log is opened, unless its severity is unknown. -/
theorem openLog_run (h : Stands w A s) (hnone : s.disk.find? (A ++ [w.key] ++ [logName]) = none)
    (severity : String) (style : LogStyle) (console : Bool) :
    (∃ f, Session.thresholdOf (Text.upper severity) = .error f ∧
      (Session.openLog w.logPath severity style console).run s = (.error f, s)) ∨
    ∃ s', (Session.openLog w.logPath severity style console).run s = (.ok (), s') ∧
      Opened w A s s' := by
  have hparent : w.logPath.parent = w.path := Path.parent_child w.path isName_logName.1
  obtain ⟨d, hd⟩ : ∃ d, d = s.disk.set (A ++ [w.key] ++ [logName]) (.file (.text "")) := ⟨_, rfl⟩
  have hfind : ∀ a, d.find? a =
      if A ++ [w.key] ++ [logName] = a then some (.file (.text "")) else s.disk.find? a := by
    intro a
    rw [hd, Disk.find?_set_child]
  have htouch : s.disk.touch w.logPath = .ok d :=
    hd ▸ h.rooted.touch isName_logName.1 isName_logName.2 hnone
  have haddress : d.address w.logPath = .ok (A ++ [w.key] ++ [logName]) := by
    have hrooted := h.rooted.of_keepsWays (hd ▸ Disk.keepsWays_set s.disk (.file (.text ""))
      (Disk.below_child (A ++ [w.key]) logName))
    refine hrooted.address_child isName_logName.1 isName_logName.2 fun _ t ht => ?_
    rw [hfind, if_pos rfl] at ht
    cases ht
  unfold Session.openLog
  rw [hparent, run_bind_ok (Session.makeDirs_run h.rooted)]
  cases hthreshold : Session.thresholdOf (Text.upper severity) with
  | error f => exact .inl ⟨f, rfl, rfl⟩
  | ok threshold =>
    right
    obtain ⟨s₁, hs₁⟩ : ∃ s₁ : Site, s₁ = { s with journal := ⟨threshold, none, false⟩ } := ⟨_, rfl⟩
    have hmodify : (Action.modify fun s : Site => { s with journal := ⟨threshold, none, false⟩ } :
        Session Unit).run s = (.ok (), s₁) := by rw [hs₁]; rfl
    obtain ⟨s₂, hs₂⟩ : ∃ s₂ : Site, s₂ = { s₁ with disk := d } := ⟨_, rfl⟩
    have hwrite : (Session.write (·.touch w.logPath)).run s₁ = (.ok (), s₂) := by
      rw [hs₂, hs₁]
      exact Session.run_write_ok (f := (·.touch w.logPath)) htouch
    have hread : s₂.disk.address w.logPath = .ok (A ++ [w.key] ++ [logName]) := by
      rw [hs₂]
      exact haddress
    rw [Action.lift_ok_bind, run_bind_ok hmodify, run_bind_ok hwrite,
      Session.run_read_ok (f := (·.address w.logPath)) hread]
    refine ⟨_, rfl, ?_⟩
    subst hs₂ hs₁
    refine ⟨hd ▸ rfl, rfl, rfl, rfl, ⟨style, rfl⟩, fun a ha => ?_, ?_⟩
    · exact (hfind a).trans (if_neg (Ne.symm ha))
    · exact hd ▸ Disk.sameDirs_set (by simp) (by rw [hnone]; simp) (by simp)

end Workspace

namespace BuildDir

open Pointers Workspace

variable {b : BuildDir} {A : Address} {s : Site}

/-- What an allocation does that gives out a key. -/
structure Allocated (b : BuildDir) (A : Address) (key : String) (s s' : Site) : Prop where
  name : Key.IsKeyName key
  free : s.disk.find? (A ++ [key]) = none
  dir : s'.disk.find? (A ++ [key]) = some .dir
  record : s'.disk.find? (A ++ [key] ++ [recordName]) =
    some (.file (.json (Record.start key s.clock).toJson.sortKeys))
  held : (b.workspace key).recordIn s' = Record.start key s.clock
  home : s'.disk.home = s.disk.home
  journal : s'.journal = s.journal
  locked : s'.locked = s.locked
  clock : s'.clock = s.clock
  kept : ∀ a, a ≠ A ++ [key] → a ≠ A ++ [key] ++ [recordName] → s'.disk.find? a = s.disk.find? a

theorem Allocated.kept_of_some {key : String} {s' : Site} (h : b.Allocated A key s s')
    (hclosed : Disk.Closed A s.disk) (a : Address) (hne : s.disk.find? a ≠ none) :
    s'.disk.find? a = s.disk.find? a := by
  refine h.kept a ?_ ?_
  · rintro rfl
    exact hne h.free
  · rintro rfl
    exact hne (hclosed key _ (by simp [h.free]))

theorem Allocated.stands {key : String} {s' : Site} (h : b.Allocated A key s s')
    (hr : Disk.Rooted Disk.maxLinks s.disk b.root A) (hclosed : Disk.Closed A s.disk)
    (hj : s.journal.file = none) : Stands (b.workspace key) A s' := by
  have hways := (Disk.grows_of_new h.home (h.kept_of_some hclosed)).keepsWays A
  refine ⟨ready_of_journal (hr.of_keepsWays hways) (by rw [h.journal, hj]), h.name.isName, h.dir, ?_⟩
  change s'.disk.find? (A ++ [key] ++ [recordName]) ≠ _
  rw [h.record]
  simp

/-- The workspaces that stood before still do. -/
theorem Allocated.stands_of {key : String} {s' : Site} {w : Workspace} (h : b.Allocated A key s s')
    (hclosed : Disk.Closed A s.disk) (hj : s.journal.file = none) (hs : Stands w A s) : Stands w A s' := by
  have hways := (Disk.grows_of_new h.home (h.kept_of_some hclosed)).keepsWays A
  refine ⟨ready_of_journal (hs.ready.rooted.of_keepsWays hways) (by rw [h.journal, hj]), hs.name, ?_, ?_⟩
  · rw [h.kept_of_some hclosed _ (by simp [hs.dir]), hs.dir]
  · have hne : w.key ≠ key := by
      intro hkey
      have hdir := hs.dir
      rw [hkey, h.free] at hdir
      cases hdir
    rw [h.kept _ (by simp) (by simp [hne])]
    exact hs.record

/-- The first free key after the latest one. -/
def nextKey (b : BuildDir) (s : Site) (latest : Option String) : Option String :=
  Key.first? (fun key => (s.disk.lookup? (b.root.child key) false).isNone) s.disk.entries.length
    s.clock latest

/-- A workspace stands once its directory has been made. -/
theorem stands_claim (hs : Ready b.root A s) (hclosed : Disk.Closed A s.disk) {key : String}
    (hname : Key.IsKeyName key) (hnone : s.disk.find? (A ++ [key]) = none) (m : Assoc String Record) :
    (b.workspace key).Stands A { s with disk := s.disk.set (A ++ [key]) .dir, records := m } := by
  refine ⟨⟨hs.rooted.of_keepsWays (Disk.keepsWays_set _ _ (Disk.below_child A key)), fun a ha => hs.log a ha⟩,
    hname.isName, ?_, ?_⟩
  · change (s.disk.set (A ++ [key]) .dir).find? (A ++ [key]) = some .dir
    rw [Disk.find?_set_child, if_pos rfl]
  · change (s.disk.set (A ++ [key]) .dir).find? (A ++ [key] ++ [recordName]) ≠ some .dir
    rw [Disk.find?_set_child, if_neg (by simp), hclosed key _ (by simp [hnone])]
    simp

/-- The directory is there, and the record of the attempt is started in it. -/
theorem start_run (hs : Ready b.root A s) (hclosed : Disk.Closed A s.disk)
    (hlog : s.journal.file = none) {key : String} (hname : Key.IsKeyName key)
    (hnone : s.disk.find? (A ++ [key]) = none) :
    ∃ s', (do
        (b.workspace key).setRecord (Record.start key (← Session.now))
        (b.workspace key).saveRecord
        Session.debug Pointers.logger s!"Allocated workspace {key}"
        return b.workspace key : Session Workspace).run
          { s with disk := s.disk.set (A ++ [key]) .dir } = (.ok (b.workspace key), s') ∧
      b.Allocated A key s s' := by
  obtain ⟨w, hw⟩ : ∃ w, w = b.workspace key := ⟨_, rfl⟩
  obtain ⟨r, hr⟩ : ∃ r, r = Record.start key s.clock := ⟨_, rfl⟩
  obtain ⟨s₂, hs₂⟩ : ∃ s₂ : Site, s₂ = { s with
    disk := s.disk.set (A ++ [key]) .dir, records := Assoc.set s.records w.path.text r } := ⟨_, rfl⟩
  have hfind₂ : ∀ a, s₂.disk.find? a = if A ++ [key] = a then some .dir else s.disk.find? a := by
    intro a
    rw [hs₂]
    exact Disk.find?_set_child _ _ _ _ _
  have hheld : w.recordIn s₂ = r := by
    rw [hs₂]
    exact recordIn_setRecord w { s with disk := s.disk.set (A ++ [key]) .dir } r
  have hstands : w.Stands A s₂ := by
    rw [hw, hs₂]
    exact stands_claim hs hclosed hname hnone _
  have hsave := saveRecord_run hstands
  rw [hheld] at hsave
  obtain ⟨s₃, hs₃⟩ : ∃ s₃ : Site, s₃ = { s₂ with
    disk := s₂.disk.set (A ++ [w.key] ++ [recordName]) (.file (.json r.toJson.sortKeys)) } :=
    ⟨_, rfl⟩
  rw [← hs₃] at hsave
  have hkey : w.key = key := by rw [hw]; rfl
  have hfind₃ : ∀ a, s₃.disk.find? a =
      if A ++ [key] ++ [recordName] = a then some (.file (.json r.toJson.sortKeys))
      else s₂.disk.find? a := by
    intro a
    rw [hs₃, hkey]
    exact Disk.find?_set_child _ _ _ _ _
  have hlog₃ : ∀ a, ¬ s₃.IsLog a := by
    rintro a ⟨style, hfile⟩
    rw [hs₃, hs₂, hlog] at hfile
    cases hfile
  obtain ⟨s₄, hdebug, hdiff⟩ := Session.debug_run Pointers.logger s!"Allocated workspace {key}"
    none none s₃
  have hset : (w.setRecord (Record.start key s.clock)).run
      { s with disk := s.disk.set (A ++ [key]) .dir } = (.ok (), s₂) := by
    rw [hs₂, hr]
    rfl
  rw [← hw]
  refine ⟨_, (run_bind_ok (x := s.clock) rfl).trans ((run_bind_ok hset).trans
    ((run_bind_ok hsave).trans (run_bind_ok hdebug))), hname, hnone, ?_, ?_, ?_, ?_, ?_, ?_, ?_, ?_⟩
  · rw [hdiff.find? (by simp) (hlog₃ _), hfind₃, if_neg (by simp), hfind₂, if_pos rfl]
  · rw [hdiff.find? (by simp) (hlog₃ _), hfind₃, if_pos rfl, hr]
  · rw [← hw, recordIn_congr hdiff.records hdiff.clock, hs₃, ← hr]
    exact hheld
  · rw [hdiff.home, hs₃, hs₂]
    rfl
  · rw [hdiff.journal, hs₃, hs₂]
  · rw [hdiff.locked, hs₃, hs₂]
  · rw [hdiff.clock, hs₃, hs₂]
  · intro a ha ha'
    rw [hdiff.find? (by simp) (hlog₃ a), hfind₃, if_neg (Ne.symm ha'), hfind₂, if_neg (Ne.symm ha)]

/-- A key is claimed in one step, if there is one. -/
theorem claim_run (hr : Disk.Rooted Disk.maxLinks s.disk b.root A) (l : Option String) :
    (b.nextKey s l = none ∧ (b.claim l).run s = (.error .endless, s)) ∨
    ∃ key, b.nextKey s l = some key ∧ Key.IsKeyName key ∧ s.disk.find? (A ++ [key]) = none ∧
      (b.claim l).run s = (.ok key, { s with disk := s.disk.set (A ++ [key]) .dir }) := by
  cases hnext : b.nextKey s l with
  | none =>
    refine .inl ⟨rfl, ?_⟩
    unfold nextKey at hnext
    simp [claim, hnext]
  | some key =>
    obtain ⟨hfree, hname⟩ := Key.of_first? hnext
    have hkey := hname.isName
    have hnone : s.disk.find? (A ++ [key]) = none := by
      rw [← hr.lookup?_child (l := false) hkey.1 (by simp)]
      simpa using hfree
    have hmake := hr.makeDir hkey.1 hkey.2 hnone
    refine .inr ⟨key, rfl, hname, hnone, ?_⟩
    unfold nextKey at hnext
    simp [claim, hnext, hmake]

/-- It does not matter whether the build root is there already. -/
theorem allocate_made {d : Disk} (hmade : s.disk.makeDirs b.root = .ok d)
    (hd : Disk.Rooted Disk.maxLinks d b.root A) : b.allocate.run s = b.allocate.run { s with disk := d } := by
  unfold allocate
  rw [run_bind_ok (Session.run_write_ok (f := (·.makeDirs b.root)) hmade),
    run_bind_ok (Session.makeDirs_run (s := { s with disk := d }) hd)]

/-- Without pointers that can be read there is no new workspace. -/
theorem allocate_unreadable (hs : Ready b.root A s) {f : Fault}
    (hload : b.pointers.load s.disk = .error f) : b.allocate.run s = (.error f, s) := by
  unfold allocate
  rw [run_bind_ok (Session.makeDirs_run hs.rooted)]
  refine run_bind_error ?_
  unfold Pointers.get
  rw [show checkAlias latest = .ok () by rfl, Action.lift_ok_bind]
  exact Session.run_read_error hload _

/-- An allocation changes nothing unless it gives out a key. -/
theorem allocate_run (hs : Ready b.root A s) (hclosed : Disk.Closed A s.disk)
    (hlog : s.journal.file = none) {B : Bindings} (hload : b.pointers.load s.disk = .ok B) :
    (∃ f, b.allocate.run s = (.error f, s) ∧
      ∀ l, latestKey ((Assoc.find? B latest).getD .null) = .ok l → b.nextKey s l = none) ∨
    ∃ key l s', b.allocate.run s = (.ok (b.workspace key), s') ∧ b.Allocated A key s s' ∧
      latestKey ((Assoc.find? B latest).getD .null) = .ok l ∧ b.nextKey s l = some key := by
  unfold allocate
  rw [run_bind_ok (Session.makeDirs_run hs.rooted),
    run_bind_ok (get_run hload (by decide))]
  cases hlatest : latestKey ((Assoc.find? B latest).getD .null) with
  | error f => exact .inl ⟨f, rfl, by simp⟩
  | ok l =>
    rw [Action.lift_ok_bind]
    rcases claim_run hs.rooted l with ⟨hnext, hclaim⟩ | ⟨key, hnext, hname, hnone, hclaim⟩
    · refine .inl ⟨.endless, run_bind_error hclaim, ?_⟩
      rintro l' ⟨⟩
      exact hnext
    · obtain ⟨s', hrun, hallocated⟩ := start_run hs hclosed hlog hname hnone
      exact .inr ⟨key, l, s', (run_bind_ok hclaim).trans hrun, hallocated, rfl, hnext⟩

end BuildDir

end FlowPlan

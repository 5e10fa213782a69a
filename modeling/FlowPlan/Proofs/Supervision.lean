import FlowPlan.Proofs.Phases

/-!
# The course of an attempt

An attempt enters, runs its phases and ends well or badly. What becomes of its record and of the
pointers is decided by how far it comes and by which links cannot be shown.

## Main definitions

* `Workspace.Passes` — what no moment of an attempt changes.
* `Supervision.Noted`, `Supervision.Failed` — what a failure leaves, with any file of the pointers and with
  one that can be read.
* `Builder.Course` — how an attempt can go.

## Main statements

* `Supervision.complete_run`, `Supervision.abort_run` — the two ends.
* `Builder.supervise_run` — the whole.
-/

namespace FlowPlan

open FlowPlan.Action Site Pointers

namespace Pointers

/-- The name of the pointers' file, of a link or of its preparation. -/
def IsReserved (n : String) : Prop := n = storeName ∨ ∃ m ∈ aliases, n = m ∨ n = Path.temporary m

theorem ne_reserved_of_isKeyName {key : String} (h : Key.IsKeyName key) : ¬ IsReserved key := by
  have hheads : (storeName.toList.head?.any Text.isDigit) = false ∧
      ∀ m ∈ aliases, (m.toList.head?.any Text.isDigit) = false ∧
        ((Path.temporary m).toList.head?.any Text.isDigit) = false := by decide +kernel
  rintro (heq | ⟨m, hm, heq | heq⟩)
  · exact h.ne hheads.1 heq
  · exact h.ne (hheads.2 m hm).1 heq
  · exact h.ne (hheads.2 m hm).2 heq

/-- Nothing but the pointers, their links and the log has changed. -/
structure Repoints (A : Address) (s s' : Site) : Prop where
  differs : Differs (fun a => a = A ++ [storeName] ∨ IsLinkOf A aliases a) s s'
  sameDirs : s.disk.SameDirs s'.disk

variable {p : Pointers} {A : Address} {s s' s'' : Site}

theorem Repoints.trans (h : Repoints A s s') (h' : Repoints A s' s'') : Repoints A s s'' :=
  ⟨h.differs.trans h'.differs, h.sameDirs.trans h'.sameDirs⟩

theorem isLinkOf_aliases {names : List String} (h : ∀ n ∈ names, n ∈ aliases) {a : Address}
    (ha : a = A ++ [storeName] ∨ IsLinkOf A names a) :
    a = A ++ [storeName] ∨ IsLinkOf A aliases a :=
  ha.imp_right fun ⟨n, hn, ha⟩ => ⟨n, h n hn, ha⟩

theorem Updated.repoints {changes : Bindings} {α : Type} {r : Except Fault α}
    (h : Updated p A changes s r s') (hal : ∀ c ∈ changes, c.1 ∈ aliases) : Repoints A s s' :=
  ⟨h.differs.mono fun _ => isLinkOf_aliases (by simpa using hal), h.sameDirs⟩

theorem Promoted.repoints {k : String} {α : Type} {r : Except Fault α}
    (h : Promoted p A k s r s') : Repoints A s s' :=
  ⟨h.differs.mono fun _ => isLinkOf_aliases (by decide), h.sameDirs⟩

theorem repoints_of_differs (h : Differs (fun _ => False) s s') : Repoints A s s' :=
  ⟨h.mono fun _ ha => ha.elim, h.sameDirs⟩

end Pointers

namespace Workspace

/-- What no moment of an attempt changes: the way to the build root, what lies in it beside the
pointers, and the records of other attempts. -/
structure Passes (w : Workspace) (A : Address) (s s' : Site) : Prop where
  rooted : Disk.KeepsRooted w.root A s.disk s'.disk
  own : ∀ n, ¬ IsReserved n → s'.disk.find? (A ++ [n]) = s.disk.find? (A ++ [n])
  dirs : ∀ n, s'.disk.find? (A ++ [n]) = some .dir ↔ s.disk.find? (A ++ [n]) = some .dir
  others : ∀ k, k ≠ w.key → s'.disk.find? (A ++ [k] ++ [recordName]) =
    s.disk.find? (A ++ [k] ++ [recordName])
  record : s'.disk.find? (A ++ [w.key] ++ [recordName]) ≠ some .dir
  closed : Disk.Closed A s'.disk
  journal : s'.journal = s.journal
  locked : s'.locked = s.locked
  clock : s'.clock = s.clock

variable {w : Workspace} {A : Address} {s s' s'' : Site}

theorem Passes.trans (h : Passes w A s s') (h' : Passes w A s' s'') : Passes w A s s'' where
  rooted := h.rooted.trans h'.rooted
  own n hn := (h'.own n hn).trans (h.own n hn)
  dirs n := (h'.dirs n).trans (h.dirs n)
  others k hk := (h'.others k hk).trans (h.others k hk)
  record := h'.record
  closed := h'.closed
  journal := h'.journal.trans h.journal
  locked := h'.locked.trans h.locked
  clock := h'.clock.trans h.clock

/-- Every workspace of the build root stands as before. -/
theorem Passes.stands_of {w' : Workspace} (h : Passes w A s s') (hroot : w'.root = w.root) (hs : Stands w' A s) :
    Stands w' A s' where
  ready := hs.ready.of_keepsRooted (hroot ▸ h.rooted) h.journal
  name := hs.name
  dir := (h.dirs w'.key).2 hs.dir
  record := by
    by_cases hkey : w'.key = w.key
    · rw [hkey]
      exact h.record
    · rw [h.others _ hkey]
      exact hs.record

theorem Passes.stands (h : Passes w A s s') (hs : Stands w A s) : Stands w A s' := h.stands_of rfl hs

theorem Passes.clear (h : Passes w A s s') (n : String) : s'.disk.Clear A n ↔ s.disk.Clear A n :=
  and_congr (not_congr (h.dirs _)) (not_congr (h.dirs _))

theorem Passes.blocked {p : Pointers} (h : Passes w A s s') (change : String × Json) :
    p.Blocked s'.disk A change ↔ p.Blocked s.disk A change := by
  unfold Blocked Shows
  rw [h.clear]

theorem Within.passes (h : Within w A s s') : Passes w A s s' :=
  ⟨h.rooted, fun n _ => h.own n, fun n => by rw [h.own n], h.others, h.record, h.closed, h.journal,
    h.locked, h.clock⟩

/-- What is below the directories of the build root is not touched by the pointers. -/
theorem grandchild_of_repoints (h : Repoints A s s') (hs : Ready w.root A s) (k : String) {n : String}
    (hn : n ≠ logName) :
    s'.disk.find? (A ++ [k] ++ [n]) = s.disk.find? (A ++ [k] ++ [n]) := by
  refine h.differs.find? ?_ (hs.not_isLog_grandchild k hn)
  rintro (heq | ⟨m, -, heq | heq⟩) <;> simp at heq

theorem passes_of_repoints (h : Repoints A s s') (hs : Stands w A s) (hc : Disk.Closed A s.disk) :
    Passes w A s s' := by
  have hbelow : ∀ a, a = A ++ [storeName] ∨ IsLinkOf A aliases a → Address.Below A a :=
    fun a ha => ha.elim (by rintro rfl; exact Disk.below_child A _) isLinkOf_below
  refine ⟨(h.differs.keepsWays hs.ready hbelow).keepsRooted _, fun n hn => ?_, fun n => h.sameDirs _,
    fun k _ => grandchild_of_repoints h hs.ready k (by decide), ?_, fun k n hk => ?_, h.differs.journal,
    h.differs.locked, h.differs.clock⟩
  · refine h.differs.find? ?_ (hs.ready.not_isLog_child n)
    rintro (heq | ⟨m, hm, heq | heq⟩)
    · exact hn (.inl (by simpa using heq))
    · exact hn (.inr ⟨m, hm, .inl (by simpa using heq)⟩)
    · exact hn (.inr ⟨m, hm, .inr (by simpa using heq)⟩)
  · rw [grandchild_of_repoints h hs.ready w.key (by decide)]
    exact hs.record
  · have hnone := hc k n (mt (h.sameDirs _).2 hk)
    rcases h.differs.kept (A ++ [k] ++ [n]) (by
      rintro (heq | ⟨m, -, heq | heq⟩) <;> simp at heq) with heq | ⟨-, c, -, hfile, -⟩
    · rw [heq, hnone]
    · rw [hnone] at hfile
      cases hfile

/-- The record on disk is this one. -/
def Records (w : Workspace) (A : Address) (d : Disk) (r : Record) : Prop :=
  d.find? (A ++ [w.key] ++ [recordName]) = some (.file (.json r.toJson.sortKeys))

theorem passes_records (hs : Stands w A s) (hc : Disk.Closed A s.disk) (m : Assoc String Record) :
    Passes w A s { s with records := m } :=
  ⟨.refl _ A _, fun _ _ => rfl, fun _ => .rfl, fun _ _ => rfl, hs.record, hc, rfl, rfl, rfl⟩

theorem records_of_repoints (h : Repoints A s s') (hs : Stands w A s) {r : Record}
    (hr : Records w A s.disk r) : Records w A s'.disk r :=
  (grandchild_of_repoints h hs.ready w.key (by decide)).trans hr

/-- The record on disk says that the attempt has ended like this. -/
def Ended (w : Workspace) (A : Address) (d : Disk) (status exitStatus error : Json) : Prop :=
  ∃ r, Records w A d r ∧ r.status = status ∧ r.exitStatus = exitStatus ∧ r.error = error

theorem Ended.status {d : Disk} {status exitStatus error : Json}
    (h : Ended w A d status exitStatus error) : ∃ r, Records w A d r ∧ r.status = status := by
  obtain ⟨r, hr, hstatus, -⟩ := h
  exact ⟨r, hr, hstatus⟩

theorem Ended.of_repoints {status exitStatus error : Json} (h : Ended w A s.disk status exitStatus error)
    (hs : Stands w A s) (hp : Repoints A s s') : Ended w A s'.disk status exitStatus error := by
  obtain ⟨r, hr, hends⟩ := h
  exact ⟨r, records_of_repoints hp hs hr, hends⟩

/-- The record with an end is held and written. -/
theorem finishSave_run (hs : Stands w A s) (hc : Disk.Closed A s.disk) (status exitStatus error : Json) :
    ∃ s', (do w.finish status exitStatus error; w.saveRecord : Session Unit).run s = (.ok (), s') ∧
      Passes w A s s' ∧ Ended w A s'.disk status exitStatus error ∧
      (∀ a, a ≠ A ++ [w.key] ++ [recordName] → s'.disk.find? a = s.disk.find? a) := by
  obtain ⟨m, hm⟩ : ∃ m, m = Assoc.set s.records w.path.text
      ((w.recordIn s).finish s.clock status exitStatus error) := ⟨_, rfl⟩
  obtain ⟨s₁, hs₁⟩ : ∃ s₁ : Site, s₁ = { s with records := m } := ⟨_, rfl⟩
  have hpass : Passes w A s s₁ := hs₁ ▸ passes_records hs hc m
  have hfinish : (w.finish status exitStatus error).run s = (.ok (), s₁) := by
    rw [hs₁, hm]
    rfl
  have hsave := saveRecord_run (hpass.stands hs)
  have hheld : w.recordIn s₁ = (w.recordIn s).finish s.clock status exitStatus error := by
    rw [hs₁, hm]
    exact recordIn_setRecord w s _
  refine ⟨_, (run_bind_ok hfinish).trans hsave,
    hpass.trans (within_set (hpass.stands hs) hpass.closed (.inr (by simp))).passes,
    ⟨w.recordIn s₁, ?_, ?_⟩, ?_⟩
  · unfold Records
    rw [Disk.find?_set_child, if_pos rfl]
  · rw [hheld]
    exact ⟨rfl, rfl, rfl⟩
  · intro a ha
    rw [Disk.find?_set_child, if_neg (Ne.symm ha), hs₁]

end Workspace

namespace Supervision

open Workspace

variable {v : Supervision} {A : Address} {s : Site}

/-! ## The two ends -/

/-- The file of the pointers is no link. -/
def Unlinked (A : Address) (d : Disk) : Prop := ∀ t, d.find? (A ++ [storeName]) ≠ some (.link t)

theorem load_of_unlinked {p : Pointers} {d d' : Disk} (hr : Disk.Rooted Disk.maxLinks d p.root A)
    (hr' : Disk.Rooted Disk.maxLinks d' p.root A) (hun : Unlinked A d)
    (h : d'.find? (A ++ [storeName]) = d.find? (A ++ [storeName])) : p.load d' = p.load d :=
  load_congr (hr.locate_child isName_storeName.1 fun _ => hun)
    (hr'.locate_child isName_storeName.1 fun _ t => h ▸ hun t) h

theorem load_of_kept {p : Pointers} {d d' : Disk} (hr : Disk.Rooted Disk.maxLinks d p.root A)
    (hr' : Disk.Rooted Disk.maxLinks d' p.root A)
    (hstored : ∃ fs, d.find? (A ++ [storeName]) = some (.file (.json (.obj fs))))
    (h : d'.find? (A ++ [storeName]) = d.find? (A ++ [storeName])) : p.load d' = p.load d := by
  obtain ⟨fs, hf⟩ := hstored
  rw [load_of_file hr hf, load_of_file hr' (h.trans hf)]

theorem bound_congr {p : Pointers} {d d' : Disk} (h : p.load d' = p.load d) :
    p.bound d' = p.bound d := by
  unfold bound
  rw [h]

/-- The pointers' file has been written, and the record can be. -/
structure Underway (v : Supervision) (A : Address) (s : Site) : Prop where
  root : v.directory.pointers.root = v.workspace.root
  stands : Stands v.workspace A s
  closed : Disk.Closed A s.disk
  stored : ∃ fs, s.disk.find? (A ++ [storeName]) = some (.file (.json (.obj fs)))

theorem Underway.ready (h : Underway v A s) : Ready v.directory.pointers.root A s := by
  rw [h.root]
  exact h.stands.ready

theorem Underway.of_passes {s' : Site} (h : Underway v A s) (hp : Passes v.workspace A s s')
    (hstore : s'.disk.find? (A ++ [storeName]) = s.disk.find? (A ++ [storeName])) :
    Underway v A s' ∧ v.directory.pointers.bound s'.disk = v.directory.pointers.bound s.disk := by
  have hstands := hp.stands h.stands
  have hready' : Ready v.directory.pointers.root A s' := by
    rw [h.root]
    exact hstands.ready
  exact ⟨⟨h.root, hstands, hp.closed, hstore ▸ h.stored⟩,
    bound_congr (load_of_kept h.ready.rooted hready'.rooted h.stored hstore)⟩

theorem Underway.of_repoints {s' : Site} (h : Underway v A s) (hp : Repoints A s s') :
    Passes v.workspace A s s' := passes_of_repoints hp h.stands h.closed

/-- What goes to the log changes no binding. -/
theorem bound_of_differs {p : Pointers} {s' : Site} (hs : Ready p.root A s)
    (hstored : ∃ fs, s.disk.find? (A ++ [storeName]) = some (.file (.json (.obj fs))))
    (hd : Differs (fun _ => False) s s') : p.bound s'.disk = p.bound s.disk :=
  bound_congr (load_of_kept hs.rooted (hd.ready hs (by simp)).rooted hstored
    (hd.find? (by simp) (hs.not_isLog_child _)))

/-- The bindings once this attempt is no longer the running one; another one stays. -/
def released (f : String → Option Json) (key : String) : String → Option Json :=
  if f running = some (.str key) then rebound f (running, .null) else f

theorem released_of_running {f : String → Option Json} {key : String} (h : f running = some (.str key)) :
    released f key = rebound f (running, .null) := if_pos h

theorem released_of_ne {f : String → Option Json} {key : String} (h : f running ≠ some (.str key)) :
    released f key = f := if_neg h

theorem released_other (f : String → Option Json) (key : String) {n : String} (hn : n ≠ running) :
    released f key n = f n := by
  unfold released
  split
  · exact rebound_of_ne f hn.symm _
  · rfl

/-- The last step of both ends: the attempt is no longer the running one. -/
theorem removeRunning_run (h : Underway v A s) :
    ∃ s', (discard (v.directory.pointers.removeIf running v.key) : Session Unit).run s = (.ok (), s') ∧
      Repoints A s s' ∧ Ready v.directory.pointers.root A s' ∧
      (∃ fs, s'.disk.find? (A ++ [storeName]) = some (.file (.json (.obj fs)))) ∧
      v.directory.pointers.bound s'.disk =
        released (v.directory.pointers.bound s.disk) v.workspace.key := by
  obtain ⟨b, s', hrun, hdiff, hdirs, hstored, hbound, hkept⟩ :=
    removeIf_run h.ready h.stored running (by decide) v.workspace.key
  have hpoints : Repoints A s s' := ⟨hdiff.mono fun _ => isLinkOf_aliases (by decide), hdirs⟩
  refine ⟨s', run_bind_ok hrun, hpoints, ?_, hstored, ?_⟩
  · rw [h.root]
    exact ((h.of_repoints hpoints).stands h.stands).ready
  · by_cases hrunning : v.directory.pointers.bound s.disk running = some (.str v.workspace.key)
    · rw [hbound hrunning, released_of_running hrunning]
    · rw [hkept hrunning, released_of_ne hrunning]

/-- A record in progress is completed, and the record is written. -/
theorem completeSave_run (hs : Stands v.workspace A s) (hc : Disk.Closed A s.disk) :
    ∃ s', (do v.completeRecord; v.workspace.saveRecord : Session Unit).run s = (.ok (), s') ∧
      Passes v.workspace A s s' ∧
      ((v.workspace.recordIn s).status = .str Record.running →
        Ended v.workspace A s'.disk (.str Record.completed) (.int 0) .null) ∧
      (∀ a, a ≠ A ++ [v.workspace.key] ++ [recordName] → s'.disk.find? a = s.disk.find? a) := by
  have hfirst : v.completeRecord.run s =
      (if (v.workspace.recordIn s).status = .str Record.running then
        v.workspace.finish (.str Record.completed) (.int 0) .null else pure () : Session Unit).run s := rfl
  rw [run_bind, hfirst, ← run_bind]
  by_cases hstatus : (v.workspace.recordIn s).status = .str Record.running
  · rw [if_pos hstatus]
    obtain ⟨s', hrun, hpass, hended, hkept⟩ := finishSave_run hs hc (.str Record.completed) (.int 0) .null
    exact ⟨s', hrun, hpass, fun _ => hended, hkept⟩
  · rw [if_neg hstatus]
    refine ⟨_, saveRecord_run hs, (within_set hs hc (.inr (by simp))).passes,
      fun h => absurd h hstatus, fun a ha => ?_⟩
    rw [Disk.find?_set_child, if_neg (Ne.symm ha)]

/-- At a good end a record in progress is completed, and the attempt no longer runs. -/
theorem complete_run (h : Underway v A s) :
    ∃ s', v.complete.run s = (.ok (), s') ∧ Passes v.workspace A s s' ∧
      ((v.workspace.recordIn s).status = .str Record.running →
        Ended v.workspace A s'.disk (.str Record.completed) (.int 0) .null) ∧
      (∃ fs, s'.disk.find? (A ++ [storeName]) = some (.file (.json (.obj fs)))) ∧
      v.directory.pointers.bound s'.disk =
        released (v.directory.pointers.bound s.disk) v.workspace.key := by
  obtain ⟨s₁, hrun₁, hpass₁, hended₁, hkept⟩ := completeSave_run h.stands h.closed
  obtain ⟨h₁, hbound₁⟩ := h.of_passes hpass₁ (hkept _ (by simp))
  obtain ⟨s₂, hrun₂, hpoints₂, hready₂, hstored₂, hbound₂⟩ := removeRunning_run h₁
  obtain ⟨s₃, hrun₃, hdiff₃⟩ := Session.info_run logger
    s!"Build completed in workspace {v.workspace.key}" "build_completed" none none s₂
  have hpoints := hpoints₂.trans (repoints_of_differs hdiff₃)
  refine ⟨s₃, ?_, hpass₁.trans (h₁.of_repoints hpoints),
    fun hstatus => (hended₁ hstatus).of_repoints h₁.stands hpoints, ?_, ?_⟩
  · unfold complete
    rw [← bind_assoc, run_bind_ok hrun₁, run_bind_ok hrun₂, hrun₃]
  · rw [hdiff₃.find? (by simp) (hready₂.not_isLog_child _)]
    exact hstored₂
  · rw [bound_of_differs hready₂ hstored₂ hdiff₃, hbound₂, hbound₁]

/-! ### A failure -/

/-- What a failure leaves. The attempt may still be bound as the running one if the alias of the failure
cannot be shown. -/
structure Failed (v : Supervision) (f : Fault) (A : Address) (s s' : Site) : Prop where
  passes : Passes v.workspace A s s'
  stored : ∃ fs, s'.disk.find? (A ++ [storeName]) = some (.file (.json (.obj fs)))
  ended : Ended v.workspace A s'.disk (.str Record.aborted) f.recordedStatus (.str f.describe)
  blocked : v.directory.pointers.Blocked s.disk A (aborted, v.key) →
    v.directory.pointers.bound s'.disk = rebound (v.directory.pointers.bound s.disk) (aborted, v.key)
  shown : ¬ v.directory.pointers.Blocked s.disk A (aborted, v.key) →
    v.directory.pointers.bound s'.disk =
      released (rebound (v.directory.pointers.bound s.disk) (aborted, v.key)) v.workspace.key

theorem Failed.shown_running {f : Fault} {s' : Site} (h : Failed v f A s s')
    (hshown : ¬ v.directory.pointers.Blocked s.disk A (aborted, v.key))
    (hrunning : v.directory.pointers.bound s.disk running = some (.str v.workspace.key)) :
    v.directory.pointers.bound s'.disk =
      rebound (rebound (v.directory.pointers.bound s.disk) (aborted, v.key)) (running, .null) := by
  rw [h.shown hshown, released_of_running]
  rw [rebound_of_ne _ (by decide), hrunning]

theorem Failed.after_passes {f : Fault} {s₁ s' : Site} (h : Failed v f A s₁ s')
    (hpass : Passes v.workspace A s s₁)
    (hbound : v.directory.pointers.bound s₁.disk = v.directory.pointers.bound s.disk) : Failed v f A s s' := by
  obtain ⟨hpass', hstored, hended, hblocked, hshown⟩ := h
  rw [hpass.blocked, hbound] at hblocked hshown
  exact ⟨hpass.trans hpass', hstored, hended, hblocked, hshown⟩

/-- What writing a failure down comes to, whatever the file of the pointers holds. A file that cannot be read
is left as it is. -/
structure Noted (v : Supervision) (f : Fault) (A : Address) (s s' : Site) : Prop where
  passes : Passes v.workspace A s s'
  ended : Ended v.workspace A s'.disk (.str Record.aborted) f.recordedStatus (.str f.describe)
  unread : Unlinked A s.disk → (∃ g, v.directory.pointers.load s.disk = .error g) →
    s'.disk.find? (A ++ [storeName]) = s.disk.find? (A ++ [storeName])
  read : Unlinked A s.disk → (∃ B, v.directory.pointers.load s.disk = .ok B) → Failed v f A s s'

/-- What can be written down in any case: the workspace stands in the build root of the pointers. -/
structure Lodged (v : Supervision) (A : Address) (s : Site) : Prop where
  root : v.directory.pointers.root = v.workspace.root
  stands : Stands v.workspace A s
  closed : Disk.Closed A s.disk

theorem Underway.lodged (h : Underway v A s) : Lodged v A s := ⟨h.root, h.stands, h.closed⟩

theorem Lodged.ready (h : Lodged v A s) : Ready v.directory.pointers.root A s := by
  rw [h.root]
  exact h.stands.ready

theorem Lodged.of_passes {s' : Site} (h : Lodged v A s) (hp : Passes v.workspace A s s') : Lodged v A s' :=
  ⟨h.root, hp.stands h.stands, hp.closed⟩

/-- What leaves the file of the pointers alone leaves the bindings. -/
theorem Lodged.load_eq {s' : Site} (h : Lodged v A s) (h' : Lodged v A s') (hun : Unlinked A s.disk)
    (hstore : s'.disk.find? (A ++ [storeName]) = s.disk.find? (A ++ [storeName])) :
    v.directory.pointers.load s'.disk = v.directory.pointers.load s.disk :=
  load_of_unlinked h.ready.rooted h'.ready.rooted hun hstore

theorem Noted.after_passes {f : Fault} {s₁ s' : Site} (h : Noted v f A s₁ s') (hs : Lodged v A s)
    (hpass : Passes v.workspace A s s₁)
    (hstore : s₁.disk.find? (A ++ [storeName]) = s.disk.find? (A ++ [storeName])) : Noted v f A s s' := by
  have hload (hun : Unlinked A s.disk) := hs.load_eq (hs.of_passes hpass) hun hstore
  have hun₁ : Unlinked A s.disk → Unlinked A s₁.disk := fun hun t => hstore ▸ hun t
  refine ⟨hpass.trans h.passes, h.ended, fun hun hg => ?_, fun hun hB => ?_⟩
  · rw [h.unread (hun₁ hun) (by rwa [hload hun]), hstore]
  · exact (h.read (hun₁ hun) (by rwa [hload hun])).after_passes hpass (bound_congr (hload hun))

/-- The alias is bound, and the attempt no longer runs. -/
theorem bindAborted_run (h : Lodged v A s) {B : Bindings} (hload : v.directory.pointers.load s.disk = .ok B)
    {f : Fault} (hended : Ended v.workspace A s.disk (.str Record.aborted) f.recordedStatus (.str f.describe)) :
    ∃ e s', (do
      v.directory.pointers.set Pointers.aborted v.key
      discard (v.directory.pointers.removeIf running v.key) : Session Unit).run s = (e, s') ∧
        Failed v f A s s' := by
  obtain ⟨e, s₁, hrun₁, hup⟩ := set_run h.ready hload aborted (by decide) v.key
  have hpoints₁ := hup.repoints (by simp; decide)
  have hpass₁ := passes_of_repoints hpoints₁ h.stands h.closed
  have hbound₁ : v.directory.pointers.bound s₁.disk =
      rebound (v.directory.pointers.bound s.disk) (aborted, v.key) := hup.bound
  have hok := hup.ok
  simp only [List.forall_mem_singleton] at hok
  have h₁ : Underway v A s₁ := ⟨h.root, hpass₁.stands h.stands, hpass₁.closed, hup.stored⟩
  have hended₁ := hended.of_repoints h.stands hpoints₁
  cases e with
  | error g =>
    have hb : v.directory.pointers.Blocked s.disk A (aborted, v.key) := by simpa using hok
    exact ⟨_, s₁, run_bind_error hrun₁, hpass₁, h₁.stored, hended₁, fun _ => hbound₁,
      fun hnb => absurd hb hnb⟩
  | ok u =>
    have hnb := hok.1 ⟨u, rfl⟩
    obtain ⟨s₂, hrun₂, hpoints₂, -, hstored₂, hbound₂⟩ := removeRunning_run h₁
    exact ⟨_, s₂, (run_bind_ok hrun₁).trans hrun₂, hpass₁.trans (h₁.of_repoints hpoints₂), hstored₂,
      hended₁.of_repoints h₁.stands hpoints₂, fun hb => absurd hb hnb, fun _ => by rw [hbound₂, hbound₁]⟩

/-- The failure is written down: the record is aborted first, and then the alias is bound, if the pointers can
be read. -/
theorem recordFailure_run (h : Lodged v A s) (f : Fault) :
    ∃ e s', (v.recordFailure f).run s = (e, s') ∧ Noted v f A s s' := by
  obtain ⟨s₁, hrun₁, hpass₁, hended₁, hkept⟩ := finishSave_run h.stands h.closed
    (.str Record.aborted) f.recordedStatus (.str f.describe)
  have hstore : s₁.disk.find? (A ++ [storeName]) = s.disk.find? (A ++ [storeName]) := hkept _ (by simp)
  have h₁ := h.of_passes hpass₁
  have hsplit : (v.recordFailure f).run s = (do
      v.directory.pointers.set Pointers.aborted v.key
      discard (v.directory.pointers.removeIf running v.key) : Session Unit).run s₁ := by
    unfold recordFailure
    rw [← bind_assoc, run_bind_ok hrun₁]
  rw [hsplit]
  cases hload : v.directory.pointers.load s₁.disk with
  | error g =>
    have hset : (v.directory.pointers.set Pointers.aborted v.key).run s₁ = (.error g, s₁) :=
      run_bind_error ((run_bind_ok (checkAliases_run (by simp; decide) s₁)).trans
        (Session.run_read_error hload _))
    refine ⟨_, s₁, run_bind_error hset, hpass₁, hended₁, fun _ _ => hstore, fun hun hB => ?_⟩
    rw [← h.load_eq h₁ hun hstore, hload] at hB
    simp at hB
  | ok B =>
    obtain ⟨e, s₂, hrun₂, hfailed⟩ := bindAborted_run h₁ hload hended₁
    refine ⟨e, s₂, hrun₂, hpass₁.trans hfailed.passes, hfailed.ended, fun hun hg => ?_, fun hun _ => ?_⟩
    · rw [← h.load_eq h₁ hun hstore, hload] at hg
      simp at hg
    · exact hfailed.after_passes hpass₁ (bound_congr (h.load_eq h₁ hun hstore))

variable {f : Fault}

theorem Lodged.of_log {s' : Site} (h : Lodged v A s) (hd : Differs (fun _ => False) s s') :
    Passes v.workspace A s s' ∧ s'.disk.find? (A ++ [storeName]) = s.disk.find? (A ++ [storeName]) :=
  ⟨passes_of_repoints (repoints_of_differs hd) h.stands h.closed,
    hd.find? (by simp) (h.ready.not_isLog_child _)⟩

theorem Noted.of_log {s' s'' : Site} (h : Noted v f A s s') (hs : Lodged v A s)
    (hd : Differs (fun _ => False) s' s'') : Noted v f A s s'' := by
  have hs' := hs.of_passes h.passes
  obtain ⟨hpass, hstore⟩ := hs'.of_log hd
  have hended := h.ended.of_repoints hs'.stands (repoints_of_differs hd)
  refine ⟨h.passes.trans hpass, hended, fun hun hg => hstore.trans (h.unread hun hg), fun hun hB => ?_⟩
  obtain ⟨hpass', hstored, -, hblocked, hshown⟩ := h.read hun hB
  have hbound := bound_of_differs hs'.ready hstored hd
  exact ⟨hpass'.trans hpass, hstore ▸ hstored, hended, fun hb => hbound.trans (hblocked hb),
    fun hb => hbound.trans (hshown hb)⟩

theorem Noted.of_report {s' s'' : Site} (h : Noted v f A s s') (hdisk : s''.disk = s'.disk)
    (hjournal : s''.journal = s'.journal) (hlocked : s''.locked = s'.locked)
    (hclock : s''.clock = s'.clock) : Noted v f A s s'' := by
  obtain ⟨⟨hways, hown, hdirs, hothers, hrec, hclosed, hj, hl, hc⟩, hended, hunread, hread⟩ := h
  rw [← hdisk] at hways hown hdirs hothers hrec hclosed hended hunread
  have hpass : Passes v.workspace A s s'' :=
    ⟨hways, hown, hdirs, hothers, hrec, hclosed, hjournal.trans hj, hlocked.trans hl, hclock.trans hc⟩
  refine ⟨hpass, hended, hunread, fun hun hB => ?_⟩
  obtain ⟨-, hstored, -, hblocked, hshown⟩ := hread hun hB
  rw [← hdisk] at hstored hblocked hshown
  exact ⟨hpass, hstored, hended, hblocked, hshown⟩

/-- How the report of a failure ends: it fails if the log has no excerpt. -/
def reported (v : Supervision) (d : Disk) : Except Fault Unit :=
  if v.quiet then (excerpt v.excerptLines v.workspace.logPath d).map fun _ => () else .ok ()

/-- The report of a failure leaves the disk alone. -/
theorem report_run (s : Site) :
    ∃ s', (if v.quiet then v.reportFailure else pure () : Session Unit).run s = (v.reported s.disk, s') ∧
      s'.disk = s.disk ∧ s'.journal = s.journal ∧ s'.locked = s.locked ∧ s'.clock = s.clock := by
  unfold reported
  split
  · unfold reportFailure
    dsimp only
    cases hread : excerpt v.excerptLines v.workspace.logPath s.disk with
    | error f => exact ⟨s, Session.run_read_error hread _, rfl, rfl, rfl, rfl⟩
    | ok lines => exact ⟨_, Session.run_read_ok hread _, rfl, rfl, rfl, rfl⟩
  · exact ⟨s, rfl, rfl, rfl, rfl, rfl⟩

/-- A failure is written down whatever the file of the pointers holds, and then reported. -/
theorem abort_run (h : Lodged v A s) (f : Fault) :
    ∃ s', (v.abort f).run s = (v.reported s'.disk, s') ∧ Noted v f A s s' := by
  obtain ⟨s₁, hrun₁, hdiff₁⟩ := Session.error_run logger s!"Build aborted: {f.message}" "build_aborted"
    none (some (abortion f)) (if f.isBuildFailure then none else some f) s
  obtain ⟨hpass₁, hstore₁⟩ := h.of_log hdiff₁
  obtain ⟨e, s₂, hrun₂, hnoted₂⟩ := recordFailure_run (h.of_passes hpass₁) f
  have hnoted := hnoted₂.after_passes h hpass₁ hstore₁
  -- Whatever is reported afterwards changes neither the pointers nor the record.
  have hend : ∀ t, Noted v f A s t →
      ∃ s', (if v.quiet then v.reportFailure else pure () : Session Unit).run t = (v.reported s'.disk, s') ∧
        Noted v f A s s' := by
    intro t ht
    obtain ⟨s', hrun, hdisk, hjournal, hlocked, hclock⟩ := report_run (v := v) t
    exact ⟨s', by rw [hrun, hdisk], ht.of_report hdisk hjournal hlocked hclock⟩
  have houtcome : (Action.outcome (v.recordFailure f)).run s₁ = (.ok e, s₂) := by
    rw [run_outcome, hrun₂]
  unfold abort
  rw [run_bind_ok hrun₁, run_bind_ok houtcome]
  cases e with
  | ok u => exact hend s₂ hnoted
  | error g =>
    obtain ⟨s₃, hrun₃, hdiff₃⟩ := Session.error_run logger
      s!"Could not record aborted workspace {v.workspace.key}: {g.message}" "bookkeeping_failed"
      none none none s₂
    dsimp only
    rw [run_bind_ok hrun₃]
    exact hend s₃ (hnoted.of_log h hdiff₃)

/-- If the pointers have been written, they tell of the failure, too. -/
theorem abort_failed (h : Underway v A s) (f : Fault) :
    ∃ e s', (v.abort f).run s = (e, s') ∧ Failed v f A s s' := by
  obtain ⟨s', hrun, hnoted⟩ := abort_run h.lodged f
  obtain ⟨fs, hf⟩ := h.stored
  exact ⟨_, s', hrun, hnoted.read (fun t => by simp [hf]) (load_isOk_of_stored h.ready.rooted h.stored)⟩

/-! ## The beginning -/

/-- The bindings once a key has become the latest and the running one. -/
def entered (f : String → Option Json) (key : String) : String → Option Json :=
  rebound (rebound f (latest, .str key)) (running, .str key)

/-- The workspace becomes the latest and the running one. -/
theorem enter_run (hroot : v.directory.root = v.workspace.root) (hs : Stands v.workspace A s) {B : Bindings}
    (hload : v.directory.pointers.load s.disk = .ok B) :
    ∃ r s', v.enter.run s = (r, s') ∧ Repoints A s s' ∧
      (∃ fs, s'.disk.find? (A ++ [storeName]) = some (.file (.json (.obj fs)))) ∧
      v.directory.pointers.bound s'.disk = entered (v.directory.pointers.bound s.disk) v.workspace.key ∧
      (r = .ok () ↔ ¬ v.directory.pointers.Blocked s.disk A (latest, v.key) ∧
        ¬ v.directory.pointers.Blocked s.disk A (running, v.key)) ∧ s'.records = s.records := by
  have hready : Ready v.directory.pointers.root A s := by
    change Ready v.directory.root A s
    rw [hroot]
    exact hs.ready
  obtain ⟨r, s₁, hrun, hup⟩ := update_run hready hload [(latest, v.key), (running, v.key)]
    (by simp; decide)
  have hpoints := hup.repoints (by simp; decide)
  have hok := hup.ok
  simp only [List.forall_mem_cons] at hok
  cases r with
  | error f =>
    refine ⟨.error f, s₁, run_bind_error (run_bind_error hrun), hpoints, hup.stored, hup.bound, ?_,
      hup.differs.records⟩
    simpa using hok
  | ok B₁ =>
    obtain ⟨s₂, hrun₂, hdiff₂⟩ := Session.info_run logger
      s!"Build started in workspace {v.workspace.key}" "build_started" none
      (some (.obj [("workspace", v.key)])) s₁
    have hready₁ := hup.ready hready
    refine ⟨.ok (), s₂, (run_bind_ok (run_bind_ok hrun)).trans hrun₂,
      hpoints.trans (repoints_of_differs hdiff₂), ?_, ?_, ?_, hdiff₂.records.trans hup.differs.records⟩
    · rw [hdiff₂.find? (by simp) (hready₁.not_isLog_child _)]
      exact hup.stored
    · rw [bound_of_differs hready₁ hup.stored hdiff₂]
      exact hup.bound
    · simpa using hok

/-! ## Between the two ends -/

variable {α : Type} {a : Session α} {s₁ s₂ s₃ : Site}

theorem supervise_unentered {f : Fault} (h : v.enter.run s = (.error f, s₁)) :
    (v.supervise a).run s = (.error f, s₁) := run_bind_error h

/-- The failure that goes on: that of the attempt, or the one that its end comes to. -/
def outlasting (f : Fault) : Except Fault Unit → Fault
  | .ok _ => f
  | .error g => g

/-- A failure of the attempt goes on, unless another one takes its place. -/
theorem supervise_failed {f : Fault} {e : Except Fault Unit} (h : v.enter.run s = (.ok (), s₁))
    (ha : a.run s₁ = (.error f, s₂)) (hend : (v.abort f).run s₂ = (e, s₃)) :
    (v.supervise a).run s = (.error (outlasting f e), s₃) := by
  have houtcome : (Action.outcome a).run s₁ = (.ok (.error f), s₂) := by rw [run_outcome, ha]
  unfold supervise
  rw [run_bind_ok h, run_bind_ok houtcome]
  cases e with
  | ok u => exact run_bind_ok hend
  | error g => exact run_bind_error hend

theorem supervise_completed {x : α} (h : v.enter.run s = (.ok (), s₁))
    (ha : a.run s₁ = (.ok x, s₂)) (hend : v.complete.run s₂ = (.ok (), s₃)) :
    (v.supervise a).run s = (.ok x, s₃) := by
  have houtcome : (Action.outcome a).run s₁ = (.ok (.ok x), s₂) := by rw [run_outcome, ha]
  unfold supervise
  rw [run_bind_ok h, run_bind_ok houtcome]
  exact run_bind_ok hend

end Supervision

/-! ## The whole -/

namespace Builder

open Workspace Supervision

/-- An attempt in a workspace is supervised like this. -/
def supervision (b : Builder) (w : Workspace) : Supervision :=
  { directory := b.directory, workspace := w, quiet := b.quiet }

def pointers (b : Builder) : Pointers := b.directory.pointers

/-- The aliases of an attempt that begins cannot both be shown. -/
def EntryBlocked (b : Builder) (d : Disk) (A : Address) (key : String) : Prop :=
  b.pointers.Blocked d A (latest, .str key) ∨ b.pointers.Blocked d A (running, .str key)

/-- How an attempt goes that starts at `s` and ends with `r` at `s'`. -/
inductive Course (b : Builder) (A : Address) (w : Workspace) (document : Json) (s : Site)
    (r : Except Fault Built) (s' : Site) : Prop
  /-- A link of the beginning cannot be shown. -/
  | unentered (blocked : b.EntryBlocked s.disk A w.key)
      (enter : ∃ f s₁, (b.supervision w).enter.run s = (.error f, s₁)) (error : ∃ f, r = .error f)
      (record : ∃ rec, Records w A s'.disk rec ∧ rec.status = .str Record.running)
      (bound : b.pointers.bound s'.disk = entered (b.pointers.bound s.disk) w.key)
  /-- A phase before the promotion fails. -/
  | rejected (s₁ s₂ : Site) (f : Fault) (unblocked : ¬ b.EntryBlocked s.disk A w.key)
      (enter : (b.supervision w).enter.run s = (.ok (), s₁))
      (judged : (b.judged document w).run s₁ = (.error f, s₂)) (error : ∃ f, r = .error f)
      (bound : b.pointers.bound s₂.disk = entered (b.pointers.bound s.disk) w.key)
      (failed : Failed (b.supervision w) f A s₂ s')
  /-- The promotion fails. -/
  | unpromoted (s₁ s₂ s₃ : Site) (j : Judged) (f : Fault)
      (unblocked : ¬ b.EntryBlocked s.disk A w.key)
      (enter : (b.supervision w).enter.run s = (.ok (), s₁))
      (judged : (b.judged document w).run s₁ = (.ok j, s₂)) (error : ∃ f, r = .error f)
      (bound : b.pointers.bound s₂.disk = entered (b.pointers.bound s.disk) w.key)
      (promoted : Promoted b.pointers A w.key s₂ (.error f : Except Fault Unit) s₃)
      (failed : Failed (b.supervision w) f A s₃ s')
  /-- Everything succeeds. -/
  | completed (s₁ s₂ s₃ : Site) (j : Judged) (built : Built)
      (unblocked : ¬ b.EntryBlocked s.disk A w.key)
      (enter : (b.supervision w).enter.run s = (.ok (), s₁))
      (judged : (b.judged document w).run s₁ = (.ok j, s₂)) (ok : r = .ok built)
      (key : built.key = w.key)
      (bound₂ : b.pointers.bound s₂.disk = entered (b.pointers.bound s.disk) w.key)
      (promoted : Promoted b.pointers A w.key s₂ (.ok () : Except Fault Unit) s₃)
      (ended : Ended w A s'.disk (.str Record.completed) (.int 0) .null)
      (bound : b.pointers.bound s'.disk = rebound (b.pointers.bound s₃.disk) (running, .null))
      (passes : Passes w A s₃ s')

variable {b : Builder} {A : Address} {w : Workspace} {s : Site}

/-- The workspace becomes the latest and the running one. -/
theorem enter_run (hroot : w.root = b.directory.root) (hs : Stands w A s) {B : Bindings}
    (hload : b.pointers.load s.disk = .ok B) :
    ∃ r s', (b.supervision w).enter.run s = (r, s') ∧ Repoints A s s' ∧
      (∃ fs, s'.disk.find? (A ++ [storeName]) = some (.file (.json (.obj fs)))) ∧
      b.pointers.bound s'.disk = entered (b.pointers.bound s.disk) w.key ∧
      (r = .ok () ↔ ¬ b.EntryBlocked s.disk A w.key) ∧ s'.records = s.records := by
  obtain ⟨r, s', hrun, hpoints, hstored, hbound, hok, hrecords⟩ :=
    Supervision.enter_run (v := b.supervision w) hroot.symm hs hload
  exact ⟨r, s', hrun, hpoints, hstored, hbound, hok.trans not_or.symm, hrecords⟩

/-- The workspace becomes the compiled one, if the pointers can be read. -/
theorem promoted_run (hroot : b.directory.root = w.root) (hs : Stands w A s) (hc : Disk.Closed A s.disk)
    {B : Bindings} (hload : b.pointers.load s.disk = .ok B) (j : Judged) :
    ∃ r s', (b.promoted w j).run s = (r, s') ∧ Promoted b.pointers A w.key s r s' ∧
      ∀ built, r = .ok built → built.key = w.key := by
  have hready : Ready b.pointers.root A s := by
    rw [show b.pointers.root = w.root from hroot]
    exact hs.ready
  obtain ⟨r, s₁, hrun, hup⟩ := promote_run hready hload w.key
  cases r with
  | error f =>
    refine ⟨.error f, s₁, run_bind_error (run_bind_error hrun), ?_, by simp⟩
    exact ⟨hup.differs, hup.sameDirs, hup.stored, hup.stopped, hup.moved, hup.first,
      by simpa using hup.ok⟩
  | ok previous =>
    obtain ⟨s₂, hrun₂, hdiff₂⟩ := Session.info_run Pointers.logger s!"Promoted workspace {w.key}"
      "workspace_promoted" none (some (.obj [("compiled", .str w.key), ("backup", previous)])) s₁
    have hready₁ : Ready b.pointers.root A s₁ := by
      rw [show b.pointers.root = w.root from hroot]
      exact ((passes_of_repoints hup.repoints hs hc).stands hs).ready
    have hbound := bound_of_differs hready₁ hup.stored hdiff₂
    have hlog := repoints_of_differs (A := A) hdiff₂
    refine ⟨.ok ⟨w.key, j.start, s₂.clock, j.compiled, j.finished, j.generated, previous⟩, s₂,
      ?_, ?_, ?_⟩
    · have hpromote : (b.directory.promote w).run s = (.ok previous, s₂) :=
        (run_bind_ok hrun).trans (run_bind_ok hrun₂)
      exact run_bind_ok hpromote
    · refine ⟨hup.differs.trans (hdiff₂.mono fun a ha => ha.elim), hup.sameDirs.trans hdiff₂.sameDirs,
        ?_, fun h₁ h₂ => hbound.trans (hup.stopped h₁ h₂), fun h₁ h₂ => hbound.trans (hup.moved h₁ h₂),
        fun h₁ => hbound.trans (hup.first h₁), by simpa using hup.ok⟩
      rw [hdiff₂.find? (by simp) (hready₁.not_isLog_child _)]
      exact hup.stored
    · rintro built ⟨⟩
      rfl

theorem supervise_run (hd : b.Discreet A) (hroot : b.directory.root = w.root) (hs : Stands w A s)
    (hc : Disk.Closed A s.disk) {B : Bindings} (hload : b.pointers.load s.disk = .ok B)
    (hstatus : (w.recordIn s).status = .str Record.running)
    (hrecord : ∃ rec, Records w A s.disk rec ∧ rec.status = .str Record.running) (document : Json) :
    ∃ r s', ((b.supervision w).supervise (b.phases document w)).run s = (r, s') ∧ Passes w A s s' ∧
      (∃ fs, s'.disk.find? (A ++ [storeName]) = some (.file (.json (.obj fs)))) ∧
      Course b A w document s r s' := by
  obtain ⟨r₁, s₁, hrun₁, hpoints₁, hstored₁, hbound₁, hok₁, hrecords₁⟩ := enter_run hroot.symm hs hload
  have hpass₁ := passes_of_repoints hpoints₁ hs hc
  have hs₁ := hpass₁.stands hs
  cases r₁ with
  | error f =>
    have hblocked : b.EntryBlocked s.disk A w.key := by simpa using hok₁
    obtain ⟨rec, hrec, hrunning⟩ := hrecord
    exact ⟨.error f, s₁, supervise_unentered hrun₁, hpass₁, hstored₁,
      .unentered hblocked ⟨f, s₁, hrun₁⟩ ⟨f, rfl⟩
        ⟨rec, records_of_repoints hpoints₁ hs hrec, hrunning⟩ hbound₁⟩
  | ok u =>
    have hunblocked := hok₁.1 rfl
    have hrunning₁ : b.pointers.bound s₁.disk running = some (.str w.key) := by
      rw [hbound₁, entered, rebound, if_pos rfl]
      rfl
    have hunderway : Underway (b.supervision w) A s₁ := ⟨hroot, hs₁, hpass₁.closed, hstored₁⟩
    have hwithin := Action.Keeps.run (stays_judged hroot.symm hd document s₁) (s := s₁)
      ⟨hs₁, Within.refl hs₁ hpass₁.closed⟩
    obtain ⟨⟨r₂, s₂⟩, hrun₂⟩ : ∃ x, (b.judged document w).run s₁ = x := ⟨_, rfl⟩
    rw [hrun₂] at hwithin
    have hpass₂ : Passes w A s₁ s₂ := hwithin.2.passes
    obtain ⟨hunderway₂, hbound₂⟩ := hunderway.of_passes hpass₂ (hwithin.2.own _)
    have hrunning₂ : b.pointers.bound s₂.disk running = some (.str w.key) :=
      (congrFun hbound₂ running).trans hrunning₁
    have hstatus₂ : (w.recordIn s₂).status = .str Record.running := by
      rw [hwithin.2.status, recordIn_congr hrecords₁ hpass₁.clock, hstatus]
    cases r₂ with
    | error f =>
      have hphases : (b.phases document w).run s₁ = (.error f, s₂) := by
        rw [phases_eq, run_bind_error hrun₂]
      obtain ⟨e, s₃, hend, hfailed⟩ := abort_failed hunderway₂ f
      have hrun := supervise_failed hrun₁ hphases hend
      exact ⟨_, s₃, hrun, (hpass₁.trans hpass₂).trans hfailed.passes, hfailed.stored,
        .rejected s₁ s₂ f hunblocked hrun₁ hrun₂ ⟨_, rfl⟩ (hbound₂.trans hbound₁) hfailed⟩
    | ok j =>
      obtain ⟨B₂, hload₂⟩ := load_isOk_of_stored hunderway₂.ready.rooted hunderway₂.stored
      obtain ⟨r₃, s₃, hrun₃, hpromoted, hkey⟩ := promoted_run hroot hunderway₂.stands hunderway₂.closed hload₂ j
      have hphases : (b.phases document w).run s₁ = (r₃, s₃) := by
        rw [phases_eq, run_bind_ok hrun₂, hrun₃]
      have hpass₃ := hunderway₂.of_repoints hpromoted.repoints
      have hunderway₃ : Underway (b.supervision w) A s₃ :=
        ⟨hroot, hpass₃.stands hunderway₂.stands, hpass₃.closed, hpromoted.stored⟩
      have hrunning₃ : b.pointers.bound s₃.disk running = some (.str w.key) :=
        (hpromoted.bound_other (by decide) (by decide)).trans hrunning₂
      have hpass := (hpass₁.trans hpass₂).trans hpass₃
      have hbound := hbound₂.trans hbound₁
      cases r₃ with
      | error f =>
        obtain ⟨e, s₄, hend, hfailed⟩ := abort_failed hunderway₃ f
        have hrun := supervise_failed hrun₁ hphases hend
        exact ⟨_, s₄, hrun, hpass.trans hfailed.passes, hfailed.stored,
          .unpromoted s₁ s₂ s₃ j f hunblocked hrun₁ hrun₂ ⟨_, rfl⟩ hbound hpromoted.of_error hfailed⟩
      | ok built =>
        have hstatus₃ : (w.recordIn s₃).status = .str Record.running := by
          rw [recordIn_congr hpromoted.differs.records hpass₃.clock, hstatus₂]
        obtain ⟨s₄, hend, hpass₄, hended, hstored₄, hbound₄⟩ := complete_run hunderway₃
        exact ⟨.ok built, s₄, supervise_completed hrun₁ hphases hend, hpass.trans hpass₄, hstored₄,
          .completed s₁ s₂ s₃ j built hunblocked hrun₁ hrun₂ rfl (hkey built rfl) hbound
            hpromoted.of_ok (hended hstatus₃) (hbound₄.trans (released_of_running hrunning₃)) hpass₄⟩

end Builder

end FlowPlan

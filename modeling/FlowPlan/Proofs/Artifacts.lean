import FlowPlan.Proofs.Phases

/-!
# Artifacts

In a workspace that holds no directories every artifact can be written, linked and read back, and what
is done to one of them leaves the others alone.

## Main definitions

* `Workspace.Workable` — nothing is in the way of an artifact.
* `Workspace.Edits` — only some artifacts, the record and the log have changed.

## Main statements

* `Workspace.writeArtifact_run`, `Workspace.link_run` — an artifact, and a link to one.
* `Workspace.Workable.readJson`, `Workspace.Workable.readJson_link` — what is read back.
-/

namespace FlowPlan

open FlowPlan.Action Site

namespace Workspace

/-- The name of a file that is neither the record nor the log. -/
structure IsArtifactName (n : String) : Prop where
  isName : Path.IsName n
  nulFree : Path.NulFree n
  ne_record : n ≠ recordName
  ne_log : n ≠ logName

instance (n : String) : Decidable (IsArtifactName n) :=
  decidable_of_iff (Path.IsName n ∧ Path.NulFree n ∧ n ≠ recordName ∧ n ≠ logName)
    ⟨fun ⟨h₁, h₂, h₃, h₄⟩ => ⟨h₁, h₂, h₃, h₄⟩, fun ⟨h₁, h₂, h₃, h₄⟩ => ⟨h₁, h₂, h₃, h₄⟩⟩

theorem isArtifactName_named {word name n : String} (h : NamedAfter word name n)
    (hword : PlainName word ∧ Path.NulFree word)
    (hother : ¬ word.toList <+: recordName.toList ∧ ¬ word.toList <+: logName.toList)
    (hplain : PlainName name) (hnul : Path.NulFree name) : IsArtifactName n where
  isName := h.isName hword.1 hplain
  nulFree := (h.nulFree hword.2).2 hnul
  ne_record := by
    rintro rfl
    exact hother.1 h.starts
  ne_log := by
    rintro rfl
    exact hother.2 h.starts

/-- Nothing is in the way of an artifact. On the path of the build root one more link may be followed, so
that a link in the workspace can be. -/
structure Workable (w : Workspace) (A : Address) (s : Site) : Prop where
  stands : Stands w A s
  closed : Disk.Closed A s.disk
  spare : Disk.Rooted (Disk.maxLinks - 1) s.disk w.root A
  flat : ∀ n, s.disk.find? (A ++ [w.key] ++ [n]) ≠ some .dir

/-- What has changed lies in the workspace, and among its artifacts only those of some names have
changed. No directory is new. -/
structure Edits (w : Workspace) (A : Address) (X : String → Prop) (s s' : Site) : Prop where
  within : Within w A s s'
  kept : ∀ n, ¬ X n → n ≠ recordName → n ≠ logName →
    s'.disk.find? (A ++ [w.key] ++ [n]) = s.disk.find? (A ++ [w.key] ++ [n])
  flat : ∀ n, s'.disk.find? (A ++ [w.key] ++ [n]) = some .dir →
    s.disk.find? (A ++ [w.key] ++ [n]) = some .dir

variable {w : Workspace} {A : Address} {X Y : String → Prop} {s s' s'' : Site} {n t : String} {v : Json}

theorem Edits.trans (h : Edits w A X s s') (h' : Edits w A X s' s'') : Edits w A X s s'' where
  within := h.within.trans h'.within
  kept n hn hrecord hlog := (h'.kept n hn hrecord hlog).trans (h.kept n hn hrecord hlog)
  flat n hdir := h.flat n (h'.flat n hdir)

theorem Edits.mono (h : Edits w A X s s') (hXY : ∀ n, X n → n ≠ recordName → Y n) : Edits w A Y s s' where
  within := h.within
  kept n hn hrecord hlog := h.kept n (fun hX => hn (hXY n hX hrecord)) hrecord hlog
  flat := h.flat

/-- An artifact that is not concerned is as before. -/
theorem Edits.find? (h : Edits w A X s s') (ha : IsArtifactName n) (hn : ¬ X n) :
    s'.disk.find? (A ++ [w.key] ++ [n]) = s.disk.find? (A ++ [w.key] ++ [n]) :=
  h.kept n hn ha.ne_record ha.ne_log

theorem Edits.workable (h : Edits w A X s s') (hs : Workable w A s) : Workable w A s' where
  stands := h.within.stands hs.stands
  closed := h.within.closed
  spare := h.within.rooted _ hs.spare
  flat n hdir := hs.flat n (h.flat n hdir)

theorem Workable.edits_refl (h : Workable w A s) (X : String → Prop) : Edits w A X s s :=
  ⟨.refl h.stands h.closed, fun _ _ _ _ => rfl, fun _ hdir => hdir⟩

/-- Files and links in the workspace have changed, and perhaps the log. -/
theorem Workable.edits (h : Workable w A s)
    (hd : Differs (fun a => ∃ n, X n ∧ a = A ++ [w.key] ++ [n]) s s') (hdirs : s.disk.SameDirs s'.disk) :
    Edits w A X s s' := by
  have hchild : ∀ k, s'.disk.find? (A ++ [k]) = s.disk.find? (A ++ [k]) := fun k =>
    hd.find? (by simp) (h.stands.ready.not_isLog_child k)
  have hbelow : ∀ a, (∃ n, X n ∧ a = A ++ [w.key] ++ [n]) → Address.Below A a := by
    rintro _ ⟨n, -, rfl⟩
    exact below_grandchild A w.key n
  refine ⟨⟨(hd.keepsWays h.stands.ready hbelow).keepsRooted _, hchild, fun k hk => ?_, mt (hdirs _).1 h.stands.record,
    fun k n hk => ?_, by rw [recordIn_congr hd.records hd.clock], hd.journal, hd.locked, hd.clock⟩,
    fun n hn _ hlog => ?_, fun n => (hdirs _).1⟩
  · exact hd.find? (by simp [hk]) (h.stands.ready.not_isLog_grandchild k (by decide))
  · rw [hchild] at hk
    have hnone := h.closed k n hk
    have hne : k ≠ w.key := by
      rintro rfl
      exact hk h.stands.dir
    rcases hd.kept (A ++ [k] ++ [n]) (by simp [hne]) with heq | ⟨-, c, -, hfile, -⟩
    · rw [heq, hnone]
    · rw [hnone] at hfile
      cases hfile
  · exact hd.find? (by simpa using hn) (h.stands.ready.not_isLog_grandchild w.key hlog)

theorem Workable.edits_log (h : Workable w A s) (hd : Differs (fun _ => False) s s')
    (X : String → Prop) : Edits w A X s s' :=
  h.edits (hd.mono fun _ ha => ha.elim) hd.sameDirs

theorem Workable.edits_set (h : Workable w A s) {e : Entry} (he : e ≠ .dir) :
    Edits w A (· = n) s { s with disk := s.disk.set (A ++ [w.key] ++ [n]) e } :=
  h.edits ((differs_set s (by simp) e).mono fun _ ha => ⟨n, rfl, ha⟩)
    (Disk.sameDirs_set (by simp) (h.flat n) he)

/-! ## Writing -/

theorem addArtifact_run (h : Workable w A s) (name : String) (X : String → Prop) :
    ∃ s', (w.addArtifact name).run s = (.ok (), s') ∧ Edits w A X s s' := by
  obtain ⟨s₁, hs₁⟩ : ∃ s₁ : Site, s₁ = { s with
      records := Assoc.set s.records w.path.text ((w.recordIn s).addArtifact name) } := ⟨_, rfl⟩
  have hedits₁ : Edits w A X s s₁ := by
    refine ⟨hs₁ ▸ within_changeRecord h.stands h.closed (f := fun _ r => r.addArtifact name)
      fun _ r => ?_, fun _ _ _ _ => by rw [hs₁], fun _ hdir => by rwa [hs₁] at hdir⟩
    unfold Record.addArtifact
    split <;> rfl
  have hchange : (w.changeRecord fun _ r => r.addArtifact name).run s = (.ok (), s₁) := by
    rw [hs₁]
    rfl
  have h₁ := hedits₁.workable h
  refine ⟨_, (run_bind_ok hchange).trans (saveRecord_run h₁.stands), hedits₁.trans ?_⟩
  exact (h₁.edits_set (n := recordName) (by simp)).mono fun n hn hne => absurd hn hne

theorem writeJson_run (h : Workable w A s) (hn : IsArtifactName n) (v : Json) :
    ∃ s', (Session.write (·.writeJson (w.artifactPath n) v)).run s = (.ok (), s') ∧
      Edits w A (· = n) s s' ∧
      s'.disk.find? (A ++ [w.key] ++ [n]) = some (.file (.json v.sortKeys)) := by
  have hwrite := h.stands.rooted.writeJson hn.isName hn.nulFree (h.flat n) v
  refine ⟨_, Session.run_write_ok (f := (·.writeJson (w.artifactPath n) v)) hwrite,
    h.edits_set (by simp), ?_⟩
  exact (Disk.find?_set_child _ _ _ _ _).trans (if_pos rfl)

/-- An artifact is written with its keys in order. -/
theorem writeArtifact_run (h : Workable w A s) (hn : IsArtifactName n) (v : Json) :
    ∃ s', (w.writeArtifact n v).run s = (.ok (w.artifactPath n), s') ∧ Edits w A (· = n) s s' ∧
      s'.disk.find? (A ++ [w.key] ++ [n]) = some (.file (.json v.sortKeys)) := by
  obtain ⟨s₁, hrun₁, hedits₁, hfile₁⟩ := writeJson_run h hn v
  obtain ⟨s₂, hrun₂, hedits₂⟩ := addArtifact_run (hedits₁.workable h) n fun _ => False
  refine ⟨s₂, (run_bind_ok hrun₁).trans (run_bind_ok hrun₂),
    hedits₁.trans (hedits₂.mono fun _ hfalse _ => hfalse.elim), ?_⟩
  rw [hedits₂.find? hn id, hfile₁]

/-- A link to an artifact is made in place of whatever was there. -/
theorem link_run (h : Workable w A s) (hn : IsArtifactName n) (ht : IsArtifactName t) {c : Content}
    (hfile : s.disk.find? (A ++ [w.key] ++ [t]) = some (.file c)) :
    ∃ s', (w.link n t).run s = (.ok (w.artifactPath n), s') ∧
      Edits w A (fun m => m = n ∨ m = Path.temporary n) s s' ∧
      s'.disk.find? (A ++ [w.key] ++ [n]) = some (.link t) := by
  have hexists : s.disk.exists? (w.artifactPath t) = true := by
    refine (h.stands.rooted.exists?_child ht.isName fun u => ?_).trans ?_
    · rw [hfile]
      simp
    · rw [hfile]
      rfl
  obtain ⟨r, s₁, hrun₁, hdiff, hdirs, hok, hlink⟩ :=
    Pointers.bindLink_run h.stands.rooted hn.isName hn.nulFree (.str t)
  obtain rfl : r = .ok () := hok.2 ⟨⟨ht.isName.1, ht.nulFree⟩, h.flat _, h.flat _⟩
  have hedits₁ : Edits w A (fun m => m = n ∨ m = Path.temporary n) s s₁ := by
    refine h.edits (hdiff.mono ?_) hdirs
    rintro a (ha | ha)
    · exact ⟨n, .inl rfl, ha⟩
    · exact ⟨_, .inr rfl, ha⟩
  obtain ⟨s₂, hrun₂, hedits₂⟩ := addArtifact_run (hedits₁.workable h) n fun _ => False
  refine ⟨s₂, ?_, hedits₁.trans (hedits₂.mono fun _ hfalse _ => hfalse.elim), ?_⟩
  · unfold link
    rw [Session.run_read_total, hexists]
    exact (run_bind_ok hrun₁).trans (run_bind_ok hrun₂)
  · rw [hedits₂.find? hn id, hlink t rfl rfl]

/-! ## Reading -/

theorem Workable.readJson (h : Workable w A s) (hn : IsArtifactName n)
    (hfile : s.disk.find? (A ++ [w.key] ++ [n]) = some (.file (.json v))) :
    s.disk.readJson (w.artifactPath n) = .ok v :=
  h.stands.rooted.readJson hn.isName hn.nulFree hfile

/-- A link to an artifact is read as the artifact. -/
theorem Workable.readJson_link (h : Workable w A s) (hn : IsArtifactName n) (ht : IsArtifactName t)
    (hlink : s.disk.find? (A ++ [w.key] ++ [n]) = some (.link t))
    (hfile : s.disk.find? (A ++ [w.key] ++ [t]) = some (.file (.json v))) :
    s.disk.readJson (w.artifactPath n) = .ok v := by
  have hrooted := h.spare.child h.stands.name.1 h.stands.name.2 h.stands.dir
  refine Disk.readJson_of_address (Disk.address_of_clean (hrooted.clean.child hn.isName hn.nulFree)
    (hrooted.locate_link hn.isName ht.isName hlink fun u => ?_)) hfile
  rw [hfile]
  simp

end Workspace

end FlowPlan

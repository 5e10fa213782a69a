import FlowPlan.Proofs.Artifacts
import FlowPlan.Proofs.Json.Texts

/-!
# What a workspace lists

Writing an artifact lists it in the record, in memory and in the workspace, behind those that are
listed already. A new workspace lists and holds nothing.

## Main definitions

* `Workspace.Adds` — the record has come to list some artifacts.
* `Workspace.Gains` — some artifacts are there and listed, and the others are as before.
* `Workspace.New` — a workspace has just been made.

## Main statements

* `Workspace.writeArtifact_gains`, `Workspace.link_gains` — an artifact and a link.
* `Workspace.writeJson_nul`, `Workspace.writeArtifact_nul` — a name that no file can have.
* `Workspace.New.find?_gains`, `Workspace.New.artifacts_gains` — what a new workspace holds and lists
  after that.
* `BuildDir.Allocated.new` — an allocation makes a new workspace.
-/

namespace FlowPlan

open FlowPlan.Action Site

/-! ## Names with a null character -/

theorem Path.mem_intercalate {c : Char} {n : String} {ns : List String} (hn : n ∈ ns) (hc : c ∈ n.toList) :
    c ∈ (String.intercalate "/" ns).toList := by
  induction ns with
  | nil => cases hn
  | cons m ns ih =>
    cases ns with
    | nil =>
      obtain rfl : n = m := by simpa using hn
      simpa using hc
    | cons k ns =>
      rw [String.intercalate_cons_cons, String.toList_append, String.toList_append]
      rcases List.mem_cons.1 hn with rfl | hn
      · simp [hc]
      · exact List.mem_append_right _ (ih hn)

theorem Path.not_nulFree_text (p : Path) {n : String} (hn : IsName n) (hnul : ¬ NulFree n) :
    ¬ NulFree (p.child n).text := by
  unfold NulFree at hnul ⊢
  rw [not_not] at hnul ⊢
  rw [child_of_isName p hn, text, if_neg (by simp), String.toList_append]
  exact List.mem_append_right _ (mem_intercalate (by simp) hnul)

namespace Workspace

/-! ## Additions to the record -/

/-- Some artifacts have been listed, and the record has been written. -/
structure Adds (w : Workspace) (A : Address) (ns : List String) (s s' : Site) : Prop where
  record : w.recordIn s' = ns.foldl Record.addArtifact (w.recordIn s)
  file : s'.disk.find? (A ++ [w.key] ++ [recordName]) =
    if ns = [] then s.disk.find? (A ++ [w.key] ++ [recordName])
    else some (.file (.json (w.recordIn s').toJson.sortKeys))

variable {w : Workspace} {A : Address} {X : Address → Prop} {s s' s'' : Site} {n t : String}
  {ns ms : List String}

theorem Adds.trans (h : Adds w A ns s s') (h' : Adds w A ms s' s'') : Adds w A (ns ++ ms) s s'' where
  record := by rw [h'.record, h.record, List.foldl_append]
  file := by
    rw [h'.file, h.file]
    by_cases hms : ms = []
    · have hsame : w.recordIn s'' = w.recordIn s' := by rw [h'.record, hms, List.foldl_nil]
      rw [hsame, hms, List.append_nil, if_pos rfl]
    · rw [if_neg hms, if_neg (by simp [hms])]

/-- Changes elsewhere list nothing. -/
theorem adds_of_differs (hs : Stands w A s) (hd : Differs X s s')
    (hX : ¬ X (A ++ [w.key] ++ [recordName])) : Adds w A [] s s' where
  record := recordIn_congr hd.records hd.clock
  file := by
    rw [if_pos rfl]
    exact hd.find? hX (hs.ready.not_isLog_grandchild w.key (by decide))

theorem Adds.refl (w : Workspace) (A : Address) (s : Site) : Adds w A [] s s := ⟨rfl, rfl⟩

/-- The record lists the artifact, and is written as it is held. -/
theorem addArtifact_saves (h : Stands w A s) (n : String) :
    ∃ s', (w.addArtifact n).run s = (.ok (), s') ∧ w.recordIn s' = (w.recordIn s).addArtifact n ∧
      s'.disk.find? (A ++ [w.key] ++ [recordName]) = some (.file (.json (w.recordIn s').toJson.sortKeys)) := by
  obtain ⟨s₁, hs₁⟩ : ∃ s₁ : Site, s₁ = { s with
      records := Assoc.set s.records w.path.text ((w.recordIn s).addArtifact n) } := ⟨_, rfl⟩
  have hrecord : w.recordIn s₁ = (w.recordIn s).addArtifact n := by
    rw [hs₁, recordIn_setRecord]
  have hchange : (w.changeRecord fun _ r => r.addArtifact n).run s = (.ok (), s₁) := by
    rw [hs₁]
    rfl
  have hstands₁ : Stands w A s₁ := by
    rw [hs₁]
    exact ⟨⟨h.ready.rooted, h.ready.log⟩, h.name, h.dir, h.record⟩
  exact ⟨_, (run_bind_ok hchange).trans (saveRecord_run hstands₁), hrecord,
    (Disk.find?_set_child _ _ _ _ _).trans (if_pos rfl)⟩

theorem addArtifact_adds (h : Workable w A s) (n : String) :
    ∃ s', (w.addArtifact n).run s = (.ok (), s') ∧ Edits w A (fun _ => False) s s' ∧
      Adds w A [n] s s' := by
  obtain ⟨s', hrun, hedits⟩ := addArtifact_run h n fun _ => False
  obtain ⟨_, hrun', hrecord, hfile⟩ := addArtifact_saves h.stands n
  obtain ⟨-, rfl⟩ := Prod.mk.inj (hrun.symm.trans hrun')
  exact ⟨_, hrun, hedits, hrecord, hfile.trans (if_neg (List.cons_ne_nil n [])).symm⟩

theorem writeJson_adds (h : Workable w A s) (hn : IsArtifactName n) {v : Json}
    (hrun : (Session.write (·.writeJson (w.artifactPath n) v)).run s = (.ok (), s')) : Adds w A [] s s' := by
  have hwrite := h.stands.rooted.writeJson hn.isName hn.nulFree (h.flat n) v
  rw [Session.run_write_ok (f := (·.writeJson (w.artifactPath n) v)) hwrite] at hrun
  cases hrun
  exact adds_of_differs h.stands (differs_set s (by simp) _) (by simpa using hn.ne_record.symm)

/-! ## Gains -/

/-- The artifacts have been put into the workspace and listed, and no other artifact has changed. -/
structure Gains (w : Workspace) (A : Address) (es : Assoc String Entry) (s s' : Site) : Prop where
  edits : Edits w A (· ∈ Assoc.keys es) s s'
  adds : Adds w A (Assoc.keys es) s s'
  holds : ∀ e ∈ es, s'.disk.find? (A ++ [w.key] ++ [e.1]) = some e.2

variable {es fs : Assoc String Entry}

/-- What is gained later has other names. -/
theorem Gains.trans (h : Gains w A es s s') (h' : Gains w A fs s' s'')
    (hnames : ∀ n ∈ Assoc.keys es, IsArtifactName n ∧ n ∉ Assoc.keys fs) : Gains w A (es ++ fs) s s'' where
  edits := by
    refine (h.edits.mono fun n hn _ => ?_).trans (h'.edits.mono fun n hn _ => ?_) <;>
      rw [Assoc.keys, List.map_append]
    · exact List.mem_append_left _ hn
    · exact List.mem_append_right _ hn
  adds := by
    rw [Assoc.keys, List.map_append]
    exact h.adds.trans h'.adds
  holds e he := by
    rcases List.mem_append.1 he with he | he
    · obtain ⟨hname, hlater⟩ := hnames e.1 (List.mem_map_of_mem he)
      rw [h'.edits.find? hname hlater, h.holds e he]
    · exact h'.holds e he

theorem Workable.gains_log (h : Workable w A s) (hd : Differs (fun _ => False) s s') : Gains w A [] s s' :=
  ⟨h.edits_log hd _, adds_of_differs h.stands hd (by simp), by simp⟩

/-- An artifact is written and listed. -/
theorem writeArtifact_gains (h : Workable w A s) (hn : IsArtifactName n) (v : Json) :
    ∃ s', (w.writeArtifact n v).run s = (.ok (w.artifactPath n), s') ∧
      Gains w A [(n, .file (.json v.sortKeys))] s s' := by
  obtain ⟨s₁, hrun₁, hedits₁, hfile₁⟩ := writeJson_run h hn v
  obtain ⟨s₂, hrun₂, hedits₂, hadds₂⟩ := addArtifact_adds (hedits₁.workable h) n
  refine ⟨s₂, (run_bind_ok hrun₁).trans (run_bind_ok hrun₂), ?_, (writeJson_adds h hn hrun₁).trans hadds₂, ?_⟩
  · refine (hedits₁.mono fun m hm _ => ?_).trans (hedits₂.mono fun _ hfalse _ => hfalse.elim)
    simp [Assoc.keys, hm]
  · rw [List.forall_mem_singleton, hedits₂.find? hn id, hfile₁]

/-- A link to an artifact is made and listed. -/
theorem link_gains (h : Workable w A s) (hn : IsArtifactName n) (ht : IsArtifactName t) {c : Content}
    (hfile : s.disk.find? (A ++ [w.key] ++ [t]) = some (.file c))
    (hnone : s.disk.find? (A ++ [w.key] ++ [Path.temporary n]) = none) :
    ∃ s', (w.link n t).run s = (.ok (w.artifactPath n), s') ∧ Gains w A [(n, .link t)] s s' := by
  have hexists : s.disk.exists? (w.artifactPath t) = true := by
    refine (h.stands.rooted.exists?_child ht.isName fun u => ?_).trans ?_ <;> rw [hfile]
    · simp
    · rfl
  obtain ⟨s₁, hrun₁, hdiff, hdirs, hlink⟩ := Pointers.bindLink_new h.stands.rooted hn.isName hn.nulFree
    ⟨ht.isName.1, ht.nulFree⟩ (h.flat n) hnone
  have hedits₁ : Edits w A (· = n) s s₁ := h.edits (hdiff.mono fun a ha => ⟨n, rfl, ha⟩) hdirs
  have hadds₁ : Adds w A [] s s₁ :=
    adds_of_differs h.stands hdiff (by simpa using hn.ne_record.symm)
  obtain ⟨s₂, hrun₂, hedits₂, hadds₂⟩ := addArtifact_adds (hedits₁.workable h) n
  refine ⟨s₂, ?_, ?_, hadds₁.trans hadds₂, ?_⟩
  · unfold link
    rw [Session.run_read_total, hexists]
    exact (run_bind_ok hrun₁).trans (run_bind_ok hrun₂)
  · refine (hedits₁.mono fun m hm _ => ?_).trans (hedits₂.mono fun _ hfalse _ => hfalse.elim)
    simp [Assoc.keys, hm]
  · rw [List.forall_mem_singleton, hedits₂.find? hn id, hlink]

/-- Under a name with a null character nothing is written. -/
theorem writeJson_nul (h : Workable w A s) (hn : Path.IsName n) (hnul : ¬ Path.NulFree n) (v : Json) :
    (Session.write (·.writeJson (w.artifactPath n) v)).run s =
      (.error (.misuse (.outOfBounds "embedded null byte")), s) := by
  have hrefuse := Disk.checkName_of_nul (Path.not_nulFree_text w.path hn hnul)
  have hwrite : s.disk.writeJson (w.artifactPath n) v = .error (.misuse (.outOfBounds "embedded null byte")) := by
    unfold Disk.writeJson artifactPath
    rw [Path.parent_child w.path hn, h.stands.rooted.makeDirs, Attempt.ok_bind]
    unfold Disk.replaceWith
    rw [hrefuse, Attempt.error_bind]
  exact Session.run_write_error (f := (·.writeJson (w.artifactPath n) v)) hwrite

theorem writeArtifact_nul (h : Workable w A s) (hn : Path.IsName n) (hnul : ¬ Path.NulFree n) (v : Json) :
    ∃ f, (w.writeArtifact n v).run s = (.error f, s) :=
  ⟨_, run_bind_error (writeJson_nul h hn hnul v)⟩

/-! ## What the record lists -/

theorem artifacts_addArtifact {r : Record} (hr : r.artifacts = ns.map .str) (hn : n ∉ ns) :
    (r.addArtifact n).artifacts = (ns ++ [n]).map .str := by
  unfold Record.addArtifact
  rw [hr, if_neg (mt Json.listed_texts.1 hn), List.map_append]
  rfl

/-- New artifacts are listed behind the ones before. -/
theorem artifacts_addArtifacts {r : Record} (hr : r.artifacts = ms.map .str) (hnodup : (ms ++ ns).Nodup) :
    (ns.foldl Record.addArtifact r).artifacts = (ms ++ ns).map .str := by
  induction ns generalizing ms r with
  | nil => rw [List.foldl_nil, hr, List.append_nil]
  | cons n ns ih =>
    rw [List.append_cons] at hnodup ⊢
    have hn : n ∉ ms := fun hmem =>
      (List.nodup_append.1 (List.nodup_append.1 hnodup).1).2.2 n hmem n (by simp) rfl
    exact ih (artifacts_addArtifact hr hn) hnodup

theorem Adds.artifacts (h : Adds w A ns s s') (hs : (w.recordIn s).artifacts = ms.map .str)
    (hnodup : (ms ++ ns).Nodup) : (w.recordIn s').artifacts = (ms ++ ns).map .str := by
  rw [h.record]
  exact artifacts_addArtifacts hs hnodup

/-! ## New workspaces -/

/-- The workspace has been made and holds nothing but its record and, perhaps, a log. -/
structure New (w : Workspace) (A : Address) (s : Site) : Prop extends Workable w A s where
  record : w.recordIn s = Record.start w.key s.clock
  file : s.disk.find? (A ++ [w.key] ++ [recordName]) =
    some (.file (.json (Record.start w.key s.clock).toJson.sortKeys))
  empty : ∀ n, n ≠ recordName → n ≠ logName → s.disk.find? (A ++ [w.key] ++ [n]) = none

/-- A new workspace holds what it has gained, and nothing else. -/
theorem New.find?_gains (h : New w A s) (hgains : Gains w A es s s') (hrecord : n ≠ recordName)
    (hlog : n ≠ logName) :
    s'.disk.find? (A ++ [w.key] ++ [n]) = Assoc.find? es n := by
  cases hfind : Assoc.find? es n with
  | none =>
    rw [hgains.edits.kept n (Assoc.find?_eq_none_iff.1 hfind) hrecord hlog]
    exact h.empty n hrecord hlog
  | some e => exact hgains.holds _ (Assoc.mem_of_find? hfind)

/-- It lists what it has gained, in that order, and the record says so. -/
theorem New.artifacts_gains (h : New w A s) (hgains : Gains w A es s s') (hnodup : (Assoc.keys es).Nodup) :
    (w.recordIn s').artifacts = (Assoc.keys es).map .str ∧
      s'.disk.find? (A ++ [w.key] ++ [recordName]) = some (.file (.json (w.recordIn s').toJson.sortKeys)) := by
  have hnone : (w.recordIn s).artifacts = ([] : List String).map .str := by
    rw [h.record]
    rfl
  refine ⟨hgains.adds.artifacts hnone hnodup, ?_⟩
  rw [hgains.adds.file]
  split
  · rename_i hnone
    rw [h.file, hgains.adds.record, hnone, List.foldl_nil, h.record]
  · rfl

/-- A workspace in the topmost directory. -/
def specimen : Workspace := ⟨⟨"/", []⟩, "k"⟩

/-- A site on which there is nothing but that workspace, which is new. -/
def specimenSite : Site :=
  let clock : Instant := ⟨2024, 3, 1, 10, 0, 0, 0, none⟩
  let record := Record.start "k" clock
  { Site.ofDisk ⟨[(["/"], .dir), (["/", "k"], .dir),
      (["/", "k", recordName], .file (.json record.toJson.sortKeys))], []⟩ clock with
    records := [("/k", record)] }

theorem new_specimen : New specimen ["/"] specimenSite := by
  have hrooted : ∀ links, Disk.Rooted links specimenSite.disk specimen.root ["/"] := fun links =>
    .of_dirs links (by unfold Path.Clean; decide +kernel) rfl (by decide +kernel) (by decide +kernel)
  have hfind : ∀ k n, specimenSite.disk.find? (["/"] ++ [k] ++ [n]) =
      if k = "k" ∧ n = recordName then
        some (.file (.json (Record.start "k" specimenSite.clock).toJson.sortKeys))
      else none := by
    intro k n
    change Assoc.find? [_, _, (["/", "k", recordName], _)] ["/", k, n] = _
    rw [Assoc.find?_cons, Assoc.find?_cons, Assoc.find?_cons, if_neg (by simp), if_neg (by simp),
      Assoc.find?_nil]
    refine if_congr ?_ rfl rfl
    rw [List.cons_eq_cons, List.cons_eq_cons, List.cons_eq_cons, eq_comm (a := "k"), eq_comm (a := recordName)]
    simp
  refine ⟨⟨⟨ready_of_journal (hrooted _) rfl, by decide, rfl, ?_⟩, fun k n hk => ?_, hrooted _, fun n => ?_⟩, rfl, ?_,
    fun n hn _ => ?_⟩
  · rw [hfind]
    split <;> simp
  · rw [hfind, if_neg]
    rintro ⟨rfl, -⟩
    exact hk rfl
  · rw [hfind]
    split <;> simp
  · rw [hfind, if_pos ⟨rfl, rfl⟩]
    rfl
  · rw [hfind, if_neg fun h => hn h.2]

end Workspace

open Workspace

/-- An allocation makes a new workspace. -/
theorem BuildDir.Allocated.new {b : BuildDir} {A : Address} {key : String} {s s' : Site}
    (h : b.Allocated A key s s') (hspare : Disk.Rooted (Disk.maxLinks - 1) s.disk b.root A)
    (hclosed : Disk.Closed A s.disk) (hlog : s.journal.file = none) : New (b.workspace key) A s' := by
  have hrooted : Disk.Rooted Disk.maxLinks s.disk b.root A := hspare.add 1
  have hways := (Disk.grows_of_new h.home (h.kept_of_some hclosed)).keepsWays A
  have hempty : ∀ n, n ≠ recordName → s'.disk.find? (A ++ [key] ++ [n]) = none := by
    intro n hn
    rw [h.kept _ (by simp) (by simp [hn])]
    exact hclosed key n (by simp [h.free])
  refine ⟨⟨h.stands hrooted hclosed hlog, fun k n hk => ?_, hspare.of_keepsWays hways, fun n hdir => ?_⟩, ?_, ?_,
    fun n hn _ => hempty n hn⟩
  · have hne : k ≠ key := by
      rintro rfl
      exact hk h.dir
    rw [h.kept _ (by simp [hne]) (by simp)] at hk
    rw [h.kept _ (by simp) (by simp [hne])]
    exact hclosed k n hk
  · change s'.disk.find? (A ++ [key] ++ [n]) = some .dir at hdir
    by_cases hn : n = recordName
    · rw [hn, h.record] at hdir
      cases hdir
    · rw [hempty n hn] at hdir
      cases hdir
  · rw [h.held, h.clock]
    rfl
  · rw [h.clock]
    exact h.record

end FlowPlan

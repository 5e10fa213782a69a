import FlowPlan.Proofs.Disk.Descent
import FlowPlan.Proofs.StageFailure
import FlowPlan.Proofs.Threading

/-!
# The input outlasts the pipeline

Stages write into the directory in which the pipeline keeps its input. A name with slashes leads below that
directory, or up and even out of it, where it may replace a link on the way to the directory. But what it
leads to has its last name, and below the directory there are no links that it could follow until all stages
have run. So if no artifact that is called like the input leads to it or out of the workspace, the input is in
its place at every moment.

## Main definitions

* `Stage.Inside` — the artifact has a place in the workspace.
* `Stage.Apart` — the artifact is not called like the input, or has another place in the workspace.
* `Pipeline.Shelters` — the input is in its place.
* `Pipeline.Lists`, `Pipeline.Silent` — what an action adds to the record.

## Main statements

* `Pipeline.Shelters.writeStage` — what a stage writes leaves the input as it is.
* `Pipeline.keeps_stages`, `Pipeline.keeps_conclude` — so does every step of the pipeline behind the first.
* `Pipeline.lists_run` — what a pipeline lists that ends well.
* `Pipeline.run_shelters` — both in a new workspace.
-/

namespace FlowPlan

open FlowPlan.Action Site Session Workspace

/-- What goes to the log changes files only. -/
theorem Site.Differs.grows {s s' : Site} (h : Differs (fun _ => False) s s') : Disk.Grows s.disk s'.disk where
  home := h.home
  ways a e he hfile := by
    rcases h.kept a id with heq | ⟨-, c, -, hc, -⟩
    · exact heq.trans he
    · cases hc.symm.trans he
      cases hfile
  files a c hc := by
    rcases h.kept a id with heq | ⟨-, -, c', -, hc'⟩
    · exact ⟨c, heq.trans hc⟩
    · exact ⟨c', hc'⟩

/-! ## Places of artifacts -/

namespace Stage

/-- Seen from the workspace, the artifact has a place in it. -/
def Inside (s : Stage) : Prop := ∃ ns, Path.resolve [] (Path.parse s.artifact).parts = some ns

/-- The artifact is not called like the input, or has a place in the workspace that is not that of the input. -/
def Apart (s : Stage) : Prop :=
  (Path.parse s.artifact).name ≠ Pipeline.inputArtifact ∨
    ∃ ns, Path.resolve [] (Path.parse s.artifact).parts = some ns ∧ ns ≠ [Pipeline.inputArtifact]

variable {s : Stage}

theorem parse_artifact_of_plainName (hplain : PlainName s.name) : Path.parse s.artifact = ⟨"", [s.artifact]⟩ :=
  Path.parse_of_isName (s.artifact_named.isName (by decide) hplain)

theorem inside_of_plainName (hplain : PlainName s.name) : s.Inside := by
  have hname : Path.IsName s.artifact := s.artifact_named.isName (by decide) hplain
  refine ⟨[s.artifact], ?_⟩
  rw [parse_artifact_of_plainName hplain]
  exact if_neg hname.2.2.1

/-- A name without slashes is called like the input only if it is that of the input. -/
theorem apart_of_plainName (hplain : PlainName s.name) (hinput : s.name ≠ "input") : s.Apart := by
  refine .inl fun hname => hinput ?_
  rw [parse_artifact_of_plainName hplain] at hname
  have heq : s.artifact = Pipeline.inputArtifact := hname
  have hnamed : NamedAfter "config-" "input" Pipeline.inputArtifact := by decide
  exact s.artifact_named.injective (heq ▸ hnamed)

theorem Apart.artifact_ne (h : s.Apart) : s.artifact ≠ Pipeline.inputArtifact := by
  intro heq
  unfold Apart at h
  rw [heq, Path.parse_of_isName Pipeline.isArtifactName_input.1.isName] at h
  rcases h with hname | ⟨ns, hns, hne⟩
  · exact hname rfl
  · exact hne (Option.some.inj hns).symm

theorem isAbsolute_artifact (s : Stage) : (Path.parse s.artifact).isAbsolute = false := by
  have hnamed := s.artifact_named
  unfold NamedAfter at hnamed
  unfold Path.isAbsolute Path.parse
  rw [hnamed]
  rfl

/-- The artifact ends in a name, whatever the name of the stage holds. -/
theorem parts_artifact (s : Stage) : ∃ names n, (Path.parse s.artifact).parts = names ++ [n] ∧ n ≠ ".." :=
  Path.parts_of_ending s.artifact_named (by decide) (by decide)

end Stage

namespace Pipeline

/-! ## What is sheltered -/

/-- The path of the workspace leads to a directory, in which there are files only. -/
structure Founded (w : Workspace) (W : Address) (d : Disk) : Prop where
  rooted : Disk.Rooted Disk.maxLinks d w.path W
  files : ∀ n e, d.find? (W ++ [n]) = some e → e.isFile = true

/-- Since a disk on which the workspace was founded its directory stands, and it keeps a document as the input.
Unless all artifacts are inside of it, links on the way to it may have been cut. -/
structure Shelters (W : Address) (document : Json) (d : Disk) (inside linked : Prop) (s : Site) : Prop where
  blunts : Disk.Blunts d s.disk
  ways : inside → Disk.KeepsWays W d s.disk
  log : ∀ n, n ≠ logName → ¬ s.IsLog (W ++ [n])
  input : s.disk.find? (W ++ [inputArtifact]) = some (.file (.json document.sortKeys))
  links : ∀ ns t, s.disk.find? (W ++ ns) = some (.link t) → linked

variable {w : Workspace} {W : Address} {document : Json} {d₀ d : Disk} {inside linked : Prop} {s s' : Site}
  {a : Address} {e : Entry} {n : String}

theorem founded_of_new {A : Address} (h : New w A s)
    (hlinks : ∀ ns t, s.disk.find? (A ++ [w.key] ++ ns) ≠ some (.link t)) :
    Founded w (A ++ [w.key]) s.disk := by
  refine ⟨h.stands.rooted, fun n e he => ?_⟩
  cases e with
  | file c => rfl
  | dir => exact absurd he (h.flat n)
  | link t => exact absurd he (hlinks [n] t)

namespace Shelters

theorem mono (h : Shelters W document d₀ inside False s) : Shelters W document d₀ inside linked s :=
  ⟨h.blunts, h.ways, h.log, h.input, fun ns t ht => (h.links ns t ht).elim⟩

theorem opens (h : Shelters W document d₀ inside linked s) (hf : Founded w W d₀) : s.disk.Opens w.path W :=
  h.blunts.opens hf.rooted

/-- A file comes to a place that is neither a directory nor that of the input. -/
theorem put (h : Shelters W document d₀ inside linked s) (hdir : s.disk.find? a ≠ some .dir)
    (hinput : a ≠ W ++ [inputArtifact]) (hbelow : inside → Address.Below W a) (c : Content) :
    Shelters W document d₀ inside linked { s with disk := s.disk.set a (.file c) } := by
  have ha : a ≠ [] := by
    rintro rfl
    exact hdir rfl
  have hfind := Disk.find?_set s.disk ha (.file c)
  refine ⟨h.blunts.put hdir c, fun hin => (h.ways hin).trans (Disk.keepsWays_set _ _ (hbelow hin)), h.log, ?_,
    fun ns t ht => ?_⟩
  · rw [hfind, if_neg hinput, h.input]
  · rw [hfind] at ht
    split at ht
    · cases ht
    · exact h.links ns t ht

/-- In the workspace itself anything may come in the place of a file other than the input. -/
theorem set (h : Shelters W document d₀ inside linked s) (hf : Founded w W d₀) (hn : n ≠ inputArtifact)
    (hlink : ∀ t, e = .link t → linked) :
    Shelters W document d₀ inside linked { s with disk := s.disk.set (W ++ [n]) e } := by
  have hfind := Disk.find?_set_child s.disk W n e
  refine ⟨h.blunts.set (by simp) (hf.files n) e,
    fun hin => (h.ways hin).trans (Disk.keepsWays_set _ _ (Disk.below_child W n)), h.log, ?_, fun ns t ht => ?_⟩
  · rw [hfind, if_neg (by simpa using hn), h.input]
  · rw [hfind] at ht
    split at ht
    · exact hlink t (Option.some.inj ht)
    · exact h.links ns t ht

theorem erase (h : Shelters W document d₀ inside linked s) (hf : Founded w W d₀) (hn : n ≠ inputArtifact) :
    Shelters W document d₀ inside linked { s with disk := s.disk.erase (W ++ [n]) } := by
  have hfind := Disk.find?_erase_child s.disk W n
  refine ⟨h.blunts.erase (by simp) (hf.files n),
    fun hin => (h.ways hin).trans (Disk.keepsWays_erase _ (Disk.below_child W n)), h.log, ?_, fun ns t ht => ?_⟩
  · rw [hfind, if_neg (by simpa using hn), h.input]
  · rw [hfind] at ht
    split at ht
    · cases ht
    · exact h.links ns t ht

theorem grows (h : Shelters W document d₀ inside linked s) (hgrows : Disk.Grows s.disk s'.disk)
    (hjournal : s'.journal = s.journal)
    (hinput : s'.disk.find? (W ++ [inputArtifact]) = s.disk.find? (W ++ [inputArtifact]))
    (hlinks : ∀ ns t, s'.disk.find? (W ++ ns) = some (.link t) → s.disk.find? (W ++ ns) = some (.link t)) :
    Shelters W document d₀ inside linked s' where
  blunts := h.blunts.grows hgrows
  ways hin := (h.ways hin).trans (hgrows.keepsWays W)
  log n hn := by
    unfold IsLog
    rw [hjournal]
    exact h.log n hn
  input := hinput.trans h.input
  links ns t ht := h.links ns t (hlinks ns t ht)

theorem makeDirs (h : Shelters W document d₀ inside linked s) {p : Path} (hd : s.disk.makeDirs p = .ok d) :
    Shelters W document d₀ inside linked { s with disk := d } := by
  have hextends := Disk.of_makeDirs hd
  refine h.grows hextends.grows rfl (hextends.kept _ (by simp [h.input])) fun ns t ht => ?_
  rcases Disk.new_of_makeDirs hd (W ++ ns) with heq | hdir
  · exact heq.symm.trans ht
  · cases hdir.symm.trans ht

theorem report (h : Shelters W document d₀ inside linked s) (hd : Differs (fun _ => False) s s') :
    Shelters W document d₀ inside linked s' := by
  refine h.grows hd.grows hd.journal (hd.find? id (h.log _ (by decide))) fun ns t ht => ?_
  rcases hd.kept (W ++ ns) id with heq | ⟨-, -, c', -, hc'⟩
  · exact heq.symm.trans ht
  · cases hc'.symm.trans ht

theorem records (h : Shelters W document d₀ inside linked s) (m : Assoc String Record) :
    Shelters W document d₀ inside linked { s with records := m } :=
  ⟨h.blunts, h.ways, h.log, h.input, h.links⟩

/-- What is written to the workspace itself comes to its place. -/
theorem writeJson (h : Shelters W document d₀ inside linked s) (hf : Founded w W d₀) (hn : Path.IsName n)
    (hinput : n ≠ inputArtifact) {v : Json} (hd : s.disk.writeJson (w.path.child n) v = .ok d) :
    Shelters W document d₀ inside linked { s with disk := d } ∧
      d.find? (W ++ [n]) = some (.file (.json v.sortKeys)) := by
  obtain ⟨d₁, hdirs, hreplace⟩ := Attempt.bind_eq_ok.1 hd
  have h₁ := h.makeDirs hdirs
  obtain ⟨-, rfl⟩ := (h₁.opens hf).of_replaceWith hn hreplace
  refine ⟨h₁.set hf hinput (by simp), ?_⟩
  rw [Disk.find?_set_child, if_pos rfl]

/-- An artifact of a stage comes to a place that is not that of the input. -/
theorem writeStage (h : Shelters W document d₀ inside False s) (hf : Founded w W d₀) {u : Stage} (hu : u.Apart)
    (hin : inside → u.Inside) {v : Json} (hd : s.disk.writeJson (w.artifactPath u.artifact) v = .ok d) :
    Shelters W document d₀ inside False { s with disk := d } := by
  obtain ⟨d₁, hdirs, hreplace⟩ := Attempt.bind_eq_ok.1 hd
  have h₁ := h.makeDirs hdirs
  obtain ⟨a, ha, hnot, rfl⟩ := Disk.of_replaceWith hreplace
  obtain ⟨names, n, hparts, hup⟩ := u.parts_artifact
  have hplace : ∀ ns, Path.resolve [] (Path.parse u.artifact).parts = some ns → a = W ++ ns := fun ns hns =>
    h₁.blunts.of_locate_join hf.rooted h₁.links u.isAbsolute_artifact (by simp [hparts]) hns ha
  refine h₁.put hnot (fun heq => ?_) (fun hinside => ?_) _
  · rcases hu with hname | ⟨ns, hns, hne⟩
    · obtain ⟨c, hc⟩ := Disk.last_of_locate u.isAbsolute_artifact hparts hup ha
      have hlast : n = inputArtifact := by simpa using (List.append_inj' (hc.symm.trans heq) rfl).2
      refine hname ?_
      unfold Path.name
      rw [hparts, hlast, List.getLast?_concat]
      rfl
    · exact hne (List.append_cancel_left ((hplace ns hns).symm.trans heq))
  · obtain ⟨ns, hns⟩ := hin hinside
    obtain rfl := hplace ns hns
    cases ns with
    | nil =>
      rw [List.append_nil] at hnot
      exact absurd (h₁.blunts.dirs W hf.rooted.dir) hnot
    | cons m ns => exact ⟨m, ns, rfl⟩

/-- Unless the way to the workspace was cut, the input reads back. -/
theorem readJson (h : Shelters W document d₀ inside linked s) (hf : Founded w W d₀) (hin : inside) :
    s.disk.readJson (w.artifactPath inputArtifact) = .ok document.sortKeys :=
  (hf.rooted.of_keepsWays (h.ways hin)).readJson isArtifactName_input.1.isName isArtifactName_input.1.nulFree h.input

end Shelters

/-! ## Steps -/

section Steps

variable (hf : Founded w W d₀)
include hf

theorem keeps_listing (n : String) :
    Action.Keeps (Shelters W document d₀ inside linked) (w.addArtifact n) :=
  (keeps_modify fun _ hs => hs.records _).bind fun _ => (keeps_look _).bind fun _ =>
    Session.keeps_write fun _ _ hs hd => (hs.writeJson hf isName_recordName.1 (by decide) hd).1

theorem keeps_writeStage {u : Stage} (hu : u.Apart) (hin : inside → u.Inside) (v : Json) :
    Action.Keeps (Shelters W document d₀ inside False) (w.writeArtifact u.artifact v) :=
  (Session.keeps_write fun _ _ hs hd => hs.writeStage hf hu hin hd).bind fun _ =>
    (keeps_listing hf u.artifact).bind fun _ => keeps_pure _

/-- The link to the compiled plan leads past the input. -/
theorem keeps_bindCompiled (v : Json) : Action.Keeps (Shelters W document d₀ inside True)
    (Pointers.bindLink v (w.artifactPath compiledArtifact)) :=
  Pointers.bindLink_keeps isArtifactName_compiled.1.isName (fun _ hs => hs.opens hf)
    (fun _ _ hs _ => hs.set hf (by decide) fun _ _ => trivial)
    (fun _ _ hs _ _ _ => hs.set hf (by decide) fun _ _ => trivial)
    (fun _ hs _ => hs.erase hf (by decide)) v

theorem keeps_linkCompiled (t : String) :
    Action.Keeps (Shelters W document d₀ inside True) (w.link compiledArtifact t) :=
  keeps_link (keeps_bindCompiled hf (.str t)) (keeps_listing hf compiledArtifact)

end Steps

/-! ## The halves of the pipeline -/

/-- The end of the pipeline: the last artifact is linked as the compiled plan. -/
def conclude (w : Workspace) (finished : List Finished) : Session (List Finished) := do
  let last := (finished.getLast?.map (·.artifact)).getD inputArtifact
  discard (w.link compiledArtifact last)
  Session.info logger s!"Config pipeline completed ({finished.length} stages)" "pipeline_completed" none
    (some (.obj [("compiled", .str last)]))
  return finished

theorem run_eq (w : Workspace) {stages : List Stage} (hne : stages ≠ [])
    (hraw : Document.check document .raw = .ok ()) :
    run w stages document = (w.writeArtifact inputArtifact document >>= fun _ =>
      runStages w document stages >>= conclude w) := by
  unfold run
  rw [if_neg (by simpa using hne), hraw, Action.lift_ok_bind, Action.discard_eq, bind_assoc]
  rfl

section Halves

variable (hf : Founded w W d₀)
include hf

theorem keeps_stages {stages : List Stage} (hapart : ∀ u ∈ stages, u.Apart)
    (hin : inside → ∀ u ∈ stages, u.Inside) (current : Json) :
    Action.Keeps (Shelters W document d₀ inside False) (runStages w current stages) :=
  keeps_runStages (fun _ _ hs hd => hs.report hd)
    (fun u hu v => keeps_writeStage hf (hapart u hu) (fun hinside => hin hinside u hu) v) current

theorem keeps_conclude (finished : List Finished) :
    Action.Keeps (Shelters W document d₀ inside True) (conclude w finished) :=
  (keeps_linkCompiled hf _).discard.bind fun _ =>
    (Session.keeps_report (fun _ _ hs hd => hs.report hd) _).bind fun _ => keeps_pure _

end Halves

/-- In a new workspace without links the input is put in its place. -/
theorem shelters_input {A : Address} (h : New w A s)
    (hlinks : ∀ ns t, s.disk.find? (A ++ [w.key] ++ ns) ≠ some (.link t)) (document : Json) (inside : Prop) :
    ∃ s', (w.writeArtifact inputArtifact document).run s = (.ok (w.artifactPath inputArtifact), s') ∧
      Shelters (A ++ [w.key]) document s.disk inside False s' := by
  obtain ⟨W, hW⟩ : ∃ W, W = A ++ [w.key] := ⟨_, rfl⟩
  have hf := founded_of_new h hlinks
  have hflat := h.flat inputArtifact
  have hrooted := h.stands.rooted
  have hlog : ∀ n, n ≠ logName → ¬ s.IsLog (A ++ [w.key] ++ [n]) := fun n hn =>
    h.stands.ready.not_isLog_grandchild w.key hn
  rw [← hW] at hlinks hf hflat hrooted hlog ⊢
  have hfind := Disk.find?_set_child s.disk W inputArtifact (.file (.json document.sortKeys))
  have hput : Shelters W document s.disk inside False
      { s with disk := s.disk.set (W ++ [inputArtifact]) (.file (.json document.sortKeys)) } := by
    refine ⟨(Disk.Blunts.refl _).put hflat _, fun _ => Disk.keepsWays_set _ _ (Disk.below_child W _), hlog, ?_,
      fun ns t ht => ?_⟩
    · rw [hfind, if_pos rfl]
    · rw [hfind] at ht
      split at ht
      · cases ht
      · exact hlinks ns t ht
  have hwrite : s.disk.writeJson (w.artifactPath inputArtifact) document =
      .ok (s.disk.set (W ++ [inputArtifact]) (.file (.json document.sortKeys))) :=
    hrooted.writeJson isArtifactName_input.1.isName isArtifactName_input.1.nulFree hflat document
  obtain ⟨s', hrun, -⟩ := writeArtifact_gains h.toWorkable isArtifactName_input.1 document
  have hlist : Action.Keeps (Shelters W document s.disk inside False) (do
      w.addArtifact inputArtifact
      return w.artifactPath inputArtifact) := (keeps_listing hf inputArtifact).bind fun _ => keeps_pure _
  exact ⟨s', hrun, hlist.of_run hput ((run_bind_ok (Session.run_write_ok hwrite)).symm.trans hrun)⟩

/-! ## What is listed -/

/-- An action that leaves the record as it is. -/
def Silent {α : Type} (w : Workspace) (a : Session α) : Prop :=
  ∀ r, Action.Keeps (fun s => w.recordIn s = r) a

/-- An action that lists artifacts in the record, if it ends well. -/
def Lists {α : Type} (w : Workspace) (ns : List String) (a : Session α) : Prop :=
  ∀ s x s', a.run s = (.ok x, s') → w.recordIn s' = ns.foldl Record.addArtifact (w.recordIn s)

section Lists

variable {α β : Type} {a : Session α} {f : α → Session β} {names more : List String}

theorem Silent.lists (h : Silent w a) : Lists w [] a := fun s _ _ hrun =>
  (h (w.recordIn s)).of_run rfl hrun

theorem Lists.bind (h : Lists w names a) (hf : ∀ x, Lists w more (f x)) :
    Lists w (names ++ more) (a >>= f) := by
  intro s y s' hrun
  obtain ⟨x, s₁, ha, hrest⟩ := of_run_bind_ok hrun
  rw [hf x s₁ y s' hrest, h s x s₁ ha, List.foldl_append]

theorem Lists.before (h : Lists w names a) (hf : ∀ x, Silent w (f x)) : Lists w names (a >>= f) := by
  simpa using h.bind fun x => (hf x).lists

theorem Silent.bind_lists (h : Silent w a) (hf : ∀ x, Lists w names (f x)) : Lists w names (a >>= f) :=
  h.lists.bind hf

theorem silent_write (f : Disk → Disk.Change) : Silent w (Session.write f) := fun _ =>
  Session.keeps_write fun _ _ hs _ => hs

theorem silent_report (r : LogRecord) : Silent w (Session.report r) := fun _ =>
  Session.keeps_report (fun _ _ hs hd => (recordIn_congr hd.records hd.clock).trans hs) r

theorem silent_transform (u : Stage) (document : Json) : Silent w (transform u document) := fun _ =>
  keeps_transform (fun _ _ hs hd => (recordIn_congr hd.records hd.clock).trans hs) u document

theorem silent_bindLink (v : Json) (link : Path) : Silent w (Pointers.bindLink v link) := fun _ =>
  Pointers.keeps_bindLink_of_detached (fun _ _ _ hs => hs) v link

theorem lists_addArtifact (n : String) : Lists w [n] (w.addArtifact n) := by
  intro s x s' hrun
  obtain ⟨_, s₁, hchange, hsave⟩ := of_run_bind_ok hrun
  cases hchange
  have hsilent : Silent w w.saveRecord := fun r => (keeps_look _).bind fun _ => silent_write _ r
  rw [hsilent.lists _ _ _ hsave, List.foldl_nil, recordIn_setRecord]
  rfl

theorem lists_writeArtifact (n : String) (v : Json) : Lists w [n] (w.writeArtifact n v) :=
  (silent_write _).bind_lists fun _ => (lists_addArtifact n).before fun _ _ => keeps_pure _

theorem lists_runStage (document : Json) (u : Stage) : Lists w [u.artifact] (runStage w document u) :=
  Silent.bind_lists (fun _ => keeps_look _) fun _ => (silent_report _).bind_lists fun _ =>
    Silent.bind_lists (fun _ => keeps_lift _) fun _ => (silent_transform u document).bind_lists fun output =>
    Silent.bind_lists (fun _ => keeps_lift _) fun _ =>
    Lists.before ((lists_writeArtifact u.artifact output).before fun _ _ => keeps_pure _) fun _ r =>
    (keeps_look _).bind fun _ => (silent_report _ r).bind fun _ => keeps_pure _

theorem lists_runStages (document : Json) (stages : List Stage) :
    Lists w (stages.map (·.artifact)) (runStages w document stages) := by
  induction stages generalizing document with
  | nil => exact Silent.lists fun _ => keeps_pure _
  | cons u rest ih =>
    exact (lists_runStage document u).bind fun r => (ih r.1).before fun _ _ => keeps_pure _

theorem lists_link (n t : String) : Lists w [n] (w.link n t) := by
  have hrest := (silent_bindLink (w := w) (.str t) (w.artifactPath n)).bind_lists fun _ =>
    (lists_addArtifact n).before fun _ _ => keeps_pure (w.artifactPath n)
  unfold link
  refine Silent.bind_lists (fun _ => Session.keeps_read _) fun _ => ?_
  split
  · exact Silent.bind_lists (fun _ => keeps_fail _) fun _ => hrest
  · exact hrest

/-- The input, then the artifacts of the stages one after another, then the link to the last of them. -/
def listing (stages : List Stage) : List String :=
  inputArtifact :: (stages.map (·.artifact) ++ [compiledArtifact])

theorem lists_conclude (finished : List Finished) : Lists w [compiledArtifact] (conclude w finished) :=
  ((lists_link compiledArtifact _).before fun _ _ => keeps_pure _).before fun _ r =>
    (silent_report _ r).bind fun _ => keeps_pure _

theorem lists_run {stages : List Stage} (hne : stages ≠ []) (hraw : Document.check document .raw = .ok ()) :
    Lists w (listing stages) (run w stages document) := by
  rw [run_eq w hne hraw]
  exact (lists_writeArtifact inputArtifact document).bind fun _ =>
    (lists_runStages document stages).bind lists_conclude

end Lists

/-- The listing names nothing twice. -/
theorem nodup_listing {stages : List Stage} (hnodup : (stages.map (·.name)).Nodup)
    (hapart : ∀ u ∈ stages, u.Apart) : (listing stages).Nodup := by
  have hinput : inputArtifact ∉ stages.map (·.artifact) := by
    intro hmem
    obtain ⟨u, hu, heq⟩ := List.mem_map.1 hmem
    exact (hapart u hu).artifact_ne heq
  have hcompiled : compiledArtifact ∉ stages.map (·.artifact) := by
    intro hmem
    obtain ⟨u, -, heq⟩ := List.mem_map.1 hmem
    exact isArtifactName_compiled.2 (heq ▸ u.artifact_named.starts)
  unfold listing
  rw [List.nodup_cons, List.nodup_append]
  refine ⟨?_, nodup_artifacts hnodup, List.nodup_singleton _, ?_⟩
  · rw [List.mem_append, List.mem_singleton]
    exact fun hmem => hmem.elim hinput (by decide)
  · rintro n hn _ hlast rfl
    exact hcompiled (List.mem_singleton.1 hlast ▸ hn)

/-! ## The whole pipeline -/

theorem linkless_specimen (ns : Address) (t : String) :
    specimenSite.disk.find? (["/"] ++ [specimen.key] ++ ns) ≠ some (.link t) := by
  intro hfind
  have hmem := Assoc.mem_of_find? (m := specimenSite.disk.entries) hfind
  simp [specimenSite, Site.ofDisk] at hmem

/-- The record on disk is the one that is held. -/
def Saved (w : Workspace) (W : Address) (s : Site) : Prop :=
  s.disk.find? (W ++ [recordName]) = some (.file (.json (w.recordIn s).toJson.sortKeys))

/-- What is listed is saved, if that ends well. -/
theorem saved_of_addArtifact (hf : Founded w W d₀) (h : Shelters W document d₀ inside linked s)
    (hrun : (w.addArtifact n).run s = (.ok (), s')) : Saved w W s' := by
  obtain ⟨_, s₁, hchange, hsave⟩ := of_run_bind_ok hrun
  cases hchange
  obtain ⟨r, s₂, hrecord, hwrite⟩ := of_run_bind_ok hsave
  cases hrecord
  obtain ⟨d, hd, rfl⟩ := Session.of_run_write hwrite
  exact ((h.records _).writeJson hf isName_recordName.1 (by decide) hd).2

theorem saved_of_link (hf : Founded w W d₀) (h : Shelters W document d₀ inside True s) {t : String} {path : Path}
    (hrun : (w.link compiledArtifact t).run s = (.ok path, s')) : Saved w W s' := by
  unfold link at hrun
  rw [Session.run_read_total] at hrun
  split at hrun
  · cases hrun
  · obtain ⟨_, s₁, hbind, hlist⟩ := of_run_bind_ok hrun
    obtain ⟨_, s₂, hadd, hpure⟩ := of_run_bind_ok hlist
    cases hpure
    exact saved_of_addArtifact hf ((keeps_bindCompiled hf (.str t)).of_run h hbind) hadd

/-- A pipeline that ends well leaves its record written. -/
theorem saved_of_conclude (hf : Founded w W d₀) (h : Shelters W document d₀ inside True s)
    {finished done : List Finished} (hrun : (conclude w finished).run s = (.ok done, s')) : Saved w W s' := by
  obtain ⟨_, s₁, hlink, hreport⟩ := of_run_bind_ok hrun
  have h₁ := (keeps_linkCompiled hf _).discard.of_run h hlink
  obtain ⟨_, hlink⟩ := of_run_discard_ok hlink
  obtain ⟨_, s₂, hinfo, hpure⟩ := of_run_bind_ok hreport
  cases hpure
  obtain ⟨_, hinfo', hdiff⟩ := info_run logger s!"Config pipeline completed ({finished.length} stages)"
    "pipeline_completed" none
    (some (.obj [("compiled", .str ((finished.getLast?.map (·.artifact)).getD inputArtifact))])) s₁
  obtain ⟨-, rfl⟩ := Prod.mk.inj (hinfo.symm.trans hinfo')
  unfold Saved
  rw [hdiff.find? id (h₁.log _ (by decide)), saved_of_link hf h hlink, recordIn_congr hdiff.records hdiff.clock]

/-- However a pipeline ends in a new workspace without links, its input is in its place, and reads back unless
an artifact led out of the workspace. If it ends well, the record lists the input, one artifact for each stage,
in the order of their names, and the compiled plan. -/
theorem run_shelters {A : Address} {stages ordered : List Stage} (h : New w A s)
    (hlinks : ∀ ns t, s.disk.find? (A ++ [w.key] ++ ns) ≠ some (.link t))
    (horder : order stages = .ok ordered) (hne : stages ≠ []) (hnodup : (stages.map (·.name)).Nodup)
    (hapart : ∀ u ∈ stages, u.Apart) (hraw : Document.check document .raw = .ok ()) :
    ∃ r s', (run w ordered document).run s = (r, s') ∧
      s'.disk.find? (A ++ [w.key] ++ [inputArtifact]) = some (.file (.json document.sortKeys)) ∧
      ((∀ u ∈ stages, u.Inside) →
        s'.disk.readJson (w.artifactPath inputArtifact) = .ok document.sortKeys) ∧
      ∀ finished, r = .ok finished →
        (w.recordIn s').artifacts = (listing (Text.sortOn Stage.name stages)).map .str ∧
        (listing (Text.sortOn Stage.name stages)).Nodup ∧
        (listing (Text.sortOn Stage.name stages)).length = stages.length + 2 ∧
        Saved w (A ++ [w.key]) s' := by
  obtain rfl := order_eq_ok horder
  have hperm := Text.sortOn_perm Stage.name stages
  have hne' : Text.sortOn Stage.name stages ≠ [] := fun hnil => hne (List.nil_perm.1 (hnil ▸ hperm))
  have hapart' : ∀ u ∈ Text.sortOn Stage.name stages, u.Apart := fun u hu => hapart u (hperm.mem_iff.1 hu)
  have hlisting := nodup_listing ((hperm.map _).nodup_iff.2 hnodup) hapart'
  have hf := founded_of_new h hlinks
  obtain ⟨s₁, hinput, h₁⟩ := shelters_input h hlinks document (∀ u ∈ stages, u.Inside)
  have hstages : Action.Keeps (Shelters _ document _ (∀ u ∈ stages, u.Inside) False) _ :=
    keeps_stages hf hapart' (fun hin u hu => hin u (hperm.mem_iff.1 hu)) document
  obtain ⟨r, s', hrun⟩ : ∃ r s', (run w (Text.sortOn Stage.name stages) document).run s = (r, s') := ⟨_, _, rfl⟩
  have hrest := hrun
  rw [run_eq w hne' hraw, run_bind_ok hinput] at hrest
  have hkept := hstages.run_bind (fun _ hs => hs.mono) (keeps_conclude hf) h₁
  rw [hrest] at hkept
  refine ⟨r, s', hrun, hkept.input, hkept.readJson hf, ?_⟩
  rintro finished rfl
  obtain ⟨_, s₂, hruns, hend⟩ := of_run_bind_ok hrest
  refine ⟨?_, hlisting, ?_, saved_of_conclude hf (hstages.of_run h₁ hruns).mono hend⟩
  · rw [lists_run hne' hraw s finished s' hrun, h.record]
    have hnone : (Record.start w.key s.clock).artifacts = ([] : List String).map .str := rfl
    exact artifacts_addArtifacts hnone hlisting
  · simp [listing, hperm.length_eq]

theorem run_shelters_marking :
    New specimen ["/"] specimenSite ∧
      (∀ ns t, specimenSite.disk.find? (["/"] ++ [specimen.key] ++ ns) ≠ some (.link t)) ∧
      order [marking "a/../b"] = .ok [marking "a/../b"] ∧ (marking "a/../b").Apart ∧
      (marking "a/../b").Inside ∧ Document.check (.obj []) .raw = .ok () ∧
      ∃ finished s', (run specimen [marking "a/../b"] (.obj [])).run specimenSite = (.ok finished, s') ∧
        s'.disk.find? (["/"] ++ [specimen.key] ++ [inputArtifact]) =
          some (.file (.json (Json.obj []).sortKeys)) ∧
        s'.disk.readJson (specimen.artifactPath inputArtifact) = .ok (Json.obj []).sortKeys ∧
        (specimen.recordIn s').artifacts = (listing (Text.sortOn Stage.name [marking "a/../b"])).map .str ∧
        (listing (Text.sortOn Stage.name [marking "a/../b"])).Nodup ∧
        (listing (Text.sortOn Stage.name [marking "a/../b"])).length = 1 + 2 ∧
        Saved specimen (["/"] ++ [specimen.key]) s' := by
  have hapart : (marking "a/../b").Apart := .inl (by decide +kernel)
  have hinside : (marking "a/../b").Inside := ⟨["b.json"], by decide +kernel⟩
  have hok : ((run specimen [marking "a/../b"] (.obj [])).run specimenSite).1.isOk = true := by decide +kernel
  obtain ⟨r, s', hrun, hfile, hread, hlist⟩ :=
    run_shelters new_specimen linkless_specimen (order_marking "a/../b") (by simp) (by simp)
      (List.forall_mem_singleton.2 hapart) (show Document.check (.obj []) .raw = .ok () from rfl)
  rw [hrun] at hok
  cases r with
  | error f => cases hok
  | ok finished =>
    exact ⟨new_specimen, linkless_specimen, order_marking _, hapart, hinside, rfl, finished, s', hrun, hfile,
      hread (List.forall_mem_singleton.2 hinside), hlist finished rfl⟩

/-- A stage may have the name of the input, or one that leads to it. It replaces the input, which a record that
is written lists once. -/
theorem input_lost_marking :
    New specimen ["/"] specimenSite ∧ Document.check (.obj []) .raw = .ok () ∧
      order [marking "input"] = .ok [marking "input"] ∧
      order [marking "a/../config-input"] = .ok [marking "a/../config-input"] ∧
      (∃ r s', (run specimen [marking "input"] (.obj [])).run specimenSite = (r, s') ∧ r.isOk = true ∧
        s'.disk.readJson (specimen.artifactPath inputArtifact) ≠ .ok (Json.obj []).sortKeys ∧
        (specimen.recordIn s').artifacts = [.str inputArtifact, .str compiledArtifact]) ∧
      ∃ r s', (run specimen [marking "a/../config-input"] (.obj [])).run specimenSite = (r, s') ∧
        r.isOk = true ∧
        s'.disk.readJson (specimen.artifactPath inputArtifact) ≠ .ok (Json.obj []).sortKeys :=
  ⟨new_specimen, rfl, order_marking _, order_marking _,
    ⟨_, _, rfl, by decide +kernel, by decide +kernel, by decide +kernel⟩,
    _, _, rfl, by decide +kernel, by decide +kernel⟩

end Pipeline

/-- In the workspace that an allocation makes there are no links. -/
theorem BuildDir.Allocated.linkless {b : BuildDir} {A : Address} {key : String} {s s' : Site}
    (h : b.Allocated A key s s') (htree : s.disk.IsTree) (ns : Address) (t : String) :
    s'.disk.find? (A ++ [key] ++ ns) ≠ some (.link t) := by
  intro hlink
  by_cases hdir : A ++ [key] ++ ns = A ++ [key]
  · rw [hdir, h.dir] at hlink
    cases hlink
  by_cases hrecord : A ++ [key] ++ ns = A ++ [key] ++ [recordName]
  · rw [hrecord, h.record] at hlink
    cases hlink
  · rw [h.kept _ hdir hrecord, htree.find?_below h.free ns] at hlink
    cases hlink

end FlowPlan

import FlowPlan.Build.Compile
import FlowPlan.Proofs.Attempt
import FlowPlan.Proofs.Workspace

/-!
# What the phases of an attempt touch

From the pipeline to the last gate an attempt works in its own workspace, if the units have plain names.
If the commands leave the build root alone as well, then so does the attempt: what the build root itself
holds, the records of other workspaces and the way to the build root are as before.

## Main definitions

* `Check.Leaves` — what a command does to the ground, if the check is one.
* `Ground.Spares` — what a discreet command does.
* `NamedAfter` — how the artifacts of units are named.
* `Builder.Plain`, `Builder.Discreet` — plain names, and discreet commands.
* `Builder.judged` — the phases up to the promotion.
* `Workspace.Within` — what has changed lies in the workspace.
* `Workspace.Move`, `Workspace.Moves` — what one step of the phases does.

## Main statements

* `Builder.phases_eq` — the phases are the judged ones and the promotion.
* `Builder.moves_judged` — the steps of the judged phases are moves.
* `Builder.stays_judged` — with discreet commands the judged phases stay within the workspace.
-/

namespace FlowPlan

open FlowPlan.Action Site

/-! ## Commands -/

/-- If the check is a command, it changes the ground in this way only when it is called on what is judged
in the workspace. -/
def Check.Leaves (c : Check) (host : Host) (w : Workspace) (C : Ground → Ground → Prop) : Prop :=
  ∀ words, c.judge = .command words → ∀ path ∈ [Pipeline.compiledPath w, w.path], ∀ g p g',
    host.start (words ++ [path.text]) g = .ok (p, g') → C g g'

/-- The workspace is a directory of the build root. -/
structure Workspace.Lies (w : Workspace) (A : Address) (d : Disk) : Prop where
  root : Disk.Rooted Disk.maxLinks d w.root A
  name : Path.IsName w.key ∧ Path.NulFree w.key
  dir : d.find? (A ++ [w.key]) = some .dir

theorem Workspace.Stands.lies {w : Workspace} {A : Address} {s : Site} (h : Stands w A s) : w.Lies A s.disk :=
  ⟨h.ready.rooted, h.name, h.dir⟩

/-- The path of the build root leads to it as before, its entries and the records of its workspaces are what
they were, and no lock has come or gone. -/
structure Ground.Spares (root : Path) (A : Address) (g g' : Ground) : Prop where
  rooted : Disk.KeepsRooted root A g.disk g'.disk
  own : ∀ k, g'.disk.find? (A ++ [k]) = g.disk.find? (A ++ [k])
  records : ∀ k, g'.disk.find? (A ++ [k] ++ [Workspace.recordName]) =
    g.disk.find? (A ++ [k] ++ [Workspace.recordName])
  closed : Disk.Closed A g.disk → Disk.Closed A g'.disk
  locked : g'.locked = g.locked

/-- The command leaves the build root alone when it is called on a workspace there. -/
def Check.Discreet (c : Check) (host : Host) (root : Path) (A : Address) : Prop :=
  ∀ w : Workspace, w.root = root → c.Leaves host w fun g g' => w.Lies A g.disk → Ground.Spares root A g g'

theorem Check.discreet_uniform (c : Check) (p : Process) (root : Path) (A : Address) :
    c.Discreet (.uniform p) root A := by
  rintro w - words - path - g _ _ ⟨⟩ -
  exact ⟨.refl _ _ _, fun _ => rfl, fun _ => rfl, id, rfl⟩

/-- A check that is a function starts nothing. -/
theorem Check.leaves_of_function {c : Check} {examine : Json → Attempt (List Json) × Json}
    (h : c.judge = .function examine) (host : Host) (w : Workspace) (C : Ground → Ground → Prop) :
    c.Leaves host w C := by
  intro words hwords
  rw [h] at hwords
  cases hwords

/-- The name can be part of the name of a file. With a slash in it, it leads to another directory, and then it
depends on what others have written whether there can be a file. -/
def PlainName (n : String) : Prop := '/' ∉ n.toList

instance (n : String) : Decidable (PlainName n) := inferInstanceAs (Decidable (¬ _))

/-! ## Artifacts of units -/

/-- The name of an artifact: a word for the kind of the unit, the name of the unit and the ending. -/
def NamedAfter (word name n : String) : Prop := n.toList = word.toList ++ name.toList ++ ".json".toList

instance (word name n : String) : Decidable (NamedAfter word name n) := inferInstanceAs (Decidable (_ = _))

namespace NamedAfter

variable {word name name' n : String}

theorem starts (h : NamedAfter word name n) : word.toList <+: n.toList := by
  rw [h, List.append_assoc]
  exact List.prefix_append _ _

/-- Units of different names have different artifacts. -/
theorem injective (h : NamedAfter word name n) (h' : NamedAfter word name' n) : name = name' :=
  String.toList_injective (List.append_cancel_left (List.append_cancel_right (h.symm.trans h')))

theorem isName (h : NamedAfter word name n) (hword : PlainName word) (hname : PlainName name) :
    Path.IsName n := by
  have hlength : ".json".toList.length ≤ n.toList.length := by
    rw [h, List.length_append]
    exact Nat.le_add_left _ _
  refine ⟨?_, ?_, ?_, ?_⟩
  · rintro rfl
    exact absurd hlength (by decide)
  · rintro rfl
    exact absurd hlength (by decide)
  · rintro rfl
    exact absurd hlength (by decide)
  · rw [h, List.append_assoc]
    exact List.not_mem_append hword (List.not_mem_append hname (by decide))

theorem nulFree (h : NamedAfter word name n) (hword : Path.NulFree word) :
    Path.NulFree n ↔ Path.NulFree name := by
  unfold Path.NulFree at hword ⊢
  rw [h]
  simp [hword]

end NamedAfter

theorem Stage.artifact_named (s : Stage) : NamedAfter "config-" s.name s.artifact := by
  simp [NamedAfter, artifact, toString]

theorem Generator.artifact_named (g : Generator) : NamedAfter "code-" g.name g.artifact := by
  simp [NamedAfter, artifact, toString]

/-- Units have plain names. -/
structure Builder.Plain (b : Builder) : Prop where
  stages : ∀ us, b.catalogs.stages.units b.settings.disabledStages = .ok us →
    ∀ u ∈ us, PlainName u.name
  generators : ∀ us, b.catalogs.generators.units b.settings.disabledGenerators = .ok us →
    ∀ u ∈ us, PlainName u.name

/-- Units have plain names and commands leave the build root alone. -/
structure Builder.Discreet (b : Builder) (A : Address) : Prop extends b.Plain where
  checks : ∀ cs, b.checks = .ok cs → ∀ c ∈ cs, c.Discreet b.host b.settings.root A

namespace Workspace

/-- What has changed lies in the workspace; its record is still that of an attempt like before. -/
structure Within (w : Workspace) (A : Address) (s s' : Site) : Prop where
  rooted : Disk.KeepsRooted w.root A s.disk s'.disk
  own : ∀ k, s'.disk.find? (A ++ [k]) = s.disk.find? (A ++ [k])
  others : ∀ k, k ≠ w.key → s'.disk.find? (A ++ [k] ++ [recordName]) =
    s.disk.find? (A ++ [k] ++ [recordName])
  record : s'.disk.find? (A ++ [w.key] ++ [recordName]) ≠ some .dir
  closed : Disk.Closed A s'.disk
  status : (w.recordIn s').status = (w.recordIn s).status
  journal : s'.journal = s.journal
  locked : s'.locked = s.locked
  clock : s'.clock = s.clock

variable {w : Workspace} {A : Address} {s₀ s : Site}

theorem Within.refl (h : Stands w A s) (hc : Disk.Closed A s.disk) : Within w A s s :=
  ⟨.refl _ A _, fun _ => rfl, fun _ _ => rfl, h.record, hc, rfl, rfl, rfl, rfl⟩

theorem Within.trans {s' : Site} (h : Within w A s₀ s) (h' : Within w A s s') : Within w A s₀ s' where
  rooted := h.rooted.trans h'.rooted
  own k := (h'.own k).trans (h.own k)
  others k hk := (h'.others k hk).trans (h.others k hk)
  record := h'.record
  closed := h'.closed
  status := h'.status.trans h.status
  journal := h'.journal.trans h.journal
  locked := h'.locked.trans h.locked
  clock := h'.clock.trans h.clock

theorem Within.stands (h : Within w A s₀ s) (h₀ : Stands w A s₀) : Stands w A s where
  ready := h₀.ready.of_keepsRooted h.rooted h.journal
  name := h₀.name
  dir := (h.own w.key).trans h₀.dir
  record := h.record

/-! ## Single steps -/

variable (hs : Stands w A s) (hc : Disk.Closed A s.disk)
include hs hc

theorem within_differs {s' : Site} (hd : Differs (fun _ => False) s s') : Within w A s s' := by
  have hfind : ∀ a, ¬ s.IsLog a → s'.disk.find? a = s.disk.find? a := fun a => hd.find? (by simp)
  have hrecord : ∀ k, s'.disk.find? (A ++ [k] ++ [recordName]) =
      s.disk.find? (A ++ [k] ++ [recordName]) :=
    fun k => hfind _ (hs.ready.not_isLog_grandchild k (by decide))
  refine ⟨(hd.keepsWays hs.ready (by simp)).keepsRooted _, fun k => hfind _ (hs.ready.not_isLog_child k),
    fun k _ => hrecord k, ?_, fun k n hk => ?_, ?_, hd.journal, hd.locked, hd.clock⟩
  · rw [hrecord]
    exact hs.record
  · rw [hfind _ (hs.ready.not_isLog_child k)] at hk
    have hnone := hc k n hk
    rcases hd.kept (A ++ [k] ++ [n]) (by simp) with h | ⟨-, c, -, hfile, -⟩
    · rw [h, hnone]
    · rw [hnone] at hfile
      cases hfile
  · rw [recordIn_congr hd.records hd.clock]

/-- The entry of a name in the workspace changes. -/
theorem within_disk (n : String) {d : Disk} (hhome : d.home = s.disk.home)
    (hkept : ∀ a, a ≠ A ++ [w.key] ++ [n] → d.find? a = s.disk.find? a)
    (hn : n = recordName → d.find? (A ++ [w.key] ++ [n]) ≠ some .dir) :
    Within w A s { s with disk := d } := by
  have hown : ∀ k, d.find? (A ++ [k]) = s.disk.find? (A ++ [k]) := fun k => hkept _ (by simp)
  refine ⟨?_, hown, fun k hk => hkept _ (by simp [hk]), ?_, fun k m hk => ?_, rfl, rfl, rfl, rfl⟩
  · refine Disk.KeepsWays.keepsRooted ⟨hhome, fun a e ha he _ => (hkept a ?_).trans he⟩ _
    rintro rfl
    exact ha (below_grandchild A w.key n)
  · by_cases h : n = recordName
    · exact h ▸ hn h
    · refine fun hdir => hs.record ((hkept _ ?_).symm.trans hdir)
      simpa using Ne.symm h
  · rw [hown] at hk
    refine (hkept _ ?_).trans (hc k m hk)
    intro heq
    have hkey : k = w.key := by simpa using (List.append_inj' heq rfl).1
    exact hk (hkey ▸ hs.dir)

theorem within_set {n : String} {e : Entry} (hn : n ≠ recordName ∨ e ≠ .dir) :
    Within w A s { s with disk := s.disk.set (A ++ [w.key] ++ [n]) e } := by
  refine within_disk hs hc n rfl (fun a ha => ?_) fun h => ?_
  · rw [Disk.find?_set_child, if_neg (Ne.symm ha)]
  · rw [Disk.find?_set_child, if_pos rfl]
    simpa using hn.resolve_left fun hne => hne h

theorem within_spares {g : Ground} (hg : Ground.Spares w.root A ⟨s.disk, s.locked⟩ g) :
    Within w A s { s with disk := g.disk, locked := g.locked } :=
  ⟨hg.rooted, hg.own, fun k _ => hg.records k, fun h => hs.record ((hg.records w.key).symm.trans h),
    hg.closed hc, rfl, rfl, hg.locked, rfl⟩

theorem within_changeRecord {f : Instant → Record → Record}
    (hf : ∀ now r, (f now r).status = r.status) :
    Within w A s { s with records := Assoc.set s.records w.path.text (f s.clock (w.recordIn s)) } :=
  ⟨.refl _ A _, fun _ => rfl, fun _ _ => rfl, hs.record, hc, by rw [recordIn_setRecord, hf],
    rfl, rfl, rfl⟩

omit hs hc

/-! ## What actions keep -/

/-- One step of the phases: an entry of the workspace changes, which neither is nor becomes a directory, the
log or the listing of the artifacts grows, or a command changes the ground, which it does by `C`. -/
inductive Move (w : Workspace) (A : Address) (C : Ground → Ground → Prop) (s : Site) : Site → Prop
  | entry {n : String} {d : Disk} (home : d.home = s.disk.home)
      (kept : ∀ a, a ≠ A ++ [w.key] ++ [n] → d.find? a = s.disk.find? a)
      (before : s.disk.find? (A ++ [w.key] ++ [n]) ≠ some .dir)
      (after : d.find? (A ++ [w.key] ++ [n]) ≠ some .dir) :
      Move w A C s { s with disk := d }
  | log {s' : Site} (differs : Differs (fun _ => False) s s') : Move w A C s s'
  | command {g : Ground} (changes : C ⟨s.disk, s.locked⟩ g) :
      Move w A C s { s with disk := g.disk, locked := g.locked }
  | listing {f : Instant → Record → Record} (status : ∀ now r, (f now r).status = r.status) :
      Move w A C s { s with records := Assoc.set s.records w.path.text (f s.clock (w.recordIn s)) }

/-- No move makes the predicate false, and the workspace stands where it is true. -/
structure Firm (w : Workspace) (A : Address) (C : Ground → Ground → Prop) (I : Site → Prop) : Prop where
  stands : ∀ s, I s → Stands w A s
  move : ∀ s s', I s → Move w A C s s' → I s'

/-- An action whose steps are moves. -/
abbrev Moves (w : Workspace) (A : Address) (C : Ground → Ground → Prop) {α : Type} (a : Session α) : Prop :=
  ∀ I, Firm w A C I → Action.Keeps I a

variable {C : Ground → Ground → Prop} {α : Type}

theorem move_set {n : String} {e : Entry} (hbefore : s.disk.find? (A ++ [w.key] ++ [n]) ≠ some .dir)
    (he : e ≠ .dir) : Move w A C s { s with disk := s.disk.set (A ++ [w.key] ++ [n]) e } := by
  refine .entry (n := n) rfl (fun a ha => ?_) hbefore ?_
  · rw [Disk.find?_set_child, if_neg (Ne.symm ha)]
  · rw [Disk.find?_set_child, if_pos rfl]
    simpa using he

theorem move_erase {n : String} (hbefore : s.disk.find? (A ++ [w.key] ++ [n]) ≠ some .dir) :
    Move w A C s { s with disk := s.disk.erase (A ++ [w.key] ++ [n]) } := by
  refine .entry (n := n) rfl (fun a ha => ?_) hbefore ?_
  · rw [Disk.find?_erase_child, if_neg (Ne.symm ha)]
  · rw [Disk.find?_erase_child, if_pos rfl]
    simp

theorem moves_read (f : Disk → Attempt α) : Moves w A C (Session.read f) := fun _ _ => Session.keeps_read f

theorem moves_report (r : LogRecord) : Moves w A C (Session.report r) :=
  fun _ hI => Session.keeps_report (fun s s' hs hd => hI.move s s' hs (.log hd)) r

theorem moves_debug (logger message : String) (event : Option String) (metadata : Option Json) :
    Moves w A C (Session.debug logger message event metadata) := moves_report _

theorem moves_info (logger message event : String) (stage : Option String) (metadata : Option Json) :
    Moves w A C (Session.info logger message event stage metadata) := moves_report _

theorem moves_error (logger message event : String) (stage : Option String) (metadata : Option Json)
    (fault : Option Fault) :
    Moves w A C (Session.error logger message event stage metadata fault) := moves_report _

theorem moves_writeJson {n : String} (hn : Path.IsName n) (v : Json) :
    Moves w A C (Session.write (·.writeJson (w.path.child n) v)) := fun I hI =>
  Session.keeps_write fun s d hs hd => by
    obtain ⟨hdir, rfl⟩ := (hI.stands s hs).rooted.of_writeJson hn hd
    exact hI.move _ _ hs (move_set hdir (by simp))

theorem moves_addArtifact (n : String) : Moves w A C (w.addArtifact n) := fun I hI =>
  (Action.keeps_modify fun s hs => hI.move _ _ hs (.listing (f := fun _ r => r.addArtifact n)
    fun _ r => by unfold Record.addArtifact; split <;> rfl)).bind
  fun _ => (Action.keeps_look _).bind fun _ => moves_writeJson isName_recordName.1 _ I hI

theorem moves_writeArtifact {n : String} (hn : Path.IsName n) (v : Json) :
    Moves w A C (w.writeArtifact n v) := fun I hI =>
  (moves_writeJson hn v I hI).bind fun _ => (moves_addArtifact n I hI).bind fun _ => keeps_pure _

theorem moves_bindLink {n : String} (hn : Path.IsName n) (v : Json) :
    Moves w A C (Pointers.bindLink v (w.path.child n)) := fun I hI =>
  Pointers.bindLink_keeps hn (fun s hs => (hI.stands s hs).rooted.opens)
    (fun _ _ hs hnone => hI.move _ _ hs (move_set (by rw [hnone]; simp) (by simp)))
    (fun _ _ hs _ he hdir => hI.move _ _ hs (move_set hdir he))
    (fun _ hs hdir => hI.move _ _ hs (move_erase hdir)) v

/-- A link to what is there is made and listed. -/
theorem keeps_link {I : Site → Prop} {n target : String}
    (hbind : Action.Keeps I (Pointers.bindLink (.str target) (w.path.child n)))
    (hlist : Action.Keeps I (w.addArtifact n)) : Action.Keeps I (w.link n target) := by
  have hrest := hbind.bind fun _ => hlist.bind fun _ => keeps_pure (w.artifactPath n)
  unfold link
  refine (Session.keeps_read _).bind fun _ => ?_
  split
  · exact (keeps_fail _).bind fun _ => hrest
  · exact hrest

theorem moves_link {n : String} (hn : Path.IsName n) (target : String) :
    Moves w A C (w.link n target) := fun I hI =>
  keeps_link (moves_bindLink hn (.str target) I hI) (moves_addArtifact n I hI)

/-- No move changes the status of the record either. -/
theorem Firm.status {I : Site → Prop} (h : Firm w A C I) (v : Json) :
    Firm w A C fun s => I s ∧ (w.recordIn s).status = v := by
  refine ⟨fun s hs => h.stands s hs.1, fun s s' hs hm => ⟨h.move s s' hs.1 hm, ?_⟩⟩
  cases hm with
  | entry => exact hs.2
  | log differs => rw [recordIn_congr differs.records differs.clock, hs.2]
  | command => exact hs.2
  | listing status => rw [recordIn_setRecord, status, hs.2]

/-! ### Within the workspace -/

/-- The state differs from the one at the start within the workspace only. -/
def Kept (w : Workspace) (A : Address) (s₀ s : Site) : Prop :=
  Stands w A s ∧ Within w A s₀ s

/-- An action whose steps stay within the workspace. -/
abbrev Stays (w : Workspace) (A : Address) (a : Session α) : Prop :=
  ∀ s₀, Action.Keeps (Kept w A s₀) a

/-- Commands that leave the build root alone stay within the workspace as well. -/
theorem firm_kept :
    Firm w A (fun g g' => w.Lies A g.disk → Ground.Spares w.root A g g') (Kept w A s₀) := by
  refine ⟨fun s hs => hs.1, fun s s' hs hm => ?_⟩
  have hwithin : Within w A s s' := by
    cases hm with
    | entry home kept before after => exact within_disk hs.1 hs.2.closed _ home kept fun _ => after
    | log differs => exact within_differs hs.1 hs.2.closed differs
    | command changes => exact within_spares hs.1 hs.2.closed (changes hs.1.lies)
    | listing status => exact within_changeRecord hs.1 hs.2.closed status
  exact ⟨hwithin.stands hs.1, hs.2.trans hwithin⟩

theorem Moves.stays {a : Session α}
    (h : Moves w A (fun g g' => w.Lies A g.disk → Ground.Spares w.root A g g') a) : Stays w A a :=
  fun _ => h _ firm_kept

theorem stays_report (r : LogRecord) : Stays w A (Session.report r) := (moves_report r).stays

theorem stays_writeJson {n : String} (hn : Path.IsName n) (v : Json) :
    Stays w A (Session.write (·.writeJson (w.path.child n) v)) := (moves_writeJson hn v).stays

end Workspace

/-! ## Phases -/

section Phases

open Workspace

variable {w : Workspace} {A : Address} {C : Ground → Ground → Prop}

/-! ### The pipeline -/

/-- The stages in order are those that were given. -/
theorem Pipeline.mem_of_order {stages ordered : List Stage} (h : Pipeline.order stages = .ok ordered)
    {s : Stage} (hs : s ∈ ordered) : s ∈ stages := by
  unfold Pipeline.order at h
  dsimp only at h
  split at h
  · cases h
  · cases h
    exact Text.mem_sortOn.1 hs

section Stages

variable {I : Site → Prop} (hlog : ∀ s s', I s → Differs (fun _ => False) s s' → I s')
include hlog

theorem Pipeline.keeps_transform (s : Stage) (document : Json) :
    Action.Keeps I (Pipeline.transform s document) := by
  unfold Pipeline.transform
  split
  · split
    · exact (Session.keeps_report hlog _).bind fun _ => keeps_pure _
    · exact keeps_pure _
  · refine keeps_ite (fun _ => trivial) fun _ => ?_
    exact (Session.keeps_report hlog _).bind fun _ => keeps_fail _

/-- Apart from the log a stage only writes its artifact. -/
theorem Pipeline.keeps_runStage {s : Stage} (hwrite : ∀ v, Action.Keeps I (w.writeArtifact s.artifact v))
    (document : Json) : Action.Keeps I (Pipeline.runStage w document s) :=
  (keeps_look _).bind fun _ => (Session.keeps_report hlog _).bind fun _ => (keeps_lift _).bind fun _ =>
    (Pipeline.keeps_transform hlog s document).bind fun output => (keeps_lift _).bind fun _ =>
    (hwrite output).discard.bind fun _ => (keeps_look _).bind fun _ =>
    (Session.keeps_report hlog _).bind fun _ => keeps_pure _

theorem Pipeline.keeps_runStages {stages : List Stage}
    (hwrite : ∀ s ∈ stages, ∀ v, Action.Keeps I (w.writeArtifact s.artifact v)) (document : Json) :
    Action.Keeps I (Pipeline.runStages w document stages) := by
  induction stages generalizing document with
  | nil => exact keeps_pure _
  | cons s rest ih =>
    exact (Pipeline.keeps_runStage hlog (hwrite s List.mem_cons_self) document).bind fun r =>
      (ih (fun t ht => hwrite t (List.mem_cons_of_mem s ht)) r.1).bind fun _ => keeps_pure _

end Stages

theorem moves_runStages {stages : List Stage} (h : ∀ s ∈ stages, PlainName s.name) (document : Json) :
    Moves w A C (Pipeline.runStages w document stages) := fun I hI =>
  Pipeline.keeps_runStages (fun s s' hs hd => hI.move s s' hs (.log hd))
    (fun s hs v => moves_writeArtifact (s.artifact_named.isName (by decide) (h s hs)) v I hI) document

theorem moves_pipeline {stages : List Stage} (h : ∀ s ∈ stages, PlainName s.name) (document : Json) :
    Moves w A C (Pipeline.run w stages document) := by
  intro I hI
  unfold Pipeline.run
  refine keeps_ite (fun _ => trivial) fun _ => (keeps_lift _).bind fun _ => ?_
  refine ((moves_writeArtifact (by decide) document I hI).discard).bind fun _ => ?_
  refine (moves_runStages h document I hI).bind fun _ => ?_
  refine ((moves_link (by decide) _ I hI).discard).bind fun _ => ?_
  exact (moves_info _ _ _ _ _ I hI).bind fun _ => keeps_pure _

/-! ### The gates -/

theorem moves_evaluateFunction (name : String) (messages : Attempt (List Json)) :
    Moves w A C (Check.evaluateFunction name messages) := by
  intro I hI
  unfold Check.evaluateFunction
  split
  · exact keeps_pure _
  · refine keeps_ite (fun _ => trivial) fun _ => ?_
    exact (moves_error _ _ _ _ _ _ I hI).bind fun _ => keeps_pure _

theorem moves_start {host : Host} {call : List String}
    (h : ∀ g p g', host.start call g = .ok (p, g') → C g g') : Moves w A C (Check.start host call) := by
  refine fun I hI => keeps_atomic fun s hs => ?_
  split
  · exact hs
  · split
    · exact hI.move _ _ hs (.command (h _ _ _ ‹_›))
    · exact hs

variable {host : Host} {artifact : Option Path} (hartifact : ∀ p ∈ artifact, p ∈ [Pipeline.compiledPath w, w.path])
include hartifact

theorem moves_evaluateCommand {words : List String} (h : ∀ path ∈ [Pipeline.compiledPath w, w.path], ∀ g p g',
      host.start (words ++ [path.text]) g = .ok (p, g') → C g g') (name : String) :
    Moves w A C (Check.evaluateCommand host name words artifact) := by
  intro I hI
  unfold Check.evaluateCommand
  split
  · exact keeps_pure _
  · refine (moves_debug _ _ _ _ I hI).bind fun _ => (moves_start (h _ (hartifact _ rfl)) I hI).bind fun r => ?_
    split
    · exact keeps_lift _
    · exact keeps_pure _

theorem moves_evaluate {c : Check} (h : c.Leaves host w C) (subject : Json) :
    Moves w A C (c.evaluate host subject artifact) := by
  intro I hI
  unfold Check.evaluate
  split
  · exact (moves_evaluateFunction _ _ I hI).bind fun _ => keeps_pure _
  · rename_i words hjudge
    exact (moves_evaluateCommand hartifact (h words hjudge) c.name I hI).bind fun _ => keeps_pure _

omit hartifact in
theorem moves_report_verdict (phase : Json) (v : Verdict) : Moves w A C (Gate.report phase v) := by
  intro I hI
  unfold Gate.report
  split
  · exact moves_info _ _ _ _ _ I hI
  · exact keeps_forM fun _ _ => moves_error _ _ _ _ _ _ I hI

theorem moves_runChecks {checks : List Check} (h : ∀ c ∈ checks, c.Leaves host w C) (phase subject : Json) :
    Moves w A C (Gate.runChecks host phase artifact subject checks) := by
  intro I hI
  induction checks generalizing subject with
  | nil => exact keeps_pure _
  | cons c rest ih =>
    exact (moves_evaluate hartifact (h c List.mem_cons_self) subject I hI).bind fun r =>
      (moves_report_verdict phase r.1 I hI).bind fun _ =>
      (ih (fun d hd => h d (List.mem_cons_of_mem c hd)) r.2).bind fun _ => keeps_pure _

theorem moves_gate {checks : List Check} (h : ∀ c ∈ checks, c.Leaves host w C) (phase subject : Json) :
    Moves w A C (Gate.run host checks phase subject artifact) := by
  intro I hI
  have hchecks : ∀ c ∈ Gate.checksOf phase checks, c.Leaves host w C := fun c hc =>
    h c (Text.mem_sortOn.1 (List.mem_filter.1 hc).1)
  refine (moves_runChecks hartifact hchecks phase subject I hI).bind fun verdicts => ?_
  split
  · exact keeps_fail _
  · exact keeps_pure _

omit hartifact

/-! ### The generators -/

theorem moves_work {g : Generator} (h : PlainName g.name) (compiled : Path) :
    Moves w A C (Fanout.work compiled w g) := fun I hI =>
  (keeps_look _).bind fun _ => (moves_read _ I hI).bind fun _ => (keeps_lift _).bind fun _ =>
    (keeps_lift _).bind fun _ =>
    (moves_writeJson (g.artifact_named.isName (by decide) h) _ I hI).bind fun _ =>
    (keeps_look _).bind fun _ => keeps_pure _

theorem moves_launch {generators : List Generator} (h : ∀ g ∈ generators, PlainName g.name)
    (compiled : Path) (outcomes : Assoc String (Attempt Fanout.Generated)) :
    Moves w A C (Fanout.launch compiled w outcomes generators) := by
  intro I hI
  induction generators generalizing outcomes with
  | nil => exact keeps_pure _
  | cons g rest ih =>
    exact (moves_work (h g List.mem_cons_self) compiled I hI).outcome.bind fun r =>
      ih (fun t ht => h t (List.mem_cons_of_mem g ht)) _

theorem moves_settle (name : String) (r : Attempt Fanout.Generated) :
    Moves w A C (Fanout.settle w name r) := by
  intro I hI
  unfold Fanout.settle
  split
  · exact (moves_addArtifact _ I hI).bind fun _ => moves_info _ _ _ _ _ I hI
  · exact moves_error _ _ _ _ _ _ I hI

theorem moves_fanout {generators : List Generator} (h : ∀ g ∈ generators, PlainName g.name)
    (limit : Json) (compiled : Path) : Moves w A C (Fanout.run w generators limit compiled) := by
  intro I hI
  unfold Fanout.run
  refine keeps_ite (fun _ => (moves_report _ I hI).bind fun _ => keeps_pure _) fun _ => ?_
  refine (moves_info _ _ _ _ _ I hI).bind fun _ => (keeps_lift _).bind fun _ => ?_
  refine (moves_launch (fun g hg => h g (Text.mem_sortOn.1 hg)) compiled [] I hI).bind fun _ => ?_
  refine (keeps_forM fun e _ => moves_settle e.1 e.2 I hI).bind fun _ => ?_
  exact keeps_ite (fun _ => keeps_pure _) fun _ => keeps_fail _

theorem moves_fragments (generated : List Fanout.Generated) :
    Moves w A C (Builder.fragments w generated) := fun I hI =>
  (keeps_mapM fun _ _ => (moves_read _ I hI).bind fun _ => keeps_pure _).bind fun _ => keeps_pure _

end Phases

/-! ## Up to the promotion -/

namespace Builder

/-- What an attempt has when its document and its fragments have passed the gates. -/
structure Judged where
  start : Instant
  compiled : Path
  finished : List Pipeline.Finished
  generated : List Fanout.Generated

/-- From the document to the last gate. -/
def judged (b : Builder) (document : Json) (w : Workspace) : Session Judged := do
  let start ← Session.now
  let checks ← Action.lift b.checks
  let stages ← Action.lift ((b.catalogs.stages.units b.settings.disabledStages).bind Pipeline.order)
  let finished ← Pipeline.run w stages document
  let compiled := Pipeline.compiledPath w
  let plan ← Session.read (·.readJson compiled)
  discard (Gate.run b.host checks (.str planPhase) plan (some compiled))
  let generators ← Action.lift (b.catalogs.generators.units b.settings.disabledGenerators)
  let generated ← Fanout.run w generators b.settings.maxWorkers compiled
  let subject ← fragments w generated
  discard (Gate.run b.host checks (.str codePhase) subject (some w.path))
  return ⟨start, compiled, finished, generated⟩

/-- The promotion of what has passed the gates. -/
def promoted (b : Builder) (w : Workspace) (j : Judged) : Session Built := do
  let previous ← b.directory.promote w
  return ⟨w.key, j.start, ← Session.now, j.compiled, j.finished, j.generated, previous⟩

theorem phases_eq (b : Builder) (document : Json) (w : Workspace) :
    b.phases document w = b.judged document w >>= b.promoted w := by
  simp only [phases, judged, promoted, bind_assoc, pure_bind]

open Workspace

variable {b : Builder} {A : Address} {C : Ground → Ground → Prop}

/-- The steps of the phases up to the promotion are moves. -/
theorem moves_judged {w : Workspace} (h : b.Plain)
    (hchecks : ∀ cs, b.checks = .ok cs → ∀ c ∈ cs, c.Leaves b.host w C) (document : Json) :
    Moves w A C (b.judged document w) := by
  intro I hI
  unfold judged
  refine (keeps_look _).bind fun _ => keeps_lift_bind fun checks hcs => ?_
  refine keeps_lift_bind fun stages hstages => ?_
  obtain ⟨us, hus, horder⟩ := Attempt.bind_eq_ok.1 hstages
  have hplain : ∀ s ∈ stages, PlainName s.name := fun s hs =>
    h.stages us hus s (Pipeline.mem_of_order horder hs)
  refine (moves_pipeline hplain document I hI).bind fun _ => (moves_read _ I hI).bind fun _ => ?_
  refine ((moves_gate (by simp) (hchecks checks hcs) _ _ I hI).discard).bind fun _ => ?_
  refine keeps_lift_bind fun generators hgenerators => ?_
  refine (moves_fanout (h.generators generators hgenerators) _ _ I hI).bind fun generated => ?_
  refine (moves_fragments generated I hI).bind fun _ => ?_
  exact ((moves_gate (by simp) (hchecks checks hcs) _ _ I hI).discard).bind fun _ => keeps_pure _

/-- The phases up to the promotion stay within the workspace if the commands leave the build root alone. -/
theorem stays_judged {w : Workspace} (hroot : w.root = b.settings.root) (h : b.Discreet A) (document : Json) :
    Stays w A (b.judged document w) :=
  (moves_judged h.toPlain (fun cs hcs c hc => hroot ▸ h.checks cs hcs c hc w hroot) document).stays

end Builder

end FlowPlan

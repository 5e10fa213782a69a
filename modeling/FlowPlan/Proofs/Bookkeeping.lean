import FlowPlan.Build.Pipeline
import FlowPlan.Proofs.Inventory
import FlowPlan.Proofs.Record
import FlowPlan.Proofs.Survival

/-!
# How the record of an attempt is kept

Whoever changes the record of an attempt writes it at once, and lists only what can be read. As long as an
action does so, the record on disk is the one that is held, but for the moments in which it is being written.

## Main definitions

* `Workspace.Legible` — an artifact can be read.
* `Workspace.Tidy`, `Workspace.Settled` — the record lists what can be read, and is on disk as it is held.
* `Workspace.Diligent` — every change of the record is written at once.
* `Workspace.Orderly`, `Workspace.Careful` — the record lists what can be read, and is on disk at the end.

## Main statements

* `Workspace.load_of_records` — what is loaded is what was written.
* `Workspace.Attended.step` — what one step of such an action leaves to do.
* `Workspace.Orderly.prefix_of_le` — what the record lists stays listed, in its place.
* `Workspace.Settled.addArtifact` — what can be read is listed.
-/

namespace FlowPlan

open FlowPlan.Action Site Pointers

namespace Workspace

variable {w : Workspace} {A : Address} {s s' : Site} {d d' : Disk} {m n t : String} {r : Record}
  {X Y : String → Prop}

/-- What is loaded is read from the record that was written. -/
theorem load_eq_ofJson (h : Stands w A s) (hr : Records w A s.disk r) :
    w.load s.disk = Record.ofJson r.toJson.sortKeys := by
  have hexists : s.disk.exists? w.recordPath = true := by
    refine (h.rooted.exists?_child isName_recordName.1 fun u => ?_).trans ?_ <;> rw [hr]
    · simp
    · rfl
  have hread : s.disk.readJson w.recordPath = .ok r.toJson.sortKeys :=
    h.rooted.readJson isName_recordName.1 isName_recordName.2 hr
  unfold load
  rw [hexists, hread]
  rfl

/-- What is loaded is the record that was written. -/
theorem load_of_records (h : Stands w A s) (hr : Records w A s.disk r) (hplain : r.Plain) :
    w.load s.disk = .ok r :=
  (load_eq_ofJson h hr).trans (Record.ofJson_toJson hplain)

/-! ## Artifacts that can be read -/

/-- The name of an artifact that is no link. -/
structure Ordinary (n : String) : Prop extends IsArtifactName n where
  ne_compiled : n ≠ Pipeline.compiledArtifact
  ne_prepared : n ≠ Path.temporary Pipeline.compiledArtifact

/-- The artifact is a file with a value. -/
def Filed (w : Workspace) (A : Address) (d : Disk) (n : String) : Prop :=
  Ordinary n ∧ ∃ v, d.find? (A ++ [w.key] ++ [n]) = some (.file (.json v))

/-- The artifact is a file with a value, or the link of the compiled plan to one. -/
def Legible (w : Workspace) (A : Address) (d : Disk) (n : String) : Prop :=
  Filed w A d n ∨ n = Pipeline.compiledArtifact ∧
    ∃ t, Filed w A d t ∧ d.find? (A ++ [w.key] ++ [n]) = some (.link t)

theorem Legible.filed (h : Legible w A d n) (hn : n ≠ Pipeline.compiledArtifact) : Filed w A d n :=
  h.resolve_right fun hlink => hn hlink.1

theorem Legible.readJson (h : Legible w A s.disk n) (hs : Workable w A s) :
    ∃ v, s.disk.readJson (w.artifactPath n) = .ok v := by
  rcases h with ⟨hn, v, hfile⟩ | ⟨rfl, t, ⟨ht, v, hfile⟩, hlink⟩
  · exact ⟨v, hs.readJson hn.toIsArtifactName hfile⟩
  · exact ⟨v, hs.readJson_link (by decide) ht.toIsArtifactName hlink hfile⟩

theorem Filed.of_entry (h : Filed w A d n)
    (hkept : ∀ k, k ≠ m → d'.find? (A ++ [w.key] ++ [k]) = d.find? (A ++ [w.key] ++ [k]))
    (hfiled : Ordinary m → Filed w A d' m) : Filed w A d' n := by
  by_cases hnm : n = m
  · exact hnm ▸ hfiled (hnm ▸ h.1)
  · exact ⟨h.1, by rw [hkept n hnm]; exact h.2⟩

/-- One entry of the workspace changes. -/
theorem Legible.of_entry (h : Legible w A d n)
    (hkept : ∀ k, k ≠ m → d'.find? (A ++ [w.key] ++ [k]) = d.find? (A ++ [w.key] ++ [k]))
    (hfiled : Ordinary m → Filed w A d' m) (hlinked : m = Pipeline.compiledArtifact → Legible w A d' m) :
    Legible w A d' n := by
  rcases h with hfile | ⟨rfl, t, hfile, hlink⟩
  · exact .inl (hfile.of_entry hkept hfiled)
  · by_cases hm : Pipeline.compiledArtifact = m
    · rw [hm]
      exact hlinked hm.symm
    · exact .inr ⟨rfl, t, hfile.of_entry hkept hfiled, (hkept _ hm).trans hlink⟩

/-! ## Tidy workspaces -/

/-- The record can be read back, and so can the artifacts that it lists and those of some further names. -/
structure Tidy (w : Workspace) (A : Address) (Y : String → Prop) (s : Site) : Prop where
  workable : Workable w A s
  plain : (w.recordIn s).Plain
  clock : s.clock.Readable
  listed : ∀ n, .str n ∈ (w.recordIn s).artifacts → Legible w A s.disk n
  known : ∀ n, Y n → Legible w A s.disk n

/-- Moreover the record is this one, and the workspace holds it. -/
structure Settled (w : Workspace) (A : Address) (Y : String → Prop) (r : Record) (s : Site) : Prop
    extends Tidy w A Y s where
  held : w.recordIn s = r
  saved : Records w A s.disk r

theorem Tidy.stands (h : Tidy w A Y s) : Stands w A s := h.workable.stands

theorem Tidy.mono (h : Tidy w A Y s) (hXY : ∀ n, X n → Y n) : Tidy w A X s :=
  { h with known := fun n hn => h.known n (hXY n hn) }

theorem Settled.mono (h : Settled w A Y r s) (hXY : ∀ n, X n → Y n) : Settled w A X r s :=
  { h with toTidy := h.toTidy.mono hXY }

theorem Settled.own (h : Settled w A Y r s) : Settled w A Y (w.recordIn s) s := by
  rw [h.held]
  exact h

/-- What can be read counts as known. -/
theorem Settled.learn (h : Settled w A Y r s) (hX : ∀ n, X n → Y n ∨ Legible w A s.disk n) :
    Settled w A X r s :=
  { h with known := fun n hn => (hX n hn).elim (h.known n) id }

theorem Settled.load (h : Settled w A Y r s) : w.load s.disk = .ok (w.recordIn s) := by
  rw [h.held]
  exact load_of_records h.stands h.saved (h.held ▸ h.plain)

/-- What changes neither the record nor what can be read. -/
theorem Tidy.of_changed (h : Tidy w A Y s) (hs' : Workable w A s') (hrecords : s'.records = s.records)
    (hclock : s'.clock = s.clock) (hlegible : ∀ n, Legible w A s.disk n → Legible w A s'.disk n) : Tidy w A Y s' := by
  have hrecord := recordIn_congr (w := w) hrecords hclock
  exact {
    workable := hs'
    plain := hrecord ▸ h.plain
    clock := hclock ▸ h.clock
    listed := fun n hn => hlegible n (h.listed n (hrecord ▸ hn))
    known := fun n hn => hlegible n (h.known n hn) }

theorem Settled.of_changed (h : Settled w A Y r s) (hs' : Workable w A s') (hrecords : s'.records = s.records)
    (hclock : s'.clock = s.clock)
    (hfile : s'.disk.find? (A ++ [w.key] ++ [recordName]) = s.disk.find? (A ++ [w.key] ++ [recordName]))
    (hlegible : ∀ n, Legible w A s.disk n → Legible w A s'.disk n) : Settled w A Y r s' :=
  { h.toTidy.of_changed hs' hrecords hclock hlegible with
    held := (recordIn_congr hrecords hclock).trans h.held
    saved := hfile.trans h.saved }

/-- An entry of the workspace changes that is not the record. -/
theorem Settled.entry (h : Settled w A Y r s) (hs' : Workable w A { s with disk := d }) (hm : m ≠ recordName)
    (hkept : ∀ k, k ≠ m → d.find? (A ++ [w.key] ++ [k]) = s.disk.find? (A ++ [w.key] ++ [k]))
    (hfiled : Ordinary m → Filed w A d m) (hlinked : m = Pipeline.compiledArtifact → Legible w A d m) :
    Settled w A Y r { s with disk := d } :=
  h.of_changed hs' rfl rfl (hkept _ hm.symm) fun _ hn => hn.of_entry hkept hfiled hlinked

theorem Settled.set (h : Settled w A Y r s) (hm : m ≠ recordName) {e : Entry} (he : e ≠ .dir)
    (hfiled : Ordinary m → ∃ v, e = .file (.json v))
    (hlinked : m = Pipeline.compiledArtifact → ∃ t, Filed w A s.disk t ∧ e = .link t) :
    Settled w A Y r { s with disk := s.disk.set (A ++ [w.key] ++ [m]) e } := by
  have hnew : (s.disk.set (A ++ [w.key] ++ [m]) e).find? (A ++ [w.key] ++ [m]) = some e := by
    rw [Disk.find?_set_child, if_pos rfl]
  have hkept : ∀ k, k ≠ m → (s.disk.set (A ++ [w.key] ++ [m]) e).find? (A ++ [w.key] ++ [k]) =
      s.disk.find? (A ++ [w.key] ++ [k]) := fun k hk => by
    rw [Disk.find?_set_child, if_neg (by simpa using hk.symm)]
  refine h.entry ((h.workable.edits_set he).workable h.workable) hm hkept (fun hord => ?_) fun hc => ?_
  · obtain ⟨v, rfl⟩ := hfiled hord
    exact ⟨hord, v, hnew⟩
  · obtain ⟨t, ht, rfl⟩ := hlinked hc
    exact .inr ⟨hc, t, ht.of_entry hkept fun hord => absurd hc hord.ne_compiled, hnew⟩

/-- What was prepared for the link of the compiled plan goes. -/
theorem Settled.erase (h : Settled w A Y r s) (hm : m = Path.temporary Pipeline.compiledArtifact) :
    Settled w A Y r { s with disk := s.disk.erase (A ++ [w.key] ++ [m]) } := by
  have hedits : Edits w A (· = m) s { s with disk := s.disk.erase (A ++ [w.key] ++ [m]) } :=
    h.workable.edits ((differs_erase s (by simp)).mono fun _ ha => ⟨m, rfl, ha⟩)
      (Disk.sameDirs_erase (by simp) (h.workable.flat m))
  have hne : m ≠ recordName := by
    rw [hm]
    decide
  refine h.entry (hedits.workable h.workable) hne (fun k hk => ?_) (fun hord => ?_) fun hc => ?_
  · rw [Disk.find?_erase_child, if_neg (by simpa using hk.symm)]
  · exact absurd hm hord.ne_prepared
  · exact absurd (hc.symm.trans hm) (by decide)

/-- Only the disk and where the log goes matter. -/
theorem Workable.of_disk (h : Workable w A s) (hdisk : s'.disk = s.disk) (hjournal : s'.journal = s.journal) :
    Workable w A s' := by
  obtain ⟨disk, locked, records, journal, console, excerpt, clock⟩ := s'
  dsimp only at hdisk hjournal
  subst hdisk hjournal
  exact ⟨⟨⟨h.stands.ready.rooted, h.stands.ready.log⟩, h.stands.name, h.stands.dir, h.stands.record⟩, h.closed,
    h.spare, h.flat⟩

/-- An entry of the build root that is no directory is out of the way of a workspace. -/
theorem Workable.rootEntry (h : Workable w A s) (hhome : d.home = s.disk.home)
    (hkept : ∀ a, a ≠ A ++ [n] → d.find? a = s.disk.find? a) (hdir : s.disk.find? (A ++ [n]) ≠ some .dir) :
    Workable w A { s with disk := d } := by
  have hways : Disk.KeepsWays A s.disk d := by
    refine ⟨hhome, fun a e ha he _ => (hkept a ?_).trans he⟩
    rintro rfl
    exact ha (Disk.below_child A n)
  have hinside : ∀ k m, d.find? (A ++ [k] ++ [m]) = s.disk.find? (A ++ [k] ++ [m]) := fun k m => hkept _ (by simp)
  refine ⟨⟨⟨h.stands.ready.rooted.of_keepsWays hways, h.stands.ready.log⟩, h.stands.name, ?_, ?_⟩,
    fun k m hk => ?_, h.spare.of_keepsWays hways, fun m => ?_⟩
  · refine (hkept _ fun heq => ?_).trans h.stands.dir
    exact hdir (heq ▸ h.stands.dir)
  · exact fun hrecord => h.stands.record ((hinside _ _).symm.trans hrecord)
  · by_cases hkn : k = n
    · exact (hinside k m).trans (h.closed k m (hkn ▸ hdir))
    · exact (hinside k m).trans (h.closed k m fun hs => hk ((hkept _ (by simpa using hkn)).trans hs))
  · exact fun hm => h.flat m ((hinside _ _).symm.trans hm)

theorem find?_of_log (h : Stands w A s) (hd : Differs (fun _ => False) s s') (hm : m ≠ logName) :
    s'.disk.find? (A ++ [w.key] ++ [m]) = s.disk.find? (A ++ [w.key] ++ [m]) :=
  hd.find? (by simp) (h.ready.not_isLog_grandchild w.key hm)

/-- A report touches the log only. -/
theorem Tidy.of_log (h : Tidy w A Y s) (hd : Differs (fun _ => False) s s') : Tidy w A Y s' := by
  have hedits := h.workable.edits_log hd fun _ => False
  refine h.of_changed (hedits.workable h.workable) hd.records hd.clock fun n hn => ?_
  exact hn.of_entry (fun _ hk => find?_of_log h.stands hd hk) (fun hord => absurd rfl hord.ne_log)
    fun hc => absurd hc (by decide)

/-- The record has been written. -/
def stored (w : Workspace) (A : Address) (s : Site) : Site :=
  { s with disk := s.disk.set (A ++ [w.key] ++ [recordName]) (.file (.json (w.recordIn s).toJson.sortKeys)) }

/-- The workspace holds this record, whatever it says, and it is the one that is held. -/
structure Holds (w : Workspace) (A : Address) (r : Record) (s : Site) : Prop where
  workable : Workable w A s
  held : w.recordIn s = r
  saved : Records w A s.disk r

theorem Workable.store (h : Workable w A s) : Holds w A (w.recordIn s) (w.stored A s) where
  workable := (h.edits_set (n := recordName) (by simp)).workable h
  held := rfl
  saved := (Disk.find?_set_child _ _ _ _ _).trans (if_pos rfl)

/-- Reports and updates of the pointers do not touch the record. -/
theorem indifferent_holds : Indifferent w.root A (Holds w A r) where
  ready _ hs := hs.workable.stands.ready
  log s s' hs hd :=
    { workable := (hs.workable.edits_log hd fun _ => False).workable hs.workable
      held := (recordIn_congr hd.records hd.clock).trans hs.held
      saved := (find?_of_log hs.workable.stands hd (by decide)).trans hs.saved }
  entry s n d hs _ hhome hkept hdir :=
    { workable := hs.workable.rootEntry hhome hkept hdir
      held := hs.held
      saved := (hkept _ (by simp)).trans hs.saved }

/-- Nor do they touch what can be read. -/
theorem indifferent_settled : Indifferent w.root A (Settled w A Y r) where
  ready _ hs := hs.stands.ready
  log s s' hs hd :=
    { hs.toTidy.of_log hd with
      held := (recordIn_congr hd.records hd.clock).trans hs.held
      saved := (find?_of_log hs.stands hd (by decide)).trans hs.saved }
  entry s n d hs _ hhome hkept hdir := by
    have hinside : ∀ m, d.find? (A ++ [w.key] ++ [m]) = s.disk.find? (A ++ [w.key] ++ [m]) :=
      fun m => hkept _ (by simp)
    refine hs.of_changed (hs.workable.rootEntry hhome hkept hdir) rfl rfl (hinside _) fun n hn => ?_
    refine hn.of_entry (m := recordName) (fun k _ => hinside k) (fun hord => absurd rfl hord.ne_record)
      fun hc => absurd hc (by decide)

/-! ## Records that are written at once -/

/-- The record has been changed and not been written. -/
def changed (w : Workspace) (f : Instant → Record → Record) (s : Site) : Site :=
  { s with records := Assoc.set s.records w.path.text (f s.clock (w.recordIn s)) }

theorem recordIn_changed (w : Workspace) (f : Instant → Record → Record) (s : Site) :
    w.recordIn (w.changed f s) = f s.clock (w.recordIn s) := recordIn_setRecord w s _

theorem Tidy.changed (h : Tidy w A Y s) {f : Instant → Record → Record}
    (hplain : (f s.clock (w.recordIn s)).Plain)
    (hlisted : ∀ n, .str n ∈ (f s.clock (w.recordIn s)).artifacts → Legible w A s.disk n) :
    Tidy w A Y (w.changed f s) where
  workable := h.workable.of_disk rfl rfl
  plain := by rwa [recordIn_changed]
  clock := h.clock
  listed n hn := hlisted n (by rwa [recordIn_changed] at hn)
  known := h.known

theorem Tidy.store (h : Tidy w A Y s) : Settled w A Y (w.recordIn s) (w.stored A s) := by
  have hedits : Edits w A (· = recordName) s (w.stored A s) := h.workable.edits_set (by simp)
  have hlegible : ∀ n, Legible w A s.disk n → Legible w A (w.stored A s).disk n := fun n hn => by
    refine hn.of_entry (m := recordName) (fun k hk => ?_) (fun hord => absurd rfl hord.ne_record) fun hc =>
      absurd hc (by decide)
    exact (Disk.find?_set_child _ _ _ _ _).trans (if_neg (by simpa using hk.symm))
  exact {
    workable := hedits.workable h.workable
    plain := h.plain
    clock := h.clock
    listed := fun n hn => hlegible n (h.listed n hn)
    known := fun n hn => hlegible n (h.known n hn)
    held := rfl
    saved := (Disk.find?_set_child _ _ _ _ _).trans (if_pos rfl) }

variable {α β : Type} {a : Session α}

/-- At every moment the record lists what can be read, and the workspace holds it; a change of the record is
written at once, and what has been listed stays. -/
inductive Diligent (w : Workspace) (A : Address) (Y : String → Prop) : Session α → Site → Prop
  | done {r : Except Fault α} {s : Site} (settled : Settled w A Y (w.recordIn s) s) :
      Diligent w A Y (Action.done r) s
  | step {change : Site → Site} {next : Site → Session α} {s : Site}
      (settled : Settled w A Y (w.recordIn s) s) (same : w.recordIn (change s) = w.recordIn s)
      (rest : Diligent w A Y (next s) (change s)) : Diligent w A Y (Action.step change next) s
  | save {f : Instant → Record → Record} {k : Except Fault Unit → Session α} {s : Site}
      (settled : Settled w A Y (w.recordIn s) s)
      (grows : (w.recordIn s).artifacts <+: (f s.clock (w.recordIn s)).artifacts)
      (tidy : Tidy w A Y (w.changed f s)) (rest : Diligent w A Y (k (.ok ())) (w.stored A (w.changed f s))) :
      Diligent w A Y (w.changeRecord f >>= fun _ => Action.outcome w.saveRecord >>= k) s

/-- The record is about to be written. -/
def Pending (w : Workspace) (A : Address) (Y : String → Prop) (a : Session α) (s : Site) : Prop :=
  Tidy w A Y s ∧ ∃ k : Except Fault Unit → Session α,
    (a = Action.outcome w.saveRecord >>= k ∨
      a = Action.outcome (Session.write (·.writeJson w.recordPath (w.recordIn s).toJson)) >>= k) ∧
      Diligent w A Y (k (.ok ())) (w.stored A s)

/-- The record is on disk as it is held, or is about to be written. -/
def Attended (w : Workspace) (A : Address) (Y : String → Prop) (a : Session α) (s : Site) : Prop :=
  Diligent w A Y a s ∨ Pending w A Y a s

theorem Diligent.settled (h : Diligent w A Y a s) : Settled w A Y (w.recordIn s) s := by
  cases h with
  | done settled => exact settled
  | step settled => exact settled
  | save settled => exact settled

theorem Attended.tidy (h : Attended w A Y a s) : Tidy w A Y s :=
  h.elim (fun hd => hd.settled.toTidy) And.left

theorem writeRecord_run (h : Stands w A s) (r : Record) :
    (Session.write (·.writeJson w.recordPath r.toJson)).run s = (.ok (),
      { s with disk := s.disk.set (A ++ [w.key] ++ [recordName]) (.file (.json r.toJson.sortKeys)) }) :=
  Session.run_write_ok (f := (·.writeJson w.recordPath r.toJson))
    (h.rooted.writeJson isName_recordName.1 isName_recordName.2 h.record r.toJson)

/-- The first step of a write that ends well. -/
theorem of_step_eq_write {f : Disk → Disk.Change} {k : Except Fault Unit → Session α} {change : Site → Site}
    {next : Site → Session α} (h : Action.step change next = Action.outcome (Session.write f) >>= k)
    (hrun : (Session.write f).run s = (.ok (), s')) : change s = s' ∧ next s = k (.ok ()) := by
  obtain ⟨hok, hsite⟩ := Prod.mk.inj hrun
  cases h
  refine ⟨hsite, ?_⟩
  dsimp only at hok ⊢
  rw [hok]
  rfl

/-- One step further the record is still kept, and lists no less. -/
theorem Attended.step {change : Site → Site} {next : Site → Session α}
    (h : Attended w A Y (Action.step change next) s) :
    Attended w A Y (next s) (change s) ∧ (w.recordIn s).artifacts <+: (w.recordIn (change s)).artifacts := by
  rcases h with hd | ⟨htidy, k, hk, hrest⟩
  · generalize ha : Action.step change next = a at hd
    cases hd with
    | done => cases ha
    | step settled same rest =>
      cases ha
      exact ⟨.inl rest, same ▸ List.prefix_rfl⟩
    | @save f k _ settled grows tidy rest =>
      cases ha
      refine ⟨.inr ⟨tidy, k, .inl rfl, rest⟩, ?_⟩
      exact (recordIn_changed w f s).symm ▸ grows
  · rcases hk with hk | hk
    · cases hk
      exact ⟨.inr ⟨htidy, k, .inr rfl, hrest⟩, List.prefix_rfl⟩
    · obtain ⟨hchange, hnext⟩ := of_step_eq_write hk (writeRecord_run htidy.stands _)
      rw [hchange, hnext]
      exact ⟨.inl hrest, List.prefix_rfl⟩

/-! ### Whole runs -/

variable {P : Site → Prop} {a' : Session α} {k i j : Nat}

theorem Attended.along (h : Attended w A Y a s) (ht : Trail P a s k a' s') : Attended w A Y a' s' := by
  induction ht with
  | nil => exact h
  | cons _ _ ih => exact ih h.step.1

/-- At the end the workspace holds the record. -/
theorem Attended.run (h : Attended w A Y a s) : Settled w A Y (w.recordIn (a.run s).2) (a.run s).2 := by
  induction a generalizing s with
  | done r =>
    rcases h with hd | ⟨-, k, hk | hk, -⟩
    · exact hd.settled
    · cases hk
    · cases hk
  | step change next ih => exact ih s h.step.1

/-! ## Orderly runs -/

/-- At every moment the record lists what can be read, and what it lists stays listed, in its place. -/
def Orderly (w : Workspace) (A : Address) (Y : String → Prop) : Session α → Site → Prop
  | Action.done _, s => Tidy w A Y s
  | Action.step change next, s => Tidy w A Y s ∧
      (w.recordIn s).artifacts <+: (w.recordIn (change s)).artifacts ∧ Orderly w A Y (next s) (change s)

theorem Attended.orderly (h : Attended w A Y a s) : Orderly w A Y a s := by
  induction a generalizing s with
  | done r => exact h.tidy
  | step change next ih => exact ⟨h.tidy, h.step.2, ih s h.step.1⟩

theorem Orderly.after (h : Orderly w A Y a s) (k : Nat) : Tidy w A Y (a.after k s) := by
  induction a generalizing s k with
  | done r => exact h
  | step change next ih =>
    cases k with
    | zero => exact h.1
    | succ k => exact ih s h.2.2 k

theorem Orderly.of_run {x : Attempt α} (h : Orderly w A Y a s) (hrun : a.run s = (x, s')) : Tidy w A Y s' := by
  have hend := h.after (a.steps s)
  rwa [after_of_le (Nat.le_refl _), hrun] at hend

theorem Orderly.prefix_succ (h : Orderly w A Y a s) (k : Nat) :
    (w.recordIn (a.after k s)).artifacts <+: (w.recordIn (a.after (k + 1) s)).artifacts := by
  induction a generalizing s k with
  | done r => exact List.prefix_rfl
  | step change next ih =>
    cases k with
    | zero =>
      rw [after_zero]
      exact (after_zero (next s) (change s)).symm ▸ h.2.1
    | succ k => exact ih s h.2.2 k

theorem Orderly.prefix_of_le (h : Orderly w A Y a s) (hij : i ≤ j) :
    (w.recordIn (a.after i s)).artifacts <+: (w.recordIn (a.after j s)).artifacts := by
  induction hij with
  | refl => exact List.prefix_rfl
  | step _ ih => exact ih.trans (h.prefix_succ _)

theorem Orderly.bind {f : α → Session β} (h : Orderly w A Y a s)
    (hf : ∀ x s', a.run s = (.ok x, s') → Orderly w A Y (f x) s') : Orderly w A Y (a >>= f) s := by
  induction a generalizing s with
  | done r =>
    cases r with
    | ok x => exact hf x s rfl
    | error e => exact h
  | step change next ih => exact ⟨h.1, h.2.1, ih s h.2.2 hf⟩

theorem Orderly.outcome (h : Orderly w A Y a s) : Orderly w A Y (Action.outcome a) s := by
  induction a generalizing s with
  | done r => exact h
  | step change next ih => exact ⟨h.1, h.2.1, ih s h.2.2⟩

theorem Orderly.struck (h : Orderly w A Y a s) (f : Fault) (n : Nat) : Orderly w A Y (Action.struck f n a) s := by
  induction n generalizing a s with
  | zero => exact a.after_zero s ▸ h.after 0
  | succ n ih =>
    cases a with
    | done r => exact h
    | step change next => exact ⟨h.1, h.2.1, ih h.2.2⟩

/-- A report lists nothing. -/
theorem Tidy.report (h : Tidy w A Y s) (p : LogRecord) : Orderly w A Y (Session.report p) s := by
  have hd := differs_record s p
  refine ⟨h, ?_, h.of_log hd⟩
  exact recordIn_congr (w := w) hd.records hd.clock ▸ List.prefix_rfl

/-! ## Diligent actions -/

theorem run_change {f : Instant → Record → Record} (h : Stands w A (w.changed f s))
    (k : Except Fault Unit → Session α) :
    (w.changeRecord f >>= fun _ => Action.outcome w.saveRecord >>= k).run s =
      (k (.ok ())).run (w.stored A (w.changed f s)) := by
  have hchange : (w.changeRecord f).run s = (.ok (), w.changed f s) := rfl
  rw [run_bind_ok hchange]
  refine run_bind_ok ?_
  rw [run_outcome, saveRecord_run h]
  rfl

theorem outcome_change (f : Instant → Record → Record) (k : Except Fault Unit → Session α) :
    Action.outcome (w.changeRecord f >>= fun _ => Action.outcome w.saveRecord >>= k) =
      w.changeRecord f >>= fun _ => Action.outcome w.saveRecord >>= fun r => Action.outcome (k r) :=
  congrArg (Action.step (w.changed f)) (funext fun _ => outcome_bind_outcome _ _)

theorem Diligent.run (h : Diligent w A Y a s) : Settled w A Y (w.recordIn (a.run s).2) (a.run s).2 :=
  Attended.run (.inl h)

/-- At the end the record lists what it has listed at the start, in its place. -/
theorem Diligent.prefix_run (h : Diligent w A Y a s) :
    (w.recordIn s).artifacts <+: (w.recordIn (a.run s).2).artifacts := by
  have hprefix := (Attended.orderly (.inl h)).prefix_of_le (Nat.zero_le (a.steps s))
  rwa [after_zero, after_of_le (Nat.le_refl _)] at hprefix

theorem Diligent.mono (h : Diligent w A Y a s) (hXY : ∀ n, X n → Y n) : Diligent w A X a s := by
  induction h with
  | done settled => exact .done (settled.mono hXY)
  | step settled same _ ih => exact .step (settled.mono hXY) same ih
  | save settled grows tidy _ ih => exact .save (settled.mono hXY) grows (tidy.mono hXY) ih

/-- What leaves the record as it is. -/
theorem diligent_of_always (h : Always (Settled w A Y r) a s) : Diligent w A Y a s := by
  induction a generalizing s with
  | done _ => exact .done (Settled.own h)
  | step change next ih =>
    have hnext : Settled w A Y r (change s) := after_zero (next s) (change s) ▸ always_iff.1 h.2 0
    exact .step h.1.own (hnext.held.trans h.1.held.symm) (ih s h.2)

theorem Diligent.bind {f : α → Session β} (h : Diligent w A Y a s)
    (hf : ∀ x s', a.run s = (.ok x, s') → Diligent w A Y (f x) s') : Diligent w A Y (a >>= f) s := by
  induction h with
  | @done r _ settled =>
    cases r with
    | ok x => exact hf x _ rfl
    | error e => exact .done settled
  | step settled same _ ih => exact .step settled same (ih hf)
  | save settled grows tidy _ ih =>
    simp only [bind_assoc]
    exact .save settled grows tidy (ih fun x s' hrun => hf x s' ((run_change tidy.stands _).trans hrun))

theorem Diligent.outcome (h : Diligent w A Y a s) : Diligent w A Y (Action.outcome a) s := by
  induction h with
  | done settled => exact .done settled
  | step settled same _ ih => exact .step settled same ih
  | @save f k _ settled grows tidy _ ih =>
    rw [outcome_change]
    exact .save settled grows tidy ih

theorem Diligent.of_run {x : Attempt α} (h : Diligent w A Y a s) (hrun : a.run s = (x, s')) :
    Settled w A Y (w.recordIn s') s' := by
  have hend := h.run
  rwa [hrun] at hend

theorem Diligent.bind_pure (h : Diligent w A Y a s) (g : α → β) :
    Diligent w A Y (a >>= fun x => (pure (g x) : Session β)) s :=
  h.bind fun _ _ hrun => .done (h.of_run hrun)

theorem Diligent.discard (h : Diligent w A Y a s) : Diligent w A Y (discard a : Session Unit) s := h.bind_pure _

/-- What leaves the record as it is, and what follows. -/
theorem Settled.bind {f : α → Session β} (h : Settled w A Y r s) (ha : Upholds (Settled w A Y r) a)
    (hf : ∀ x s', a.run s = (.ok x, s') → Settled w A Y r s' → Diligent w A Y (f x) s') :
    Diligent w A Y (a >>= f) s :=
  (diligent_of_always (ha s h)).bind fun x s' hrun => hf x s' hrun (by
    have hend := (ha s h).run
    rwa [hrun] at hend)

theorem diligent_forM {xs : List β} {f : β → Session PUnit}
    (hf : ∀ x ∈ xs, ∀ r t, Settled w A Y r t → Diligent w A Y (f x) t) (h : Settled w A Y r s) :
    Diligent w A Y (xs.forM f) s := by
  induction xs generalizing r s with
  | nil => exact .done h.own
  | cons x xs ih =>
    obtain ⟨hfirst, hrest⟩ := List.forall_mem_cons.1 hf
    have hx := hfirst r s h
    exact hx.bind fun _ t hrun => ih hrest (hx.of_run hrun)

/-- The action begins with a change of the record and writes it at once, whether the workspace has held the
record before or not. -/
def Saves (w : Workspace) (A : Address) (Y : String → Prop) (a : Session α) (s : Site) : Prop :=
  ∃ (f : Instant → Record → Record) (k : Except Fault Unit → Session α),
    a = (w.changeRecord f >>= fun _ => Action.outcome w.saveRecord >>= k) ∧
    (w.recordIn s).artifacts <+: (f s.clock (w.recordIn s)).artifacts ∧ Tidy w A Y (w.changed f s) ∧
    Diligent w A Y (k (.ok ())) (w.stored A (w.changed f s))

theorem Saves.diligent (h : Saves w A Y a s) (hs : Settled w A Y r s) : Diligent w A Y a s := by
  obtain ⟨f, k, rfl, hgrows, htidy, hrest⟩ := h
  exact .save hs.own hgrows htidy hrest

theorem Saves.orderly (h : Saves w A Y a s) (hs : Tidy w A Y s) : Orderly w A Y a s := by
  obtain ⟨f, k, rfl, hgrows, htidy, hrest⟩ := h
  have hpending : Pending w A Y (Action.outcome w.saveRecord >>= k) (w.changed f s) := ⟨htidy, k, .inl rfl, hrest⟩
  refine ⟨hs, ?_, Attended.orderly (.inr hpending)⟩
  exact (recordIn_changed w f s).symm ▸ hgrows

theorem Saves.run (h : Saves w A Y a s) : Settled w A Y (w.recordIn (a.run s).2) (a.run s).2 := by
  obtain ⟨f, k, rfl, -, htidy, hrest⟩ := h
  rw [run_change htidy.stands]
  exact hrest.run

theorem Saves.bind {f : α → Session β} (h : Saves w A Y a s)
    (hf : ∀ x s', a.run s = (.ok x, s') → Settled w A Y (w.recordIn s') s' → Diligent w A Y (f x) s') :
    Saves w A Y (a >>= f) s := by
  obtain ⟨g, k, rfl, hgrows, htidy, hrest⟩ := h
  refine ⟨g, fun r => k r >>= f, by simp only [bind_assoc], hgrows, htidy, hrest.bind fun x s' hrun => ?_⟩
  exact hf x s' ((run_change htidy.stands _).trans hrun) (hrest.of_run hrun)

theorem Saves.outcome (h : Saves w A Y a s) : Saves w A Y (Action.outcome a) s := by
  obtain ⟨g, k, rfl, hgrows, htidy, hrest⟩ := h
  exact ⟨g, _, outcome_change g k, hgrows, htidy, hrest.outcome⟩

theorem Tidy.saves {f : Instant → Record → Record} {g : Unit → Session α} (h : Tidy w A Y s)
    (hgrows : (w.recordIn s).artifacts <+: (f s.clock (w.recordIn s)).artifacts)
    (hplain : (f s.clock (w.recordIn s)).Plain)
    (hlisted : ∀ n, .str n ∈ (f s.clock (w.recordIn s)).artifacts → Legible w A s.disk n)
    (hrest : ∀ r t, Settled w A Y r t → Diligent w A Y (g ()) t) :
    Saves w A Y (w.changeRecord f >>= fun _ => w.saveRecord >>= g) s := by
  have htidy := h.changed hplain hlisted
  rw [bind_eq_outcome_bind w.saveRecord g]
  exact ⟨f, _, rfl, hgrows, htidy, hrest _ _ htidy.store⟩

/-- The run is orderly, and at its end the workspace holds the record. -/
structure Careful (w : Workspace) (A : Address) (Y : String → Prop) (a : Session α) (s : Site) : Prop where
  orderly : Orderly w A Y a s
  settled : Settled w A Y (w.recordIn (a.run s).2) (a.run s).2

theorem Diligent.careful (h : Diligent w A Y a s) : Careful w A Y a s := ⟨Attended.orderly (.inl h), h.run⟩

theorem Saves.careful (h : Saves w A Y a s) (hs : Tidy w A Y s) : Careful w A Y a s := ⟨h.orderly hs, h.run⟩

theorem Careful.of_run {x : Attempt α} (h : Careful w A Y a s) (hrun : a.run s = (x, s')) :
    Settled w A Y (w.recordIn s') s' := by
  have hend := h.settled
  rwa [hrun] at hend

/-- What comes last sees to the record. -/
theorem Orderly.bind_careful {f : α → Session β} (h : Orderly w A Y a s)
    (hfails : ∀ e s', a.run s = (.error e, s') → Settled w A Y (w.recordIn s') s')
    (hf : ∀ x s', a.run s = (.ok x, s') → Careful w A Y (f x) s') : Careful w A Y (a >>= f) s := by
  refine ⟨h.bind fun x s' hrun => (hf x s' hrun).orderly, ?_⟩
  cases hrun : a.run s with
  | mk r s' =>
    cases r with
    | ok x =>
      rw [run_bind_ok hrun]
      exact (hf x s' hrun).settled
    | error e =>
      rw [run_bind_error hrun]
      exact hfails e s' hrun

/-- What can be read is listed. -/
theorem Settled.addArtifact (h : Settled w A Y r s) (hn : Legible w A s.disk n) :
    Diligent w A Y (w.addArtifact n) s := by
  have hlist : w.addArtifact n = (w.changeRecord fun _ r => r.addArtifact n) >>= fun _ => w.saveRecord >>= pure := by
    rw [bind_pure]
    rfl
  rw [hlist]
  have hgrows := Record.addArtifact_prefix (w.recordIn s) n
  refine (h.toTidy.saves hgrows (h.plain.addArtifact n) (fun m hm => ?_) fun _ t ht => .done ht.own).diligent h
  rw [h.plain.artifacts_add n] at hm
  split at hm
  · exact h.listed m hm
  · rcases List.mem_append.1 hm with hm | hm
    · exact h.listed m hm
    · cases List.mem_singleton.1 hm
      exact hn

/-- The record is written once more. -/
theorem Settled.always_saveRecord (h : Settled w A Y r s) : Always (Settled w A Y r) w.saveRecord s := by
  have hwrite : Always (Settled w A Y r) (Session.write (·.writeJson w.recordPath (w.recordIn s).toJson)) s := by
    refine Session.always_write h fun d hd => ?_
    cases (h.stands.rooted.writeJson isName_recordName.1 isName_recordName.2 h.stands.record _).symm.trans hd
    rw [← h.held]
    exact h.store
  exact ⟨h, hwrite⟩

end Workspace

end FlowPlan

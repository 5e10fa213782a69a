import FlowPlan.Proofs.History
import FlowPlan.Proofs.Interruption

/-!
# Histories with builds that are killed

Any build of a history may be killed between two of its steps. Nothing of it happens afterwards, and
nothing but the disk is left of it; the next build starts from there. At every moment the compiled key is
that of a workspace that has passed both gates, and a key that was the compiled one is not lost.

## Main definitions

* `Event` — a build that may be killed.
* `Promotion` — a promotion that has written to the pointers' file.
* `Moment` — what there is to be seen at one moment, and what has come before.
* `Event.moments` — all moments of a history.
* `Moment.Safe` — what holds of the compiled key.

## Main statements

* `Builder.Tracked.moment` — one more step of a build.
* `Event.safe_moments` — all moments of a history.
-/

namespace FlowPlan

open FlowPlan.Action Site Pointers Workspace Builder

/-- A promotion that has written to the pointers' file: its key, the key that was the compiled one at its
start, and whether its own key has been bound. -/
structure Promotion where
  key : String
  former : Option Json
  bound : Bool

/-- A moment of a history: the disk, the keys of the workspaces that have passed both gates so far, and the
last promotion that has begun to write. -/
structure Moment where
  disk : Disk
  passed : List String
  last : Option Promotion

namespace Moment

/-- Nothing has been built yet. -/
def first (d : Disk) : Moment := ⟨d, [], none⟩

def bound (m : Moment) (root : Path) (name : String) : Option Json := Pointers.bound ⟨root, true⟩ m.disk name

/-- The compiled key is that of a workspace that has passed both gates. The key that was compiled before the
last promotion is still bound. It is bound twice only if that promotion has not come to its end. -/
structure Safe (root : Path) (m : Moment) : Prop where
  passed : ∀ v, m.bound root compiled = some v →
    ∃ k ∈ m.passed, v = .str k ∧ m.disk.isDir (root.child k) = true
  former : ∀ p, m.last = some p → ∀ v, p.former = some v →
    m.bound root compiled = some v ∨ m.bound root compiledBackup = some v
  twice : ∀ v, m.bound root compiled = some v → m.bound root compiledBackup = some v →
    ∃ p, m.last = some p ∧ p.former = some v ∧ p.bound = false

end Moment

namespace Call

/-- The workspace that passes both gates, if one does, with the site at that moment and the number of
steps up to there. -/
def gates (c : Call) (s : Site) : Option (Workspace × Site × Nat) :=
  match (c.builder.approach c.document).run (c.found s) with
  | (.ok w, t) => some (w, t, (c.builder.approach c.document).steps (c.found s))
  | (.error _, _) => none

/-- The key of the workspace that has passed both gates after so many steps. -/
def passed? (c : Call) (s : Site) (n : Nat) : Option String :=
  match c.gates s with
  | some (w, _, before) => if before ≤ n then some w.key else none
  | none => none

/-- The promotion after so many steps, if it has begun to write. -/
def promotion? (c : Call) (s : Site) (n : Nat) : Option Promotion :=
  match c.gates s with
  | some (w, t, before) =>
    if before + (c.builder.pointers.firstWrite (.str w.key)).steps t ≤ n then
      some ⟨w.key, c.builder.pointers.bound t.disk compiled,
        decide (before + (c.builder.pointers.lastWrite (.str w.key)).steps t ≤ n)⟩
    else none
  | none => none

/-- The moment after so many steps of a build that begins at another moment. -/
def moment (c : Call) (s : Site) (m : Moment) (n : Nat) : Moment where
  disk := ((c.builder.run c.document).after n (c.found s)).disk
  passed := (c.passed? s n).toList ++ m.passed
  last := (c.promotion? s n).or m.last

end Call

/-- A build, and the number of steps that it takes if it is killed. -/
structure Event where
  call : Call
  killed : Option Nat

namespace Event

/-- The number of steps that the build takes. -/
def length (e : Event) (s : Site) : Nat :=
  e.killed.getD ((e.call.builder.run e.call.document).steps (e.call.found s))

/-- What the build leaves. If it is killed nothing but the disk is left of it, and its locks are gone. -/
def left (e : Event) (s : Site) : Site :=
  match e.killed with
  | none => ((e.call.builder.run e.call.document).run (e.call.found s)).2
  | some n =>
    { Site.ofDisk ((e.call.builder.run e.call.document).after n (e.call.found s)).disk e.call.clock with
      locked := s.locked }

/-- All moments of a history, one after the other. -/
def moments : Site → Moment → List Event → List Moment
  | _, _, [] => []
  | s, m, e :: es =>
    (List.range (e.length s + 1)).map (e.call.moment s m) ++
      moments (e.left s) (e.call.moment s m (e.length s)) es

/-- The build works in this root, its units have plain names and its commands leave the root alone. -/
structure Accepted (root : Path) (A : Address) (e : Event) : Prop where
  root : e.call.builder.settings.root = root
  discreet : e.call.builder.Discreet A

end Event

/-! ## One build -/

namespace Builder

/-- What holds at every moment of a history in a build root that is there. -/
structure Tracked (root : Path) (A : Address) (m : Moment) : Prop where
  sound : Sound root A m.disk
  passed : ∀ v, m.bound root compiled = some v → ∃ k ∈ m.passed, v = .str k
  former : ∀ p, m.last = some p → ∀ v, p.former = some v →
    m.bound root compiled = some v ∨ m.bound root compiledBackup = some v
  twice : ∀ v, m.bound root compiled = some v → m.bound root compiledBackup = some v →
    ∃ p, m.last = some p ∧ p.former = some v ∧ p.bound = false
  backup : m.bound root compiled = none → m.bound root compiledBackup = none

variable {root : Path} {A : Address} {m : Moment} {c : Call} {s : Site} {d : Disk} {ks : List String}

theorem Tracked.safe (h : Tracked root A m) : m.Safe root where
  passed v hv := by
    obtain ⟨k, hk, rfl⟩ := h.passed v hv
    obtain ⟨_, heq, hname, hdir⟩ := h.sound.named _ hv
    cases heq
    exact ⟨k, hk, rfl, h.sound.isDir hname hdir⟩
  former := h.former
  twice := h.twice

/-- Nothing happens to the compiled key and its backup. -/
theorem Tracked.calm (h : Tracked root A m) (hc : Calm root A m.disk d) (hks : m.passed ⊆ ks) :
    Tracked root A ⟨d, ks, m.last⟩ := by
  have hbound : ∀ n ∈ [compiled, compiledBackup], Moment.bound ⟨d, ks, m.last⟩ root n = m.bound root n :=
    fun n hn => hc.bound n hn
  refine ⟨hc.sound, fun v hv => ?_, fun p hp v hv => ?_, fun v hv hv' => ?_, fun hv => ?_⟩
  · obtain ⟨k, hk, rfl⟩ := h.passed v ((hbound _ (by simp)).symm.trans hv)
    exact ⟨k, hks hk, rfl⟩
  · rw [hbound _ (by simp), hbound _ (by simp)]
    exact h.former p hp v hv
  · exact h.twice v ((hbound _ (by simp)).symm.trans hv) ((hbound _ (by simp)).symm.trans hv')
  · rw [hbound _ (by simp)] at hv ⊢
    exact h.backup hv

/-- The first write of a promotion has been made, but not the last one. -/
theorem Tracked.between (h : Tracked root A m)
    (hs : Shown root A (m.bound root compiled) (m.bound root compiled) d) (hks : m.passed ⊆ ks) (key : String) :
    Tracked root A ⟨d, ks, some ⟨key, m.bound root compiled, false⟩⟩ := by
  refine ⟨hs.sound, fun v hv => ?_, fun p hp v hv => ?_, fun v hv _ => ?_, fun hv => ?_⟩
  · obtain ⟨k, hk, rfl⟩ := h.passed v (hs.compiled.symm.trans hv)
    exact ⟨k, hks hk, rfl⟩
  · cases hp
    exact .inl (hs.compiled.trans hv)
  · exact ⟨_, rfl, hs.compiled.symm.trans hv, rfl⟩
  · exact hs.backup.trans (hs.compiled.symm.trans hv)

/-- The last write of a promotion has been made. -/
theorem Tracked.behind (h : Tracked root A m) {key : String} (hne : m.bound root compiled ≠ some (.str key))
    (hs : Shown root A (some (.str key)) ((m.bound root compiled).or (m.bound root compiledBackup)) d)
    (hkey : key ∈ ks) : Tracked root A ⟨d, ks, some ⟨key, m.bound root compiled, true⟩⟩ := by
  refine ⟨hs.sound, fun v hv => ?_, fun p hp v hv => ?_, fun v hv hv' => ?_, fun hv => ?_⟩
  · cases hs.compiled.symm.trans hv
    exact ⟨key, hkey, rfl⟩
  · cases hp
    refine .inr (hs.backup.trans ?_)
    rw [show m.bound root compiled = some v from hv]
    rfl
  · cases hs.compiled.symm.trans hv
    have hor := hs.backup.symm.trans hv'
    cases hcompiled : m.bound root compiled with
    | none => simp [hcompiled, h.backup hcompiled] at hor
    | some v =>
      rw [hcompiled] at hor hne
      exact absurd hor hne
  · cases hs.compiled.symm.trans hv

/-- One more step of a build. -/
theorem Tracked.moment (h : Tracked root A m) (hdisk : s.disk = m.disk) (hj : s.journal.file = none)
    (hroot : c.builder.settings.root = root) (hd : c.builder.Discreet A) (n : Nat) :
    Tracked root A (c.moment s m n) := by
  obtain ⟨_, passed, last⟩ := m
  subst hroot hdisk
  have hsound : Sound c.builder.settings.root A (c.found s).disk := h.sound
  unfold Call.moment Call.passed? Call.promotion? Call.gates
  cases happroach : (c.builder.approach c.document).run (c.found s) with
  | mk r t =>
    cases r with
    | error f => exact h.calm (run_calm hd hsound hj happroach n) (List.Subset.refl passed)
    | ok w =>
      have hp := run_promotes hd hsound hj happroach
      have hordered := hp.ordered
      have hformer : c.builder.pointers.bound t.disk compiled =
        Moment.bound ⟨s.disk, passed, last⟩ c.builder.settings.root compiled := hp.former
      dsimp only
      rw [hformer]
      rcases Nat.lt_or_ge n ((c.builder.approach c.document).steps (c.found s) +
        (c.builder.pointers.firstWrite (.str w.key)).steps t) with hfirst | hfirst
      · rw [if_neg (Nat.not_le.2 hfirst)]
        exact h.calm (hp.before n hfirst) (List.subset_append_right _ _)
      rw [if_pos hfirst, if_pos (by omega)]
      rcases Nat.lt_or_ge n ((c.builder.approach c.document).steps (c.found s) +
        (c.builder.pointers.lastWrite (.str w.key)).steps t) with hlast | hlast
      · rw [decide_eq_false (Nat.not_le.2 hlast)]
        exact h.between (hp.between n hfirst hlast) (List.subset_append_right _ _) w.key
      · rw [decide_eq_true hlast]
        exact h.behind (hsound.compiled_ne hp.fresh) (hp.behind n hlast) (by simp)

/-- Once there is a compiled key, there is one from then on. -/
theorem Tracked.moment_bound (h : Tracked root A m) (hdisk : s.disk = m.disk) (hj : s.journal.file = none)
    (hroot : c.builder.settings.root = root) (hd : c.builder.Discreet A) {n n' : Nat} (hn : n ≤ n')
    (hbound : (c.moment s m n).bound root compiled ≠ none) :
    (c.moment s m n').bound root compiled ≠ none := by
  obtain ⟨_, passed, last⟩ := m
  subst hroot hdisk
  have hsound : Sound c.builder.settings.root A (c.found s).disk := h.sound
  cases happroach : (c.builder.approach c.document).run (c.found s) with
  | mk r t =>
    cases r with
    | error f =>
      have hcalm := fun i => (run_calm hd hsound hj happroach i).bound compiled (by simp)
      exact fun hnone => hbound ((hcalm n).trans ((hcalm n').symm.trans hnone))
    | ok w =>
      have hp := run_promotes hd hsound hj happroach
      -- Up to the last write the compiled key is the one at the start.
      have hkey : ∀ i, i < (c.builder.approach c.document).steps (c.found s) +
          (c.builder.pointers.lastWrite (.str w.key)).steps t →
          (c.moment s ⟨s.disk, passed, last⟩ i).bound c.builder.settings.root compiled =
            Pointers.bound ⟨c.builder.settings.root, true⟩ s.disk compiled := by
        intro i hi
        rcases Nat.lt_or_ge i ((c.builder.approach c.document).steps (c.found s) +
          (c.builder.pointers.firstWrite (.str w.key)).steps t) with hfirst | hfirst
        · exact (hp.before i hfirst).bound compiled (by simp)
        · exact (hp.between i hfirst hi).compiled
      rcases Nat.lt_or_ge n' ((c.builder.approach c.document).steps (c.found s) +
        (c.builder.pointers.lastWrite (.str w.key)).steps t) with hlast | hlast
      · rw [hkey n' hlast]
        rwa [hkey n (by omega)] at hbound
      · intro hnone
        cases (hp.behind n' hlast).compiled.symm.trans hnone

/-! ## The first build -/

/-- The first step makes a directory. It does not matter whether it is there already. -/
theorem makeDirs_made {p : Path} {α : Type} (k : Session α) (hmade : s.disk.makeDirs p = .ok d)
    (hd : Disk.Rooted Disk.maxLinks d p A) {a : Session α}
    (ha : a = Session.write (·.makeDirs p) >>= fun _ => k) :
    a.run s = a.run { s with disk := d } ∧ a.steps s = a.steps { s with disk := d } ∧ 0 < a.steps s ∧
      ∀ n, a.after (n + 1) s = a.after (n + 1) { s with disk := d } := by
  have hrun : (Session.write (·.makeDirs p)).run s = (.ok (), { s with disk := d }) :=
    Session.run_write_ok (f := (·.makeDirs p)) hmade
  have hrun' : (Session.write (·.makeDirs p)).run { s with disk := d } = (.ok (), { s with disk := d }) :=
    Session.makeDirs_run (s := { s with disk := d }) hd
  have htrail : ∀ {t u : Site}, (Session.write (·.makeDirs p)).run t = (.ok (), u) →
      Trail (fun _ : Site => True) a t 1 k u := fun {t u} h => by
    subst ha
    exact Always.trail_bind (always_iff.2 fun _ => trivial) h _
  have h := htrail hrun
  have h' := htrail hrun'
  refine ⟨h.run.trans h'.run.symm, h.steps.trans h'.steps.symm, by rw [h.steps]; omega, fun n => ?_⟩
  rw [Nat.add_comm, h.after_add, h'.after_add]

variable {b : Builder}

theorem run_eq (b : Builder) (document : Json) :
    ∃ k, b.run document = Session.write (·.makeDirs b.settings.root) >>= fun _ => k := by
  unfold Builder.run
  rw [Lock.acquire_eq, bind_assoc]
  exact ⟨_, rfl⟩

theorem steps_pos {document : Json} : 0 < (b.run document).steps s := by
  obtain ⟨k, hk⟩ := run_eq b document
  rw [hk]
  exact Nat.succ_pos _

theorem tracked_first (hd : Disk.Rooted Disk.maxLinks d root A)
    (hnone : ∀ a, Address.Below A a → d.find? a = none) (hj : s.journal.file = none) :
    Tracked root A (.first d) := by
  have h := Call.orderly_vacant (s := s) hd hnone hj
  have hcompiled : Moment.bound (.first d) root compiled = none := h.bound.compiled
  refine ⟨h.sound, fun v hv => ?_, fun p hp => ?_, fun v hv => ?_, fun _ => h.bound.compiledBackup⟩
  · cases hcompiled.symm.trans hv
  · cases hp
  · cases hcompiled.symm.trans hv

end Builder

namespace Call

variable {root : Path} {A : Address} {c : Call} {s : Site} {d : Disk}

theorem moment_made (hmade : s.disk.makeDirs c.builder.settings.root = .ok d)
    (hd : Disk.Rooted Disk.maxLinks d c.builder.settings.root A) :
    c.moment s (.first s.disk) 0 = .first s.disk ∧
      ∀ n, c.moment s (.first s.disk) (n + 1) = c.moment { s with disk := d } (.first d) (n + 1) := by
  obtain ⟨k, hk⟩ := run_eq c.builder c.document
  obtain ⟨-, -, -, hafter⟩ := makeDirs_made (s := c.found s) k hmade hd hk
  obtain ⟨hrun, hsteps, hpos, -⟩ := makeDirs_made (s := c.found s) _ hmade hd
    (a := c.builder.approach c.document) (by rw [approach_eq, Lock.acquire_eq, bind_assoc])
  have hgates : c.gates s = c.gates { s with disk := d } := by
    unfold gates
    rw [hrun, hsteps]
    rfl
  constructor
  · have hpassed : c.passed? s 0 = none ∧ c.promotion? s 0 = none := by
      unfold passed? promotion? gates
      cases (c.builder.approach c.document).run (c.found s) with
      | mk r t =>
        cases r with
        | error f => exact ⟨rfl, rfl⟩
        | ok w => exact ⟨if_neg (by omega), if_neg (by omega)⟩
    unfold moment
    rw [hpassed.1, hpassed.2, after_zero]
    rfl
  · intro n
    unfold moment passed? promotion?
    rw [hgates, hafter]
    rfl

end Call

/-! ## Histories -/

/-- What a history may have come to between two builds. -/
inductive Builder.Paused (root : Path) (A : Address) (s : Site) (m : Moment) : Prop
  | standing (tracked : Tracked root A m) (disk : s.disk = m.disk) (journal : s.journal.file = none)
  | vacant (vacant : Vacant root A s) (first : m = .first s.disk)

namespace Event

variable {root : Path} {A : Address} {e : Event} {s : Site} {m : Moment}

theorem left_disk (e : Event) (s : Site) (m : Moment) :
    (e.left s).disk = (e.call.moment s m (e.length s)).disk := by
  unfold left length Call.moment
  cases e.killed with
  | none => exact (congrArg Site.disk (after_of_le (Nat.le_refl _))).symm
  | some n => rfl

theorem left_journal
    (h : ((e.call.builder.run e.call.document).run (e.call.found s)).2.journal.file = none) :
    (e.left s).journal.file = none := by
  unfold left
  cases e.killed with
  | none => exact h
  | some n => rfl

/-- All moments of a build are safe, and a compiled key stays. -/
structure Keeps (root : Path) (e : Event) (s : Site) (m : Moment) : Prop where
  safe : ∀ n, (e.call.moment s m n).Safe root
  stays : ∀ n n', n ≤ n' → (e.call.moment s m n).bound root compiled ≠ none →
    (e.call.moment s m n').bound root compiled ≠ none

theorem keeps_of_standing (he : e.Accepted root A) (h : Tracked root A m) (hdisk : s.disk = m.disk)
    (hj : s.journal.file = none) :
    e.Keeps root s m ∧ Paused root A (e.left s) (e.call.moment s m (e.length s)) := by
  have htracked := fun n => h.moment hdisk hj he.root he.discreet n
  have hsound : Sound e.call.builder.settings.root A (e.call.found s).disk := by
    rw [he.root]
    exact hdisk ▸ h.sound
  exact ⟨⟨fun n => (htracked n).safe, fun n n' hn => h.moment_bound hdisk hj he.root he.discreet hn⟩,
    .standing (htracked _) (left_disk e s m)
      (left_journal (run_journal he.discreet hsound (s := e.call.found s) hj e.call.document))⟩

theorem safe_first (h : Vacant root A s) : (Moment.first s.disk).Safe root where
  passed v hv := by cases (h.bound compiled).symm.trans hv
  former p hp := by cases hp
  twice v hv := by cases (h.bound compiled).symm.trans hv

theorem keeps_of_vacant (he : e.Accepted root A) (h : Vacant root A s) :
    e.Keeps root s (.first s.disk) ∧
      Paused root A (e.left s) (e.call.moment s (.first s.disk) (e.length s)) := by
  obtain ⟨d, hmade, hd, hnone⟩ := h.made
  obtain ⟨hzero, hsucc⟩ := Call.moment_made (c := e.call) (he.root ▸ hmade) (he.root ▸ hd)
  have htracked := tracked_first hd hnone h.journal
  obtain ⟨⟨hsafe, hstays⟩, -⟩ := keeps_of_standing (s := { s with disk := d }) he htracked rfl h.journal
  have hunbound : (e.call.moment s (.first s.disk) 0).bound root compiled = none := by
    rw [hzero]
    exact h.bound compiled
  refine ⟨⟨fun n => ?_, fun n n' hn hbound => ?_⟩, ?_⟩
  · cases n with
    | zero =>
      rw [hzero]
      exact safe_first h
    | succ n =>
      rw [hsucc]
      exact hsafe (n + 1)
  · cases n with
    | zero => exact absurd hunbound hbound
    | succ n =>
      obtain ⟨i, rfl⟩ := Nat.exists_eq_add_of_le' hn
      rw [hsucc] at hbound
      rw [← Nat.add_assoc, hsucc]
      exact hstays _ _ (by omega) hbound
  cases hlength : e.length s with
  | zero =>
    have hdisk : (e.left s).disk = s.disk := by rw [left_disk e s (.first s.disk), hlength, hzero]; rfl
    have hkilled : e.killed = some 0 := by
      have hpos : 0 < (e.call.builder.run e.call.document).steps (e.call.found s) := steps_pos
      unfold length at hlength
      cases hk : e.killed with
      | none =>
        rw [hk] at hlength
        exact absurd hlength (Nat.ne_of_gt hpos)
      | some n =>
        rw [hk] at hlength
        exact congrArg some hlength
    rw [hzero, ← hdisk]
    refine .vacant ⟨hdisk.symm ▸ h.made, ?_, ?_⟩ rfl
    · simp [left, hkilled, Site.ofDisk, Journal.closed]
    · simpa [left, hkilled] using h.free
  | succ n =>
    refine .standing ?_ ?_ ?_
    · rw [hsucc]
      exact htracked.moment (s := { s with disk := d }) rfl h.journal he.root he.discreet (n + 1)
    · rw [left_disk e s (.first s.disk), hlength]
    · refine left_journal ?_
      have hsound : Sound e.call.builder.settings.root A (e.call.found { s with disk := d }).disk := by
        rw [he.root]
        exact htracked.sound
      rw [Call.run_made (s := e.call.found s) (he.root ▸ hmade) (he.root ▸ hd)]
      exact run_journal he.discreet hsound (s := e.call.found { s with disk := d }) h.journal e.call.document

/-- The moments of a history from any moment on. A compiled key at its start stays. -/
theorem moments_of_paused {events : List Event} (h : Paused root A s m)
    (he : ∀ e ∈ events, e.Accepted root A) :
    (∀ m' ∈ moments s m events, m'.Safe root) ∧
      (m.bound root compiled ≠ none → ∀ m' ∈ moments s m events, m'.bound root compiled ≠ none) ∧
      (moments s m events).Pairwise fun m' m'' =>
        m'.bound root compiled ≠ none → m''.bound root compiled ≠ none := by
  induction events generalizing s m with
  | nil => exact ⟨by simp [moments], by simp [moments], by simp [moments]⟩
  | cons e events ih =>
    have hdisk : s.disk = m.disk := by
      cases h with
      | standing tracked disk journal => exact disk
      | vacant vacant first => exact first ▸ rfl
    obtain ⟨⟨hsafe, hstays⟩, hpaused⟩ : e.Keeps root s m ∧
        Paused root A (e.left s) (e.call.moment s m (e.length s)) := by
      have hevent := he e List.mem_cons_self
      cases h with
      | standing tracked disk journal => exact keeps_of_standing hevent tracked disk journal
      | vacant vacant first => exact first ▸ keeps_of_vacant hevent vacant
    obtain ⟨hsafe', hstays', hpairwise⟩ := ih hpaused fun e' he' => he e' (List.mem_cons_of_mem e he')
    have hstart : (e.call.moment s m 0).bound root compiled = m.bound root compiled := by
      unfold Moment.bound Call.moment
      rw [after_zero, ← hdisk]
      rfl
    unfold moments
    refine ⟨fun m' hm' => ?_, fun hbound m' hm' => ?_, List.pairwise_append.2 ⟨?_, hpairwise, ?_⟩⟩
    · rcases List.mem_append.1 hm' with hm' | hm'
      · obtain ⟨n, -, rfl⟩ := List.mem_map.1 hm'
        exact hsafe n
      · exact hsafe' m' hm'
    · rw [← hstart] at hbound
      rcases List.mem_append.1 hm' with hm' | hm'
      · obtain ⟨n, -, rfl⟩ := List.mem_map.1 hm'
        exact hstays 0 n n.zero_le hbound
      · exact hstays' (hstays 0 _ (Nat.zero_le _) hbound) m' hm'
    · exact List.pairwise_map.2 (List.pairwise_lt_range.imp fun hlt => hstays _ _ (Nat.le_of_lt hlt))
    · intro m' hm' m'' hm'' hbound
      obtain ⟨n, hn, rfl⟩ := List.mem_map.1 hm'
      exact hstays' (hstays n _ (Nat.le_of_lt_succ (List.mem_range.1 hn)) hbound) m'' hm''

/-- In a history of builds that begins in an empty build root and in which any build may be killed at any
moment, every moment is safe, and once there is a compiled key there is one ever after. -/
theorem safe_moments (hv : Vacant root A s) (events : List Event) (he : ∀ e ∈ events, e.Accepted root A) :
    (∀ m ∈ moments s (.first s.disk) events, m.Safe root) ∧
      (moments s (.first s.disk) events).Pairwise fun m m' =>
        m.bound root compiled ≠ none → m'.bound root compiled ≠ none :=
  have h := moments_of_paused (.vacant hv rfl) he
  ⟨h.1, h.2.2⟩

/-- Three builds; the second one is killed between the two writes of its promotion. -/
theorem safe_moments_lone :
    (∀ m ∈ moments Call.bare (.first Call.bare.disk)
        [⟨Call.lone "5.00" [], none⟩, ⟨Call.lone "5.00" [], some 58⟩, ⟨Call.lone "5.00" [], none⟩],
      m.Safe ⟨"/", ["p", "run"]⟩) ∧
    (moments Call.bare (.first Call.bare.disk)
        [⟨Call.lone "5.00" [], none⟩, ⟨Call.lone "5.00" [], some 58⟩, ⟨Call.lone "5.00" [], none⟩]).Pairwise
      fun m m' => m.bound ⟨"/", ["p", "run"]⟩ compiled ≠ none →
        m'.bound ⟨"/", ["p", "run"]⟩ compiled ≠ none := by
  refine safe_moments Call.vacant_bare _ ?_
  simp only [List.forall_mem_cons, List.not_mem_nil, false_implies, implies_true, and_true]
  exact ⟨⟨by decide +kernel, Builder.discreet_lone⟩, ⟨by decide +kernel, Builder.discreet_lone⟩,
    ⟨by decide +kernel, Builder.discreet_lone⟩⟩

/-! ### Units that write where the pointers are -/

/-- A build whose stage leads out of the workspace, of a document with a field for the compiled key. -/
def stray : Call := { Call.lone "5.00/../../pointers" [] with document := .obj [("compiled", .str "x")] }

/-- A host whose programs put another file in the place of the pointers. -/
def scribbling : Host where
  start _ g := .ok (⟨[], [], .exited 0⟩,
    { g with disk := g.disk.set ["/", "p", "run", "pointers.json"] (.file (.text "\x7b\"compiled\":\"x\"\x7d")) })

/-- A build with a command on such a host. -/
def scribbled : Call :=
  (Call.lone "5.00" [("scribble", ⟨"scribble", .str "plan", [.str "scribble"]⟩)]).on scribbling

set_option maxRecDepth 100000 in
/-- The artifact of such a stage takes the place of the pointers, and so does the file of such a command.
Either names a compiled key that no workspace has. -/
theorem unsafe_stray : Vacant ⟨"/", ["p", "run"]⟩ ["/", "p", "run"] Call.bare ∧
    ∀ e ∈ [Event.mk stray (some 36), ⟨scribbled, some 52⟩],
      e.call.clock.IsClock ∧ e.call.builder.settings.root = ⟨"/", ["p", "run"]⟩ ∧
      e.call.builder.settings.check = .ok () ∧
      ∃ m ∈ moments Call.bare (.first Call.bare.disk) [e],
        m.bound ⟨"/", ["p", "run"]⟩ compiled = some (.str "x") ∧ m.passed = [] := by
  have hlast : ∀ c : Call, ∀ n, c.moment Call.bare (.first Call.bare.disk) n ∈
      moments Call.bare (.first Call.bare.disk) [⟨c, some n⟩] := by
    intro c n
    simp only [moments, List.append_nil]
    exact List.mem_map_of_mem (List.mem_range.2 (Nat.lt_succ_self n))
  refine ⟨Call.vacant_bare, ?_⟩
  simp only [List.forall_mem_cons, List.not_mem_nil, false_implies, implies_true, and_true]
  exact ⟨⟨⟨rfl, by decide, by decide⟩, by decide +kernel, rfl, _, hlast stray 36, by decide +kernel, by decide +kernel⟩,
    ⟨rfl, by decide, by decide⟩, by decide +kernel, rfl, _, hlast scribbled 52, by decide +kernel, by decide +kernel⟩

end Event

end FlowPlan

import FlowPlan.Proofs.Lock
import FlowPlan.Proofs.Supervision

/-!
# The course of a build

A build takes the lock, allocates a workspace, opens its log and runs an attempt under supervision.
Up to the attempt nothing becomes of the pointers.

## Main definitions

* `Builder.opening` — the lock and the allocation.
* `Builder.Standing` — a build root that a build may find.
* `Builder.Ran` — how a build can go.

## Main statements

* `Builder.run_ran` — every build goes in one of these ways.
-/

namespace FlowPlan

open FlowPlan.Action Site Pointers Workspace

namespace Builder

/-- The lock and a new workspace. -/
def opening (b : Builder) : Session Workspace := do
  discard (Lock.acquire (Lock.path b.settings.root) b.wait)
  b.directory.allocate

/-- What is left once there is a workspace. -/
def remainder (b : Builder) (document : Json) (w : Workspace) : Session Built := do
  Session.openLog w.logPath b.settings.logLevel b.style !b.quiet
  Action.ensuring ((b.supervision w).supervise (b.phases document w)) Session.closeLog

/-- The path of the pointers leads to a file, or to their own place. -/
def Settled (p : Pointers) (A : Address) (d : Disk) : Prop :=
  ∃ T, d.locate p.path = .ok T ∧ ((∃ c, d.find? T = some (.file c)) ∨ T = A ++ [storeName])

/-- What a build may find: its root is a directory with whatever in it, no log is open, and the
pointers can be read. -/
structure Standing (b : Builder) (A : Address) (s : Site) : Prop where
  rooted : Disk.Rooted Disk.maxLinks s.disk b.settings.root A
  closed : Disk.Closed A s.disk
  journal : s.journal.file = none
  lock : ∀ a, s.disk.locate (Lock.path b.settings.root) = .ok a →
    ∀ t, s.disk.find? a ≠ some (.link t)
  readable : ∃ B, b.pointers.load s.disk = .ok B
  settled : Settled b.pointers A s.disk

/-- The lock is taken on the very file that holds the pointers. -/
def Overlaid (b : Builder) (s : Site) : Prop :=
  s.disk.locate (Lock.path b.settings.root) = s.disk.locate b.pointers.path ∧
    ∃ a t, (Lock.acquire (Lock.path b.settings.root) b.wait).run s = (.ok a, t)

variable {b : Builder} {A : Address} {s s₁ s₂ s₃ : Site}

/-- The pointers are read as before once a disk has grown elsewhere. -/
theorem Settled.of_grows {p : Pointers} {d d' : Disk} (h : Settled p A d) (hg : Disk.Grows d d')
    (hT : ∀ T, d.locate p.path = .ok T → d'.find? T = d.find? T) :
    Settled p A d' ∧ p.load d' = p.load d := by
  obtain ⟨T, hl, hfile⟩ := h
  have hl' : d'.locate p.path = .ok T := by
    refine hg.locate hl fun hnone e he => ?_
    rw [hT T hl, hnone] at he
    cases he
  exact ⟨⟨T, hl', hfile.imp_left fun ⟨c, hc⟩ => ⟨c, (hT T hl).trans hc⟩⟩, load_congr hl hl' (hT T hl)⟩

/-- What is new does not concern the pointers. -/
theorem Settled.of_new {p : Pointers} {d d' : Disk} (h : Settled p A d)
    (hhome : d'.home = d.home) (hnew : ∀ a, d.find? a ≠ none → d'.find? a = d.find? a)
    (hstore : d'.find? (A ++ [storeName]) = d.find? (A ++ [storeName])) :
    Settled p A d' ∧ p.load d' = p.load d := by
  refine h.of_grows (Disk.grows_of_new hhome hnew) fun T hl => ?_
  obtain ⟨T', hl', ⟨c, hc⟩ | rfl⟩ := h
  · rw [hl] at hl'
    cases hl'
    exact hnew T (by simp [hc])
  · rw [hl] at hl'
    cases hl'
    exact hstore

/-! ## The lock -/

theorem closed_of_wrote {d d' : Disk} {a : Address} (h : Disk.Closed A d) (hw : Disk.Wrote a d d') :
    Disk.Closed A d' := by
  intro k n hk
  have hk' : d.find? (A ++ [k]) ≠ some .dir := by
    intro hdir
    by_cases ha : A ++ [k] = a
    · have := hw.before .dir (ha ▸ hdir)
      cases this
    · exact hk ((hw.kept _ ha).trans hdir)
  have hnone := h k n hk'
  by_cases ha : A ++ [k] ++ [n] = a
  · have hparent := hw.parent (ha ▸ hnone)
    rw [← ha, List.dropLast_concat] at hparent
    exact absurd hparent hk'
  · rw [hw.kept _ ha, hnone]

/-- What the lock leaves of what a build may find. -/
structure Locked (b : Builder) (A : Address) (s s₁ : Site) : Prop where
  ready : Ready b.settings.root A s₁
  closed : Disk.Closed A s₁.disk
  dirs : s.disk.SameDirs s₁.disk
  journal : s₁.journal = s.journal
  kept : s.disk.locate (Lock.path b.settings.root) ≠ s.disk.locate b.pointers.path →
    Settled b.pointers A s₁.disk ∧ b.pointers.load s₁.disk = b.pointers.load s.disk

theorem sameDirs_of_wrote {d d' : Disk} {a : Address} (h : Disk.Wrote a d d') : d.SameDirs d' := by
  intro b
  by_cases hb : b = a
  · obtain ⟨c, hc⟩ := h.file
    rw [hb, hc]
    refine ⟨by simp, fun hdir => ?_⟩
    have := h.before .dir hdir
    cases this
  · rw [h.kept b hb]

theorem acquire_standing (h : Standing b A s) :
    ∃ r s₁, (Lock.acquire (Lock.path b.settings.root) b.wait).run s = (r, s₁) ∧
      Lock.Acquired b.settings.root s r s₁ ∧ Locked b A s s₁ := by
  obtain ⟨r, s₁, hrun, hacq⟩ := Lock.acquire_run h.rooted h.lock b.wait
  refine ⟨r, s₁, hrun, hacq, ?_⟩
  have hlog : ∀ a, s₁.IsLog a → ∃ key, a = A ++ [key] ++ ["run.log"] := by
    rintro a ⟨style, hfile⟩
    rw [hacq.journal, h.journal] at hfile
    cases hfile
  rcases hacq.disk with hdisk | ⟨a, hlocate, hwrote⟩
  · exact ⟨⟨hdisk ▸ h.rooted, hlog⟩, hdisk ▸ h.closed, hdisk ▸ .refl _, hacq.journal,
      fun _ => ⟨hdisk ▸ h.settled, by rw [hdisk]⟩⟩
  · refine ⟨⟨h.rooted.of_keepsWays (hwrote.grows.keepsWays A), hlog⟩, closed_of_wrote h.closed hwrote,
      sameDirs_of_wrote hwrote, hacq.journal, fun hapart => ?_⟩
    refine h.settled.of_grows hwrote.grows fun T hl => hwrote.kept T ?_
    rintro rfl
    exact hapart (hlocate.trans hl.symm)

/-- Where the lock is the pointers' file, the mark of its holder is all that is left of them. -/
theorem load_overlaid (h : Standing b A s) {a : Address}
    (hsame : s.disk.locate (Lock.path b.settings.root) = s.disk.locate b.pointers.path)
    (hacq : Lock.Acquired b.settings.root s (.ok a) s₁) : ∃ f, b.pointers.load s₁.disk = .error f := by
  obtain ⟨hlocate, hmark⟩ := hacq.marked a rfl
  have hclean : b.pointers.path.Clean := h.rooted.clean.child isName_storeName.1 isName_storeName.2
  rcases hacq.disk with hdisk | ⟨a', hlocate', hwrote⟩
  · rw [hdisk] at hmark ⊢
    exact load_of_text hclean (hsame.symm.trans hlocate) hmark (by decide +kernel)
  · refine load_of_text hclean (hwrote.grows.locate (hsame.symm.trans hlocate) fun _ e he => ?_) hmark
      (by decide +kernel)
    rw [hmark] at he
    cases he
    rfl

/-- Who does not get the lock leaves the bindings alone. -/
theorem bound_refused (h : Standing b A s) {f : Fault}
    (hacq : Lock.Acquired b.settings.root s (.error f) s₁) (hlocked : Locked b A s s₁) (n : String) :
    b.pointers.bound s₁.disk n = b.pointers.bound s.disk n := by
  by_cases hsame : s.disk.locate (Lock.path b.settings.root) = s.disk.locate b.pointers.path
  · rcases hacq.refused f rfl with hdisk | ⟨a, hlocate, hnone, hempty⟩
    · rw [hdisk]
    · have hl := hsame.symm.trans hlocate
      have hclean : b.pointers.path.Clean := h.rooted.clean.child isName_storeName.1 isName_storeName.2
      have hl' : s₁.disk.locate b.pointers.path = .ok a := by
        rcases hacq.disk with hdisk | ⟨a', -, hwrote⟩
        · rw [hdisk]
          exact hl
        · refine hwrote.grows.locate hl fun _ e he => ?_
          rw [hempty] at he
          cases he
          rfl
      obtain ⟨g, hg⟩ := load_of_text hclean hl' hempty (by decide +kernel)
      rw [bound_of_missing hl hnone, bound_of_load_error hg]
  · unfold bound
    rw [(hlocked.kept hsame).2]

/-! ## The workspace and its log -/

/-- An attempt can begin: the workspace and its log are there, and the pointers are as before. -/
structure Prepared (b : Builder) (A : Address) (w : Workspace) (s s' : Site) : Prop where
  name : Key.IsKeyName w.key
  root : b.directory.root = w.root
  stands : Stands w A s'
  closed : Disk.Closed A s'.disk
  dirs : ∀ n, n ≠ w.key →
    (s'.disk.find? (A ++ [n]) = some .dir ↔ s.disk.find? (A ++ [n]) = some .dir)
  settled : Settled b.pointers A s'.disk
  load : b.pointers.load s'.disk = b.pointers.load s.disk
  status : (w.recordIn s').status = .str Record.running
  record : ∃ rec, Records w A s'.disk rec ∧ rec.status = .str Record.running

theorem prepared_of_allocated {key : String} (h : Locked b A s s₁) (hj : s.journal.file = none)
    (hapart : s.disk.locate (Lock.path b.settings.root) ≠ s.disk.locate b.pointers.path)
    (ha : b.directory.Allocated A key s₁ s₂) : Prepared b A (b.directory.workspace key) s s₂ := by
  have hnew := ha.kept_of_some h.closed
  have hchild : ∀ n, n ≠ key → s₂.disk.find? (A ++ [n]) = s₁.disk.find? (A ++ [n]) :=
    fun n hn => ha.kept _ (by simpa using hn) (by simp)
  have hstore := hchild storeName fun heq => ne_reserved_of_isKeyName ha.name (.inl heq.symm)
  obtain ⟨hsettled₁, hload₁⟩ := h.kept hapart
  obtain ⟨hsettled, hload⟩ := hsettled₁.of_new ha.home hnew hstore
  have hstands := ha.stands h.ready.rooted h.closed (by rw [h.journal, hj])
  have hclosed : Disk.Closed A s₂.disk := by
    intro k n hk
    have hne : k ≠ key := by
      rintro rfl
      exact hk ha.dir
    rw [ha.kept _ (by simp) (by simp [hne])]
    exact h.closed k n fun hdir => hk ((hchild k hne).trans hdir)
  refine ⟨ha.name, rfl, hstands, hclosed, fun n hn => ?_, hsettled, hload.trans hload₁, ?_,
    ⟨_, ha.record, rfl⟩⟩
  · rw [hchild n hn, h.dirs]
  · rw [ha.held]
    rfl

theorem prepared_of_opened {w : Workspace} (h : Prepared b A w s s₂)
    (hnone : s₂.disk.find? (A ++ [w.key] ++ [logName]) = none) (ho : Opened w A s₂ s₃) :
    Prepared b A w s s₃ := by
  have hnew := ho.kept_of_some hnone
  have hchild : ∀ n, s₃.disk.find? (A ++ [n]) = s₂.disk.find? (A ++ [n]) :=
    fun n => ho.kept _ (by simp)
  have hrecord : s₃.disk.find? (A ++ [w.key] ++ [recordName]) =
      s₂.disk.find? (A ++ [w.key] ++ [recordName]) := ho.kept _ (by simp; decide)
  obtain ⟨hsettled, hload⟩ := h.settled.of_new ho.home hnew (hchild _)
  obtain ⟨rec, hrec, hrunning⟩ := h.record
  have hstands := ho.stands h.stands hnone
  have hclosed : Disk.Closed A s₃.disk := by
    intro k n hk
    have hk' : s₂.disk.find? (A ++ [k]) ≠ some .dir := by rwa [← hchild]
    have hne : k ≠ w.key := by
      rintro rfl
      exact hk' h.stands.dir
    rw [ho.kept _ (by simp [hne]), h.closed k n hk']
  refine ⟨h.name, h.root, hstands, hclosed, fun n hn => ?_, hsettled, hload.trans h.load, ?_,
    ⟨rec, hrecord.trans hrec, hrunning⟩⟩
  · rw [hchild, h.dirs n hn]
  · rw [recordIn_congr ho.records ho.clock, h.status]

/-- The places of the links are as they were before. -/
theorem Prepared.clear {w : Workspace} (h : Prepared b A w s s') {n : String} (hal : n ∈ aliases) :
    s'.disk.Clear A n ↔ s.disk.Clear A n := by
  have hne : n ≠ w.key ∧ Path.temporary n ≠ w.key := by
    constructor <;> intro heq <;>
      exact ne_reserved_of_isKeyName h.name (.inr ⟨_, hal, by simp [← heq]⟩)
  unfold Disk.Clear
  simp only [ne_eq, h.dirs _ hne.1, h.dirs _ hne.2]

theorem Prepared.blocked {w : Workspace} (h : Prepared b A w s s') {change : String × Json}
    (hal : change.1 ∈ aliases) :
    b.pointers.Blocked s'.disk A change ↔ b.pointers.Blocked s.disk A change := by
  unfold Blocked Shows
  rw [h.clear hal]

theorem Prepared.bound {w : Workspace} (h : Prepared b A w s s') :
    b.pointers.bound s'.disk = b.pointers.bound s.disk := Supervision.bound_congr h.load

/-! ## The whole -/

/-- How it goes in a new workspace. -/
theorem remainder_run {w : Workspace} (hd : b.Discreet A) (h : Prepared b A w s s₂)
    (hnone : s₂.disk.find? (A ++ [w.key] ++ [logName]) = none) {B : Bindings}
    (hload : b.pointers.load s.disk = .ok B) (document : Json) :
    (∃ f, Session.thresholdOf (Text.upper b.settings.logLevel) = .error f ∧
      (Session.openLog w.logPath b.settings.logLevel b.style !b.quiet).run s₂ = (.error f, s₂) ∧
      (b.remainder document w).run s₂ = (.error f, s₂)) ∨
    ∃ r s₃ s₄, (Session.openLog w.logPath b.settings.logLevel b.style !b.quiet).run s₂ = (.ok (), s₃) ∧
      Opened w A s₂ s₃ ∧ Prepared b A w s s₃ ∧ Passes w A s₃ s₄ ∧
      (∃ fs, s₄.disk.find? (A ++ [storeName]) = some (.file (.json (.obj fs)))) ∧
      Course b A w document s₃ r s₄ ∧
      (b.remainder document w).run s₂ =
        (r, { s₄ with journal := { s₄.journal with file := none, console := false } }) := by
  rcases openLog_run h.stands hnone b.settings.logLevel b.style !b.quiet with
    ⟨f, hunknown, hrun⟩ | ⟨s₃, hrun₃, hopened⟩
  · exact .inl ⟨f, hunknown, hrun, run_bind_error hrun⟩
  · have hp := prepared_of_opened h hnone hopened
    obtain ⟨r, s₄, hrun₄, hpasses, hstored, hcourse⟩ := supervise_run hd h.root hp.stands hp.closed
      (hp.load.trans hload) hp.status hp.record document
    refine .inr ⟨r, s₃, s₄, hrun₃, hopened, hp, hpasses, hstored, hcourse, ?_⟩
    unfold remainder
    rw [run_bind_ok hrun₃, run_ensuring, hrun₄]
    rfl

theorem run_unlocked {f : Fault} (h : (Lock.acquire (Lock.path b.settings.root) b.wait).run s =
    (.error f, s₁)) (document : Json) : (b.run document).run s = (.error f, s₁) := run_bind_error h

/-- What an attempt leaves, with the lock given back. -/
theorem run_of_attempt {a : Address} {document : Json} {r : Except Fault Built}
    (h : (Lock.acquire (Lock.path b.settings.root) b.wait).run s = (.ok a, s₁))
    (hattempt : (b.attempt document).run s₁ = (r, s₂)) :
    (b.run document).run s = (r, { s₂ with locked := s₂.locked.erase a }) := by
  unfold run
  rw [run_bind_ok h, run_ensuring, hattempt]
  rfl

theorem attempt_unallocated {f : Fault} (h : b.directory.allocate.run s₁ = (.error f, s₂))
    (document : Json) : (b.attempt document).run s₁ = (.error f, s₂) := run_bind_error h

theorem attempt_allocated {w : Workspace} {document : Json} {r : Except Fault Built}
    (h : b.directory.allocate.run s₁ = (.ok w, s₂))
    (hremainder : (b.remainder document w).run s₂ = (r, s₃)) :
    (b.attempt document).run s₁ = (r, s₃) := (run_bind_ok h).trans hremainder

/-- How a build goes that starts at `s` and ends with `r` at `s'`. -/
inductive Ran (b : Builder) (A : Address) (document : Json) (s : Site) (r : Except Fault Built)
    (s' : Site) : Prop
  /-- There is no lock or no workspace. -/
  | unopened (error : ∃ f, r = .error f) (opening : ∃ f t, b.opening.run s = (.error f, t))
      (bound : b.Overlaid s ∧ (∀ n, b.pointers.bound s'.disk n = none) ∨
        ¬ b.Overlaid s ∧ ∀ n, b.pointers.bound s'.disk n = b.pointers.bound s.disk n)
  /-- The log cannot be opened. -/
  | unlogged (w : Workspace) (s₁ : Site) (f : Fault) (opening : b.opening.run s = (.ok w, s₁))
      (apart : ¬ b.Overlaid s)
      (unknown : Session.thresholdOf (Text.upper b.settings.logLevel) = .error f)
      (log : (Session.openLog w.logPath b.settings.logLevel b.style !b.quiet).run s₁ = (.error f, s₁))
      (error : r = .error f) (disk : s'.disk = s₁.disk) (prepared : Prepared b A w s s₁)
  /-- There is an attempt. -/
  | attempted (w : Workspace) (s₁ s₂ s₃ : Site) (opening : b.opening.run s = (.ok w, s₁))
      (apart : ¬ b.Overlaid s)
      (log : (Session.openLog w.logPath b.settings.logLevel b.style !b.quiet).run s₁ = (.ok (), s₂))
      (prepared : Prepared b A w s s₂) (passes : Passes w A s₂ s₃) (course : Course b A w document s₂ r s₃)
      (disk : s'.disk = s₃.disk)

theorem opening_of_error {f : Fault} (h : (Lock.acquire (Lock.path b.settings.root) b.wait).run s =
    (.error f, s₁)) : b.opening.run s = (.error f, s₁) := run_bind_error (run_bind_error h)

theorem opening_of_ok {a : Address} {r : Except Fault Workspace}
    (h : (Lock.acquire (Lock.path b.settings.root) b.wait).run s = (.ok a, s₁))
    (hallocate : b.directory.allocate.run s₁ = (r, s₂)) : b.opening.run s = (r, s₂) :=
  (run_bind_ok (run_bind_ok h)).trans hallocate

/-- How it goes once there are a lock and a workspace. -/
theorem allocated_run (hd : b.Discreet A) (h : Standing b A s) {a : Address} {key : String}
    (hlock : (Lock.acquire (Lock.path b.settings.root) b.wait).run s = (.ok a, s₁))
    (hlocked : Locked b A s s₁)
    (hapart : s.disk.locate (Lock.path b.settings.root) ≠ s.disk.locate b.pointers.path)
    (hallocate : b.directory.allocate.run s₁ = (.ok (b.directory.workspace key), s₂))
    (hallocated : b.directory.Allocated A key s₁ s₂) (document : Json) :
    (∃ f, Session.thresholdOf (Text.upper b.settings.logLevel) = .error f ∧
      (Session.openLog (b.directory.workspace key).logPath b.settings.logLevel b.style !b.quiet).run s₂ =
        (.error f, s₂) ∧
      (b.run document).run s = (.error f, { s₂ with locked := s₂.locked.erase a })) ∨
    ∃ r s₃ s₄,
      (Session.openLog (b.directory.workspace key).logPath b.settings.logLevel b.style !b.quiet).run s₂ =
        (.ok (), s₃) ∧
      Opened (b.directory.workspace key) A s₂ s₃ ∧ Prepared b A (b.directory.workspace key) s s₃ ∧
      Passes (b.directory.workspace key) A s₃ s₄ ∧
      (∃ fs, s₄.disk.find? (A ++ [storeName]) = some (.file (.json (.obj fs)))) ∧
      Course b A (b.directory.workspace key) document s₃ r s₄ ∧
      (b.run document).run s = (r, { s₄ with
        journal := { s₄.journal with file := none, console := false }, locked := s₄.locked.erase a }) := by
  obtain ⟨B, hload⟩ := h.readable
  have hprepared := prepared_of_allocated hlocked h.journal hapart hallocated
  have hnone : s₂.disk.find? (A ++ [key] ++ [logName]) = none := by
    rw [hallocated.kept _ (by simp) (by simp; decide)]
    exact hlocked.closed key _ (by simp [hallocated.free])
  rcases remainder_run hd hprepared hnone hload document with
    ⟨f, hunknown, hlog, hrun⟩ | ⟨r, s₃, s₄, hlog, hopened, hp, hpasses, hstored, hcourse, hrun⟩
  · exact .inl ⟨f, hunknown, hlog, run_of_attempt hlock (attempt_allocated hallocate hrun)⟩
  · exact .inr ⟨r, s₃, s₄, hlog, hopened, hp, hpasses, hstored, hcourse,
      run_of_attempt hlock (attempt_allocated hallocate hrun)⟩

theorem run_ran (hd : b.Discreet A) (h : Standing b A s) (document : Json) :
    ∃ r s', (b.run document).run s = (r, s') ∧ Ran b A document s r s' := by
  obtain ⟨B, hload⟩ := h.readable
  obtain ⟨rlock, s₁, hlock, hacq, hlocked⟩ := acquire_standing h
  have hjournal₁ : s₁.journal.file = none := by rw [hlocked.journal, h.journal]
  cases rlock with
  | error f =>
    refine ⟨_, s₁, run_unlocked hlock document, .unopened ⟨f, rfl⟩ ⟨f, s₁, opening_of_error hlock⟩
      (.inr ⟨?_, bound_refused h hacq hlocked⟩)⟩
    rintro ⟨-, a, t, htaken⟩
    rw [hlock] at htaken
    cases htaken
  | ok a =>
    by_cases hsame : s.disk.locate (Lock.path b.settings.root) = s.disk.locate b.pointers.path
    · obtain ⟨f, hf⟩ := load_overlaid h hsame hacq
      have hallocate := BuildDir.allocate_unreadable (b := b.directory) hlocked.ready hf
      exact ⟨_, _, run_of_attempt hlock (attempt_unallocated hallocate document),
        .unopened ⟨f, rfl⟩ ⟨f, s₁, opening_of_ok hlock hallocate⟩
          (.inl ⟨⟨hsame, a, s₁, hlock⟩, bound_of_load_error hf⟩)⟩
    · have hapart : ¬ b.Overlaid s := fun ho => hsame ho.1
      obtain ⟨-, hload₁⟩ := hlocked.kept hsame
      rcases BuildDir.allocate_run (b := b.directory) hlocked.ready hlocked.closed hjournal₁
        (hload₁.trans hload) with ⟨f, hallocate, -⟩ | ⟨key, l, s₂, hallocate, hallocated, -, -⟩
      · refine ⟨_, _, run_of_attempt hlock (attempt_unallocated hallocate document),
          .unopened ⟨f, rfl⟩ ⟨f, s₁, opening_of_ok hlock hallocate⟩ (.inr ⟨hapart, fun n => ?_⟩)⟩
        exact congrFun (Supervision.bound_congr hload₁) n
      · have hopening := opening_of_ok hlock hallocate
        rcases allocated_run hd h hlock hlocked hsame hallocate hallocated document with
          ⟨f, hunknown, hlog, hrun⟩ | ⟨r, s₃, s₄, hlog, -, hp, hpasses, -, hcourse, hrun⟩
        · exact ⟨_, _, hrun, .unlogged _ s₂ f hopening hapart hunknown hlog rfl rfl
            (prepared_of_allocated hlocked h.journal hsame hallocated)⟩
        · exact ⟨_, _, hrun, .attempted _ s₂ s₃ s₄ hopening hapart hlog hp hpasses hcourse rfl⟩

end Builder

end FlowPlan

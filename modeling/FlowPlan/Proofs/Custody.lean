import FlowPlan.Proofs.Steadiness

/-!
# In whose hands the lock is

A build that holds the lock keeps the lock and the way to it in place, whatever it does below the build
root and however it ends: whoever comes in the meantime finds the lock held. This takes units with plain
names and commands that leave the lock, the way to it and the workspace where they are. Apart from that
commands may write where they like, and the pointers may be anything.

## Main definitions

* `Disk.KeepsLock` — no directory is lost, and the lock stays a file.
* `Ground.Heeds`, `Builder.Heedful` — what a command leaves where it is, and a build whose commands do so.
* `Builder.Guarded` — the build root and its lock can be found.
* `Builder.Engaged` — an attempt is going on in a build root like this.

## Main statements

* `Builder.engaged_update` — the pointers, whatever they are.
* `Builder.engaged_supervise` — an attempt under supervision.
* `Builder.guarded_attempt` — all that a build does while it holds the lock.
-/

namespace FlowPlan

open FlowPlan.Action Site Pointers Workspace

/-! ## What leaves the lock in its place -/

/-- No directory is lost and what is new lies in one. Outside of the build root there may be other files,
but links stay, and so does the lock. -/
structure Disk.KeepsLock (A : Address) (d d' : Disk) : Prop where
  home : d'.home = d.home
  kept : ∀ a, d'.find? a = d.find? a ∨
    d.find? a ≠ some .dir ∧ (d.find? a = none → d.find? a.dropLast = some .dir) ∧
      ((∃ c, d'.find? a = some (.file c)) ∧ (∀ t, d.find? a ≠ some (.link t)) ∨
        Address.Below A a ∧ a ≠ A ++ [".lock"])

namespace Disk

variable {A a : Address} {d d' : Disk}

theorem KeepsLock.dir (h : KeepsLock A d d') (ha : d.find? a = some .dir) : d'.find? a = some .dir :=
  ((h.kept a).resolve_right fun hne => hne.1 ha).trans ha

theorem KeepsLock.isTree (h : KeepsLock A d d') (ht : d.IsTree) : d'.IsTree :=
  ht.of_changed h.home fun a => (h.kept a).imp_right fun hne => ⟨hne.1, hne.2.1⟩

theorem KeepsLock.keepsWays (h : KeepsLock A d d') : KeepsWays A d d' := by
  refine ⟨h.home, fun a e ha he hfile => ?_⟩
  rcases h.kept a with heq | ⟨hdir, -, ⟨-, hlink⟩ | ⟨hbelow, -⟩⟩
  · rw [heq, he]
  · cases e with
    | dir => exact absurd he hdir
    | file c => cases hfile
    | link t => exact absurd he (hlink t)
  · exact absurd hbelow ha

theorem KeepsLock.lock (h : KeepsLock A d d') (hl : ∃ c, d.find? (A ++ [".lock"]) = some (.file c)) :
    ∃ c, d'.find? (A ++ [".lock"]) = some (.file c) := by
  rcases h.kept (A ++ [".lock"]) with heq | ⟨-, -, ⟨hfile, -⟩ | ⟨-, hne⟩⟩
  · rwa [heq]
  · exact hfile
  · exact absurd rfl hne

/-- One entry below the build root has changed. -/
theorem keepsLock_entry (hhome : d'.home = d.home) (hkept : ∀ b, b ≠ a → d'.find? b = d.find? b)
    (hbelow : Address.Below A a) (hlock : a ≠ A ++ [".lock"]) (hdir : d.find? a ≠ some .dir)
    (hparent : d.find? a.dropLast = some .dir) : KeepsLock A d d' := by
  refine ⟨hhome, fun b => ?_⟩
  by_cases hb : b = a
  · subst hb
    exact .inr ⟨hdir, fun _ => hparent, .inr ⟨hbelow, hlock⟩⟩
  · exact .inl (hkept b hb)

theorem keepsLock_log {s s' : Site} (h : Differs (fun _ => False) s s') (A : Address) :
    KeepsLock A s.disk s'.disk := by
  refine ⟨h.home, fun a => ?_⟩
  rcases h.kept a (fun ha => ha) with heq | ⟨-, c, c', hc, hc'⟩
  · exact .inl heq
  · exact .inr ⟨by simp [hc], by simp [hc], .inl ⟨⟨c', hc'⟩, by simp [hc]⟩⟩

end Disk

/-- The path of the build root leads to it as before, the lock is a file still, and so is the workspace a
directory, in which no directory has taken the place of the record. No lock has come or gone. -/
structure Ground.Heeds (w : Workspace) (A : Address) (g g' : Ground) : Prop where
  rooted : Disk.KeepsRooted w.root A g.disk g'.disk
  tree : g.disk.IsTree → g'.disk.IsTree
  lock : (∃ c, g.disk.find? (A ++ [".lock"]) = some (.file c)) → ∃ c, g'.disk.find? (A ++ [".lock"]) = some (.file c)
  dir : g'.disk.find? (A ++ [w.key]) = some .dir
  record : g.disk.find? (A ++ [w.key] ++ [recordName]) ≠ some .dir →
    g'.disk.find? (A ++ [w.key] ++ [recordName]) ≠ some .dir
  locked : g'.locked = g.locked

/-- The command leaves the lock and the workspace in place when it is called on what is judged there. -/
def Check.Heedful (c : Check) (host : Host) (root : Path) (A : Address) : Prop :=
  ∀ w : Workspace, w.root = root → c.Leaves host w fun g g' => w.Lies A g.disk → Ground.Heeds w A g g'

theorem Check.heedful_uniform (c : Check) (p : Process) (root : Path) (A : Address) :
    c.Heedful (.uniform p) root A := by
  rintro w - words - path - g _ _ ⟨⟩ hlies
  exact ⟨.refl _ _ _, id, id, hlies.dir, id, rfl⟩

/-- Units have plain names, and commands leave the lock and the workspace in place. -/
structure Builder.Heedful (b : Builder) (A : Address) : Prop extends b.Plain where
  checks : ∀ cs, b.checks = .ok cs → ∀ c ∈ cs, c.Heedful b.host b.settings.root A

namespace Builder

/-- The build root and its lock can be found; these locks are held at this time. -/
structure Guarded (root : Path) (A : Address) (locked : List Address) (now : Instant) (s : Site) : Prop where
  ready : Ready root A s
  tree : s.disk.IsTree
  lock : ∃ c, s.disk.find? (A ++ [".lock"]) = some (.file c)
  locked : s.locked = locked
  clock : s.clock = now

/-- An attempt is going on in a workspace whose record can be written. -/
structure Engaged (w : Workspace) (A : Address) (locked : List Address) (now : Instant) (s : Site) : Prop
    extends Guarded w.root A locked now s where
  name : Path.IsName w.key ∧ Path.NulFree w.key
  dir : s.disk.find? (A ++ [w.key]) = some .dir
  record : s.disk.find? (A ++ [w.key] ++ [recordName]) ≠ some .dir

variable {root : Path} {w : Workspace} {A : Address} {locked : List Address} {now : Instant} {s s' : Site}
  {d : Disk} {n : String}

theorem Guarded.disk (h : Guarded root A locked now s) (hd : Disk.KeepsLock A s.disk d) :
    Guarded root A locked now { s with disk := d } :=
  ⟨⟨h.ready.rooted.of_keepsWays hd.keepsWays, h.ready.log⟩, hd.isTree h.tree, hd.lock h.lock, h.locked, h.clock⟩

theorem Engaged.stands (h : Engaged w A locked now s) : Stands w A s := ⟨h.ready, h.name, h.dir, h.record⟩

theorem Engaged.disk (h : Engaged w A locked now s) (hd : Disk.KeepsLock A s.disk d)
    (hrecord : d.find? (A ++ [w.key] ++ [recordName]) ≠ some .dir) :
    Engaged w A locked now { s with disk := d } :=
  ⟨h.toGuarded.disk hd, h.name, hd.dir h.dir, hrecord⟩

theorem Engaged.log (h : Engaged w A locked now s) (hd : Differs (fun _ => False) s s') :
    Engaged w A locked now s' := by
  have hkeeps := Disk.keepsLock_log hd A
  refine ⟨⟨⟨h.ready.rooted.of_keepsWays hkeeps.keepsWays, fun a ha => h.ready.log a ((hd.isLog a).1 ha)⟩,
    hkeeps.isTree h.tree, hkeeps.lock h.lock, hd.locked.trans h.locked, hd.clock.trans h.clock⟩, h.name,
    hkeeps.dir h.dir, fun hdir => h.record ((hd.sameDirs _).1 hdir)⟩

theorem Engaged.records (h : Engaged w A locked now s) (m : Assoc String Record) :
    Engaged w A locked now { s with records := m } :=
  ⟨⟨⟨h.ready.rooted, h.ready.log⟩, h.tree, h.lock, h.locked, h.clock⟩, h.name, h.dir, h.record⟩

/-! ### Entries of the build root -/

/-- An entry of the build root changes that is not the lock. -/
theorem Engaged.child (h : Engaged w A locked now s) (hn : n ≠ ".lock") (hhome : d.home = s.disk.home)
    (hkept : ∀ a, a ≠ A ++ [n] → d.find? a = s.disk.find? a) (hdir : s.disk.find? (A ++ [n]) ≠ some .dir) :
    Engaged w A locked now { s with disk := d } := by
  refine h.disk (Disk.keepsLock_entry hhome hkept (Disk.below_child A n) (by simpa using hn) hdir ?_) ?_
  · rw [List.dropLast_concat]
    exact h.ready.rooted.dir
  · rw [hkept _ (by simp)]
    exact h.record

/-! ### Entries of the workspace -/

/-- No step of the phases brings the lock out of its place. -/
theorem firm_engaged :
    Firm w A (fun g g' => w.Lies A g.disk → Ground.Heeds w A g g') (Engaged w A locked now) := by
  refine ⟨fun s hs => hs.stands, fun s s' hs hm => ?_⟩
  cases hm with
  | @entry n d home kept before after =>
    have hkeeps : Disk.KeepsLock A s.disk d := by
      refine Disk.keepsLock_entry home kept (below_grandchild A w.key n) ?_ before ?_
      · intro heq
        simpa using congrArg List.length heq
      · rw [List.dropLast_concat]
        exact hs.dir
    refine hs.disk hkeeps ?_
    by_cases hn : n = recordName
    · exact hn ▸ after
    · rw [kept _ (by simpa using Ne.symm hn)]
      exact hs.record
  | log differs => exact hs.log differs
  | command changes =>
    have hheeds := changes hs.stands.lies
    exact ⟨⟨hs.ready.of_keepsRooted hheeds.rooted rfl, hheeds.tree hs.tree, hheeds.lock hs.lock,
      hheeds.locked.trans hs.locked, hs.clock⟩, hs.name, hheeds.dir, hheeds.record hs.record⟩
  | listing status => exact hs.records _

/-! ## The pointers -/

theorem ne_lock_of_alias : ∀ n ∈ aliases, n ≠ ".lock" ∧ Path.temporary n ≠ ".lock" := by decide

theorem ne_lock_of_isReserved (h : IsReserved n) : n ≠ ".lock" := by
  rcases h with rfl | ⟨m, hm, heq | heq⟩
  · decide
  · exact heq ▸ (ne_lock_of_alias m hm).1
  · exact heq ▸ (ne_lock_of_alias m hm).2

theorem indifferent_engaged : Indifferent w.root A (Engaged w A locked now) where
  ready _ hs := hs.ready
  log _ _ hs hd := hs.log hd
  entry _ _ _ hs hn hhome hkept hdir := hs.child (ne_lock_of_isReserved hn) hhome hkept hdir

/-- The pointers are updated, or cannot be. -/
theorem engaged_update (links : Bool) (changes : Bindings) (hal : ∀ c ∈ changes, c.1 ∈ aliases) :
    Upholds (Engaged w A locked now) (Pointers.update ⟨w.root, links⟩ changes) :=
  indifferent_engaged.update links changes hal

/-! ## Attempts -/

section Attempt

variable {b : Builder} (hroot : b.directory.root = w.root)
include hroot

theorem survives_engaged : (b.supervision w).Survives (Engaged w A locked now) where
  report r := (Session.keeps_report (fun _ _ hs hd => hs.log hd) r).upholds
  changeRecord _ := (keeps_modify fun _ hs => hs.records _).upholds
  saveRecord :=
    ((keeps_look _).bind fun _ => moves_writeJson isName_recordName.1 _ _ firm_engaged).upholds
  excerpt _ := (keeps_modify fun _ hs =>
    ⟨⟨⟨hs.ready.rooted, hs.ready.log⟩, hs.tree, hs.lock, hs.locked, hs.clock⟩, hs.name, hs.dir, hs.record⟩).upholds
  update changes h := by
    have hal : ∀ n ∈ [latest, running, Pointers.aborted], n ∈ aliases := by decide
    rw [show (b.supervision w).directory.pointers = _ from pointers_eq hroot]
    exact engaged_update _ changes fun c hc => hal _ (h c hc)

theorem engaged_promoted (j : Judged) : Upholds (Engaged w A locked now) (b.promoted w j) := by
  have hset : ∀ n ∈ aliases, ∀ v, Upholds (Engaged w A locked now) (b.directory.pointers.set n v) := by
    intro n hn v
    rw [pointers_eq hroot]
    exact (engaged_update _ [(n, v)] (by simpa using hn)).discard
  have hpromote : Upholds (Engaged w A locked now) (b.directory.pointers.promote (.str w.key)) := by
    refine (Supervision.upholds_get _ _).bind fun previous => ?_
    have hend := (hset Pointers.compiled (by decide) (.str w.key)).bind fun _ =>
      Supervision.upholds_pure previous
    dsimp only
    split
    · exact (hset compiledBackup (by decide) previous).bind fun _ => hend
    · exact hend
  refine (hpromote.bind fun _ => ((survives_engaged hroot).report _).bind fun _ =>
    Supervision.upholds_pure _).bind fun _ => ?_
  exact (keeps_look _).upholds.bind fun _ => Supervision.upholds_pure _

omit hroot in
/-- The steps of the phases up to the promotion leave the lock in its place. -/
theorem moves_heedful (h : b.Heedful A) (hroot : w.root = b.settings.root) (document : Json) :
    Moves w A (fun g g' => w.Lies A g.disk → Ground.Heeds w A g g') (b.judged document w) :=
  moves_judged h.toPlain (fun cs hcs c hc => h.checks cs hcs c hc w hroot) document

/-- An attempt under supervision, with units of plain names and heedful commands. -/
theorem engaged_supervise (h : b.Heedful A) (document : Json) : Upholds (Engaged w A locked now)
    ((b.supervision w).supervise (b.phases document w)) := by
  have hjudged : Keeps (Engaged w A locked now) (b.judged document w) :=
    moves_heedful h hroot.symm document _ firm_engaged
  rw [phases_eq]
  exact (survives_engaged hroot).supervise (hjudged.upholds.bind fun j => engaged_promoted hroot j)

end Attempt

/-! ## What a build does while it holds the lock -/

variable {b : Builder} {e : BuildDir} {key : String} {t : Site}

theorem Guarded.claimed (h : Guarded e.root A locked now s) (hname : Key.IsKeyName key)
    (hnone : s.disk.find? (A ++ [key]) = none) :
    Engaged (e.workspace key) A locked now { s with disk := s.disk.set (A ++ [key]) .dir } := by
  have hdir : (s.disk.set (A ++ [key]) .dir).find? (A ++ [key]) = some .dir := by
    rw [Disk.find?_set_child, if_pos rfl]
  have hkeeps : Disk.KeepsLock A s.disk (s.disk.set (A ++ [key]) .dir) := by
    refine Disk.keepsLock_entry rfl (fun a ha => ?_) (Disk.below_child A key) ?_ (by simp [hnone]) ?_
    · rw [Disk.find?_set_child, if_neg (Ne.symm ha)]
    · simpa using hname.ne (by decide)
    · rw [List.dropLast_concat]
      exact h.ready.rooted.dir
  refine ⟨h.disk hkeeps, hname.isName, hdir, ?_⟩
  change (s.disk.set (A ++ [key]) .dir).find? (A ++ [key] ++ [recordName]) ≠ some .dir
  rw [Disk.find?_set_child, if_neg (by simp), h.tree.closed A key recordName (by simp [hnone])]
  simp

/-- Who has taken the lock can find it again. -/
theorem guarded_of_acquired (hr : Disk.Rooted Disk.maxLinks s.disk root A) (hj : s.journal.file = none)
    (ht : s.disk.IsTree) (hacq : Lock.Acquired root s (.ok (A ++ [".lock"])) t) :
    Guarded root A ((A ++ [".lock"]) :: s.locked) s.clock t := by
  have hrooted : Disk.Rooted Disk.maxLinks t.disk root A ∧ t.disk.IsTree := by
    rcases hacq.disk with hdisk | ⟨a, -, hwrote⟩
    · rw [hdisk]
      exact ⟨hr, ht⟩
    · exact ⟨hr.of_keepsWays (hwrote.grows.keepsWays A), hwrote.isTree ht⟩
  exact ⟨ready_of_journal hrooted.1 (by rw [hacq.journal, hj]), hrooted.2, ⟨_, (hacq.marked _ rfl).2⟩,
    hacq.locked _ rfl, hacq.clock⟩

/-- What an allocation leaves: a workspace without a log, or nothing at all. -/
structure Opens (e : BuildDir) (A : Address) (locked : List Address) (now : Instant) (s : Site)
    (r : Except Fault Workspace) (t : Site) : Prop where
  journal : t.journal = s.journal
  root : ∀ w, r = .ok w → e.root = w.root
  engaged : ∀ w, r = .ok w → Engaged w A locked now t
  unlogged : ∀ w, r = .ok w → t.disk.find? (A ++ [w.key] ++ [logName]) = none

/-- A key is claimed, if there is one, and the record of the attempt is started. -/
theorem guarded_claim (h : Guarded e.root A locked now s) (hj : s.journal.file = none) (l : Option String) :
    let a : Session Workspace := do
      let key ← e.claim l
      let w := e.workspace key
      w.setRecord (Record.start key (← Session.now))
      w.saveRecord
      Session.debug Pointers.logger s!"Allocated workspace {key}"
      return w
    Always (Guarded e.root A locked now) a s ∧ ∃ r t, a.run s = (r, t) ∧ Opens e A locked now s r t := by
  have hclosed := h.tree.closed A
  rcases BuildDir.claim_run h.ready.rooted l with ⟨-, hclaim⟩ | ⟨key, -, hname, hnone, hclaim⟩
  · refine ⟨Always.bind_error (always_atomic h ?_) hclaim, _, s, run_bind_error hclaim,
      rfl, by simp, by simp, by simp⟩
    exact (congrArg Prod.snd hclaim) ▸ h
  have hclaimed := h.claimed hname hnone
  obtain ⟨t, hstart, hallocated⟩ := BuildDir.start_run h.ready hclosed hj hname hnone
  -- What follows stays within the new workspace.
  have hrest : Always (Engaged (e.workspace key) A locked now) (do
      (e.workspace key).setRecord (Record.start key (← Session.now))
      (e.workspace key).saveRecord
      Session.debug Pointers.logger s!"Allocated workspace {key}"
      return e.workspace key : Session Workspace) _ :=
    ((keeps_look _).bind fun _ => (keeps_modify fun _ hs => hs.records _).bind fun _ =>
      ((keeps_look _).bind fun _ => moves_writeJson isName_recordName.1 _ _ firm_engaged).bind fun _ =>
      (Session.keeps_report (fun _ _ hs hd => hs.log hd) _).bind fun _ => keeps_pure _).always hclaimed
  refine ⟨Always.bind_ok (always_atomic h ?_) hclaim (hrest.mono fun t ht => ht.toGuarded), _, t,
    (run_bind_ok hclaim).trans hstart, hallocated.journal, ?_, ?_, ?_⟩
  · exact (congrArg Prod.snd hclaim) ▸ hclaimed.toGuarded
  · rintro w ⟨⟩
    rfl
  · rintro w ⟨⟩
    have hend := hrest.run
    rwa [hstart] at hend
  · rintro w ⟨⟩
    change t.disk.find? (A ++ [key] ++ [logName]) = none
    rw [hallocated.kept _ (by simp) (by simp; decide), hclosed key _ (by simp [hallocated.free])]

theorem guarded_allocate (h : Guarded e.root A locked now s) (hj : s.journal.file = none) :
    Always (Guarded e.root A locked now) e.allocate s ∧
      ∃ r t, e.allocate.run s = (r, t) ∧ Opens e A locked now s r t := by
  have hmake := Session.makeDirs_run h.ready.rooted
  have hmakes := Session.always_makeDirs h.ready.rooted h
  have hgets := get_always e.pointers latest s
  have hnothing : ∀ f, Opens e A locked now s (.error f) s := fun f =>
    ⟨rfl, by simp, by simp, by simp⟩
  obtain ⟨⟨r, s'⟩, hget⟩ : ∃ x, (e.pointers.get latest).run s = x := ⟨_, rfl⟩
  obtain rfl : s' = s := by
    have hend := hgets.run
    rwa [hget] at hend
  replace hgets : Always (Guarded e.root A locked now) (e.pointers.get latest) s' :=
    hgets.mono (by rintro t rfl; exact h)
  unfold BuildDir.allocate
  cases r with
  | error f =>
    exact ⟨hmakes.bind_ok hmake (hgets.bind_error hget), _, _,
      (run_bind_ok hmake).trans (run_bind_error hget), hnothing f⟩
  | ok v =>
    cases hlatest : BuildDir.latestKey v with
    | error f =>
      refine ⟨hmakes.bind_ok hmake (hgets.bind_ok hget ?_), _, _,
        (run_bind_ok hmake).trans ((run_bind_ok hget).trans ?_), hnothing f⟩
      · rw [hlatest]
        exact h
      · rw [hlatest]
        rfl
    | ok l =>
      obtain ⟨halways, r, t, hrun, hopens⟩ := guarded_claim h hj l
      refine ⟨hmakes.bind_ok hmake (hgets.bind_ok hget ?_), r, t,
        (run_bind_ok hmake).trans ((run_bind_ok hget).trans ?_), hopens⟩
      · rw [hlatest, Action.lift_ok_bind]
        exact halways
      · rw [hlatest, Action.lift_ok_bind]
        exact hrun

/-- The log of a new workspace is opened, if its severity is known. -/
theorem engaged_openLog (h : Engaged w A locked now s)
    (hnone : s.disk.find? (A ++ [w.key] ++ [logName]) = none) (severity : String) (style : LogStyle)
    (console : Bool) : Always (Engaged w A locked now) (Session.openLog w.logPath severity style console) s := by
  have hrooted := h.stands.rooted
  have hparent : w.logPath.parent = w.path := Path.parent_child w.path isName_logName.1
  have hunlogged : ∀ (t : Site) (threshold : Severity), Engaged w A locked now t →
      Engaged w A locked now { t with journal := ⟨threshold, none, false⟩ } := fun t _ ht =>
    ⟨⟨ready_of_journal ht.ready.rooted rfl, ht.tree, ht.lock, ht.locked, ht.clock⟩, ht.name, ht.dir, ht.record⟩
  unfold Session.openLog
  rw [hparent]
  refine (Session.always_makeDirs hrooted h).bind_ok (Session.makeDirs_run hrooted) ?_
  cases Session.thresholdOf (Text.upper severity) with
  | error f => exact h
  | ok threshold =>
    rw [Action.lift_ok_bind]
    have h₁ := hunlogged s threshold h
    refine Always.bind ⟨h, h₁⟩ fun _ s₁ hrun₁ => ?_
    obtain rfl : _ = s₁ := congrArg Prod.snd hrun₁
    have htouch := hrooted.touch isName_logName.1 isName_logName.2 hnone
    obtain ⟨d, hd⟩ : ∃ d, d = s.disk.set (A ++ [w.key] ++ [logName]) (.file (.text "")) := ⟨_, rfl⟩
    have hfind : d.find? (A ++ [w.key] ++ [logName]) = some (.file (.text "")) := by
      rw [hd, Disk.find?_set_child, if_pos rfl]
    have h₂ : Engaged w A locked now { s with disk := d, journal := ⟨threshold, none, false⟩ } := by
      subst hd
      exact firm_engaged.move _ _ h₁ (move_set (by rw [hnone]; simp) (by simp))
    refine Always.bind (Session.always_write h₁ fun d' hd' => ?_) fun _ s₂ hrun₂ => ?_
    · cases (hd ▸ htouch).symm.trans hd'
      exact h₂
    obtain ⟨d', hd', rfl⟩ := Session.of_run_write hrun₂
    cases (hd ▸ htouch).symm.trans hd'
    refine Always.bind ⟨h₂, h₂⟩ fun a s₃ hrun₃ => ?_
    obtain ⟨haddress, rfl⟩ := Prod.mk.inj hrun₃
    have hlog : d.address w.logPath = .ok (A ++ [w.key] ++ [logName]) :=
      h₂.stands.rooted.address_child isName_logName.1 isName_logName.2 fun _ t ht => by
        rw [hfind] at ht
        cases ht
    obtain rfl : A ++ [w.key] ++ [logName] = a := Except.ok.inj (hlog.symm.trans haddress)
    refine ⟨h₂, ⟨⟨h₂.ready.rooted, ?_⟩, h₂.tree, h₂.lock, h₂.locked, h₂.clock⟩, h₂.name, h₂.dir, h₂.record⟩
    rintro _ ⟨_, ⟨⟩⟩
    exact ⟨w.key, rfl⟩

/-- What is left once there is a workspace keeps the lock in its place as well, and closes the log. -/
theorem engaged_remainder (hroot : b.directory.root = w.root) (hheedful : b.Heedful A) (h : Engaged w A locked now s)
    (hnone : s.disk.find? (A ++ [w.key] ++ [logName]) = none) (hj : s.journal.file = none) (document : Json) :
    Always (Engaged w A locked now) (b.remainder document w) s ∧
      ((b.remainder document w).run s).2.journal.file = none := by
  have hlog := engaged_openLog h hnone b.settings.logLevel b.style !b.quiet
  unfold remainder
  rcases openLog_run h.stands hnone b.settings.logLevel b.style !b.quiet with
    ⟨f, -, hrun⟩ | ⟨s₁, hrun, -⟩
  · refine ⟨hlog.bind_error hrun, ?_⟩
    rw [run_bind_error hrun]
    exact hj
  have h₁ : Engaged w A locked now s₁ := by
    have hend := hlog.run
    rwa [hrun] at hend
  have hsupervise := engaged_supervise hroot hheedful document s₁ h₁
  obtain ⟨⟨r, s₂⟩, hrun₂⟩ : ∃ x, ((b.supervision w).supervise (b.phases document w)).run s₁ = x := ⟨_, rfl⟩
  have h₂ : Engaged w A locked now s₂ := by
    have hend := hsupervise.run
    rwa [hrun₂] at hend
  refine ⟨hlog.bind_ok hrun (hsupervise.ensuring hrun₂ ⟨h₂, ?_⟩), ?_⟩
  · exact ⟨⟨ready_of_journal h₂.ready.rooted rfl, h₂.tree, h₂.lock, h₂.locked, h₂.clock⟩, h₂.name, h₂.dir, h₂.record⟩
  · rw [run_bind_ok hrun, run_ensuring, hrun₂]
    rfl

/-- While a build holds the lock it keeps the lock in its place, and then no log is open any more. -/
theorem guarded_attempt (hheedful : b.Heedful A) (h : Guarded b.settings.root A locked now s)
    (hj : s.journal.file = none) (document : Json) :
    Always (Guarded b.settings.root A locked now) (b.attempt document) s ∧
      ((b.attempt document).run s).2.journal.file = none := by
  obtain ⟨halways, r, t, hrun, hopens⟩ := guarded_allocate (e := b.directory) h hj
  have hj' : t.journal.file = none := by rw [hopens.journal, hj]
  cases r with
  | error f =>
    refine ⟨halways.bind_error hrun, ?_⟩
    rw [attempt_unallocated hrun document]
    exact hj'
  | ok w =>
    have hroot := hopens.root w rfl
    obtain ⟨hremainder, hclosed⟩ :=
      engaged_remainder hroot hheedful (hopens.engaged w rfl) (hopens.unlogged w rfl) hj' document
    obtain ⟨⟨r, u⟩, hended⟩ : ∃ x, (b.remainder document w).run t = x := ⟨_, rfl⟩
    rw [hended] at hclosed
    refine ⟨halways.bind_ok hrun (hremainder.mono fun u hu => ?_), ?_⟩
    · rw [hroot]
      exact hu.toGuarded
    · rw [attempt_allocated hrun hended]
      exact hclosed

end Builder

end FlowPlan

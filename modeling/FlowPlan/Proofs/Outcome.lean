import FlowPlan.Proofs.Build
import FlowPlan.Proofs.Standard

/-!
# What an outcome leaves

A build that fails leaves the compiled key and its backup alone unless its promotion has rebound one
of them before a link could not be made, and it leaves evidence unless one of the first links, or the
link of the failure, could not be made.

## Main definitions

* `Builder.Found` — a build root with any content.
* `Builder.approach` — a build up to its promotion.
* `Pointers.Displaces` — a promotion that rebinds an alias and fails.
* `Builder.Evident` — what an outcome has to leave.

## Main statements

* `Builder.failed_keeps_compiled_iff` — when a failure keeps the compiled key and its backup.
* `Builder.evident_iff` — when an outcome leaves evidence.
-/

namespace FlowPlan

open FlowPlan.Action Site Pointers Workspace Supervision

namespace Pointers

variable {p : Pointers} {d : Disk} {A : Address} {key : String}

/-- The promotion of a key ends with the backup, whose link cannot be made. -/
def Stops (p : Pointers) (d : Disk) (A : Address) (key : String) : Prop :=
  p.Supersedes d key ∧ p.Blocked d A (compiledBackup, p.previous d)

/-- The promotion of a key rebinds an alias whose link cannot be made. -/
def Displaces (p : Pointers) (d : Disk) (A : Address) (key : String) : Prop :=
  p.Stops d A key ∧ p.bound d compiledBackup ≠ some (p.previous d) ∨
    ¬ p.Stops d A key ∧ p.Blocked d A (compiled, .str key) ∧ p.bound d compiled ≠ some (.str key)

/-- The link of a key fails only over a directory. -/
theorem blocked_key (h : Key.IsKeyName key) (n : String) :
    p.Blocked d A (n, .str key) ↔ p.links = true ∧ ¬ d.Clear A n := blocked_name h.isName n

theorem stops_congr {d' : Disk} (hbound : ∀ n ∈ [compiled, compiledBackup], p.bound d' n = p.bound d n)
    (hblocked : ∀ c, c.1 ∈ aliases → (p.Blocked d' A c ↔ p.Blocked d A c)) :
    p.Stops d' A key ↔ p.Stops d A key := by
  unfold Stops Supersedes previous
  rw [hbound compiled (by simp), hblocked _ (by simp [aliases])]

theorem displaces_congr {d' : Disk}
    (hbound : ∀ n ∈ [compiled, compiledBackup], p.bound d' n = p.bound d n)
    (hblocked : ∀ c, c.1 ∈ aliases → (p.Blocked d' A c ↔ p.Blocked d A c)) :
    p.Displaces d' A key ↔ p.Displaces d A key := by
  unfold Displaces
  rw [stops_congr hbound hblocked, hblocked _ (by simp [aliases]), hbound compiled (by simp),
    hbound compiledBackup (by simp), previous, previous, hbound compiled (by simp)]

theorem sortKeys_previous (p : Pointers) (d : Disk) : (p.previous d).sortKeys = p.previous d := by
  unfold previous bound
  split
  · cases Assoc.find? _ compiled with
    | none => rfl
    | some v => exact Json.sortKeys_sortKeys v
  · rfl

variable {s s' : Site} {f : Fault}

/-- A promotion that ends with the backup has bound it, and nothing else. -/
theorem Promoted.of_stops (h : Promoted p A key s (.error f : Except Fault Unit) s')
    (hstops : p.Stops s.disk A key) : p.bound s'.disk compiled = p.bound s.disk compiled ∧
      p.bound s'.disk compiledBackup = some (p.previous s.disk) := by
  rw [h.stopped hstops.1 hstops.2]
  refine ⟨rebound_of_ne _ (by decide) _, (if_pos rfl).trans ?_⟩
  rw [Json.toOption_of_ne_null hstops.1.1, Option.map_some, sortKeys_previous]

/-- A promotion that fails after the backup has bound the compiled key. -/
theorem Promoted.of_not_stops (h : Promoted p A key s (.error f : Except Fault Unit) s')
    (hstops : ¬ p.Stops s.disk A key) : p.Blocked s.disk A (compiled, .str key) ∧
      p.bound s'.disk compiled = some (.str key) ∧
      (¬ p.Supersedes s.disk key → p.bound s'.disk compiledBackup = p.bound s.disk compiledBackup) := by
  refine ⟨Classical.byContradiction fun hnb => ?_, ?_, fun hsup => ?_⟩
  · obtain ⟨x, hx⟩ := h.ok.2 ⟨fun hsup hb => hstops ⟨hsup, hb⟩, hnb⟩
    cases hx
  · by_cases hsup : p.Supersedes s.disk key
    · rw [h.moved hsup fun hb => hstops ⟨hsup, hb⟩]
      exact rebound_str _ _ _
    · rw [h.first hsup]
      exact rebound_str _ _ _
  · rw [h.first hsup]
    exact rebound_of_ne _ (by decide) _

/-- A promotion that fails keeps the bindings unless it displaces one. -/
theorem Promoted.kept_iff (h : Promoted p A key s (.error f : Except Fault Unit) s') :
    (∀ n ∈ [compiled, compiledBackup], p.bound s'.disk n = p.bound s.disk n) ↔
      ¬ p.Displaces s.disk A key := by
  simp only [List.forall_mem_cons, List.not_mem_nil, false_implies, implies_true, and_true]
  unfold Displaces
  by_cases hstops : p.Stops s.disk A key
  · obtain ⟨hcompiled, hbackup⟩ := h.of_stops hstops
    rw [hcompiled, hbackup]
    simp [hstops, eq_comm]
  · obtain ⟨hblocked, hcompiled, hbackup⟩ := h.of_not_stops hstops
    rw [hcompiled]
    constructor
    · rintro ⟨hsame, -⟩
      simp [hstops, hsame]
    · intro hnot
      have hsame : p.bound s.disk compiled = some (.str key) := by
        simpa [hstops, hblocked] using hnot
      refine ⟨hsame.symm, hbackup fun hsup => hsup.2 ?_⟩
      simp [previous, hsame]

end Pointers

namespace Builder

variable {b : Builder} {A : Address} {document : Json} {w : Workspace} {r : Except Fault Built}
  {s s' s₁ s₂ s₃ : Site}

/-- A build root with any content: it is a directory of a tree, no log is open, and the pointers, if
there are any, can be read. -/
structure Found (b : Builder) (A : Address) (s : Site) : Prop where
  tree : s.disk.IsTree
  rooted : Disk.Rooted Disk.maxLinks s.disk b.settings.root A
  journal : s.journal.file = none
  readable : ∃ B, b.pointers.load s.disk = .ok B
  settled : Settled b.pointers A s.disk

theorem Found.standing (h : Found b A s) : Standing b A s :=
  ⟨h.rooted, h.tree.closed A, h.journal, fun _ => h.tree.locate, h.readable, h.settled⟩

/-! ## An obstructed build root -/

/-- The build of a project with one stage of this name that changes nothing, and with these commands, all of
which succeed and do nothing else. -/
def lone (stage : String) (commands : Assoc String CommandSettings) : Builder where
  settings := { Settings.standard ⟨"/", ["p"]⟩ with logLevel := "ERROR", commands := commands }
  catalogs :=
    { stages := ⟨"stage", [(stage, ⟨stage, "FunctionStage", .raw, .raw, "", .ok, fun _ => none⟩)]⟩
      generators := .empty "generator"
      checks := .empty "check" }
  host := .uniform ⟨[], [], .exited 0⟩
  quiet := true
  wait := false

theorem plain_lone {commands : Assoc String CommandSettings} : (lone "5.00" commands).Plain := by
  refine plain_of_entries ?_ (by simp [lone, Catalog.empty])
  simp only [lone, List.forall_mem_singleton]
  decide

theorem discreet_lone {commands : Assoc String CommandSettings} : (lone "5.00" commands).Discreet A :=
  ⟨plain_lone, fun _ _ c _ => c.discreet_uniform _ _ A⟩

/-- A site with a build root that holds only a directory of this name, which is not empty. -/
def obstructed (name : String) : Site :=
  .ofDisk ⟨[(["/"], .dir), (["/", "p"], .dir), (["/", "p", "run"], .dir),
    (["/", "p", "run", name], .dir), (["/", "p", "run", name, "x"], .file (.text ""))], []⟩
    ⟨2024, 3, 1, 10, 0, 0, 0, none⟩

theorem found_obstructed {name : String} (hname : name ∈ aliases) :
    Found (lone "5.00" []) ["/", "p", "run"] (obstructed name) := by
  have hdirs : ∀ name ∈ aliases, ∀ k ≤ 3,
      (obstructed name).disk.find? (["/", "p", "run"].take k) = some .dir := by decide +kernel
  have hnone : ∀ name ∈ aliases,
      (obstructed name).disk.find? (["/", "p", "run"] ++ [storeName]) = none := by decide +kernel
  have htree : ∀ name ∈ aliases, ∀ x ∈ (obstructed name).disk.entries,
      (obstructed name).disk.find? x.1.dropLast = some .dir := by decide +kernel
  have hrooted : Disk.Rooted Disk.maxLinks (obstructed name).disk (lone "5.00" []).settings.root
      ["/", "p", "run"] :=
    .of_dirs _ (by unfold Path.Clean; decide +kernel) rfl (by decide +kernel) (hdirs name hname)
  have hlocate := hrooted.locate_child (l := true) isName_storeName.1 fun _ t => by
    rw [hnone name hname]
    simp
  exact ⟨.of_entries (htree name hname) rfl, hrooted, rfl,
    ⟨[], load_of_absent hrooted (hnone name hname)⟩, ⟨_, hlocate, .inr rfl⟩⟩

/-! ## The compiled key -/

/-- An attempt up to its promotion. -/
def trial (b : Builder) (document : Json) (w : Workspace) : Session Workspace := do
  (b.supervision w).enter
  discard (b.judged document w)
  return w

/-- A build up to its promotion. -/
def approach (b : Builder) (document : Json) : Session Workspace := do
  let w ← b.opening
  Session.openLog w.logPath b.settings.logLevel b.style !b.quiet
  b.trial document w

theorem of_trial {w' : Workspace} (h : (b.trial document w).run s = (.ok w', s')) : w' = w := by
  obtain ⟨_, _, -, h⟩ := of_run_bind_ok h
  obtain ⟨_, _, -, h⟩ := of_run_bind_ok h
  cases h
  rfl

theorem Prepared.stops (h : Prepared b A w s s') :
    b.pointers.Stops s'.disk A w.key ↔ b.pointers.Stops s.disk A w.key :=
  stops_congr (fun n _ => congrFun h.bound n) fun _ hal => h.blocked hal

theorem Prepared.displaces (h : Prepared b A w s s') :
    b.pointers.Displaces s'.disk A w.key ↔ b.pointers.Displaces s.disk A w.key :=
  displaces_congr (fun n _ => congrFun h.bound n) fun _ hal => h.blocked hal

/-- The lock has erased a binding of the compiled key or of its backup. -/
def Erases (b : Builder) (s : Site) : Prop :=
  b.Overlaid s ∧ ∃ n ∈ [compiled, compiledBackup], b.pointers.bound s.disk n ≠ none

theorem entered_compiled {f : String → Option Json} {key : String} :
    ∀ n ∈ [compiled, compiledBackup], entered f key n = f n := by
  intro n hn
  have hne : latest ≠ n ∧ running ≠ n := by
    revert n
    decide
  rw [entered, rebound_of_ne _ hne.2, rebound_of_ne _ hne.1]

theorem failed_compiled {f : Fault} (h : Failed (b.supervision w) f A s s') :
    ∀ n ∈ [compiled, compiledBackup], b.pointers.bound s'.disk n = b.pointers.bound s.disk n := by
  intro n hn
  have hne : aborted ≠ n ∧ n ≠ running := by
    revert n
    decide
  by_cases hb : b.pointers.Blocked s.disk A (aborted, .str w.key)
  · exact (congrFun (h.blocked hb) n).trans (rebound_of_ne _ hne.1 _)
  · exact (congrFun (h.shown hb) n).trans
      ((released_other _ _ hne.2).trans (rebound_of_ne _ hne.1 _))

/-- The links of an attempt are as they were at its start. -/
theorem blocked_of_passes {p : Pointers} (hpass : Passes w A s s') (hfailed : Passes w A s₃ s')
    (hdirs : s₂.disk.SameDirs s₃.disk) (change : String × Json) (_ : change.1 ∈ aliases) :
    p.Blocked s₂.disk A change ↔ p.Blocked s.disk A change := by
  rw [← hpass.blocked, hfailed.blocked, blocked_congr hdirs]

/-- A failed attempt keeps the compiled key and its backup unless its promotion displaces one. -/
theorem Course.kept_iff (hc : Course b A w document s r s') (hpass : Passes w A s s')
    (herror : ∃ f, r = .error f) :
    (∀ n ∈ [compiled, compiledBackup], b.pointers.bound s'.disk n = b.pointers.bound s.disk n) ↔
      ¬ ((∃ t, (b.trial document w).run s = (.ok w, t)) ∧ b.pointers.Displaces s.disk A w.key) := by
  cases hc with
  | unentered _ enter _ _ bound =>
    obtain ⟨f, s₁, henter⟩ := enter
    have htrial : (b.trial document w).run s = (.error f, s₁) := run_bind_error henter
    have hnot : ¬ ∃ t, (b.trial document w).run s = (.ok w, t) := by simp [htrial]
    rw [bound]
    exact iff_of_true entered_compiled fun h => hnot h.1
  | rejected s₁ s₂ f _ enter judged _ bound failed =>
    have htrial : (b.trial document w).run s = (.error f, s₂) :=
      (run_bind_ok enter).trans (run_bind_error (run_bind_error judged))
    have hnot : ¬ ∃ t, (b.trial document w).run s = (.ok w, t) := by simp [htrial]
    refine iff_of_true (fun n hn => ?_) fun h => hnot h.1
    exact (failed_compiled failed n hn).trans ((congrFun bound n).trans (entered_compiled n hn))
  | unpromoted s₁ s₂ s₃ j f _ enter judged _ bound promoted failed =>
    have htrial : ∃ t, (b.trial document w).run s = (.ok w, t) :=
      ⟨s₂, (run_bind_ok enter).trans (run_bind_ok (x := ()) (run_bind_ok judged))⟩
    have hbound : ∀ n ∈ [compiled, compiledBackup],
        b.pointers.bound s₂.disk n = b.pointers.bound s.disk n :=
      fun n hn => (congrFun bound n).trans (entered_compiled n hn)
    rw [and_iff_right htrial,
      ← displaces_congr hbound (blocked_of_passes hpass failed.passes promoted.sameDirs),
      ← promoted.kept_iff]
    refine forall_congr' fun n => forall_congr' fun hn => ?_
    rw [failed_compiled failed n hn, hbound n hn]
  | completed _ _ _ _ built _ _ _ ok =>
    obtain ⟨f, hf⟩ := herror
    rw [ok] at hf
    cases hf

theorem status_of_record {status : String} (hs : Stands w A s)
    (h : ∃ rec, Records w A s.disk rec ∧ rec.status = .str status) :
    w.status? s.disk = some (.str status) := by
  obtain ⟨rec, hrec, hstatus⟩ := h
  rw [status?_of_record hs hrec, hstatus]
  rfl

/-- An attempt whose promotion displaces a binding is aborted, unless it cannot even begin. -/
theorem Course.aborted_of_displaces (hc : Course b A w document s r s') (hpass : Passes w A s s')
    (hs : Stands w A s') (h : b.pointers.Displaces s.disk A w.key) (hentry : ¬ b.EntryBlocked s.disk A w.key) :
    (∃ f, r = .error f) ∧ w.status? s'.disk = some (.str Record.aborted) := by
  cases hc with
  | unentered blocked => exact absurd blocked hentry
  | rejected _ _ _ _ _ _ error _ failed => exact ⟨error, status_of_record hs failed.ended.status⟩
  | unpromoted _ _ _ _ _ _ _ _ error _ _ failed => exact ⟨error, status_of_record hs failed.ended.status⟩
  | completed s₁ s₂ s₃ j built _ _ _ _ _ bound promoted _ _ passes =>
    have hbound : ∀ n ∈ [compiled, compiledBackup],
        b.pointers.bound s₂.disk n = b.pointers.bound s.disk n :=
      fun n hn => (congrFun bound n).trans (entered_compiled n hn)
    obtain ⟨hbackup, hcompiled⟩ := promoted.ok.1 ⟨(), rfl⟩
    rw [← displaces_congr hbound (blocked_of_passes hpass passes promoted.sameDirs)] at h
    rcases h with ⟨⟨hsup, hblocked⟩, -⟩ | ⟨-, hblocked, -⟩
    · exact absurd hblocked (hbackup hsup)
    · exact absurd hblocked hcompiled

/-- The compiled key of an attempt that is aborted. -/
theorem Course.compiled_iff (hc : Course b A w document s r s') (hpass : Passes w A s s')
    (hs : Stands w A s') (haborted : w.status? s'.disk = some (.str Record.aborted)) :
    b.pointers.bound s'.disk compiled = some (.str w.key) ↔
      b.pointers.bound s.disk compiled = some (.str w.key) ∨
        (∃ t, (b.trial document w).run s = (.ok w, t)) ∧ ¬ b.pointers.Stops s.disk A w.key := by
  cases hc with
  | unentered _ _ _ record =>
    simp [status_of_record hs record, Record.running, Record.aborted] at haborted
  | rejected s₁ s₂ f _ enter judged _ bound failed =>
    have htrial : (b.trial document w).run s = (.error f, s₂) :=
      (run_bind_ok enter).trans (run_bind_error (run_bind_error judged))
    rw [failed_compiled failed _ (by simp), bound, entered_compiled _ (by simp)]
    simp [htrial]
  | unpromoted s₁ s₂ s₃ j f _ enter judged _ bound promoted failed =>
    have htrial : ∃ t, (b.trial document w).run s = (.ok w, t) :=
      ⟨s₂, (run_bind_ok enter).trans (run_bind_ok (x := ()) (run_bind_ok judged))⟩
    have hbound : ∀ n ∈ [compiled, compiledBackup],
        b.pointers.bound s₂.disk n = b.pointers.bound s.disk n :=
      fun n hn => (congrFun bound n).trans (entered_compiled n hn)
    rw [failed_compiled failed _ (by simp), and_iff_right htrial, ← hbound _ (by simp),
      ← stops_congr hbound (blocked_of_passes hpass failed.passes promoted.sameDirs)]
    by_cases hstops : b.pointers.Stops s₂.disk A w.key
    · simp [(promoted.of_stops hstops).1, hstops]
    · simp [(promoted.of_not_stops hstops).2.1, hstops]
  | completed _ _ _ _ _ _ _ _ _ _ _ _ ended =>
    simp [status_of_record hs ended.status, Record.completed, Record.aborted] at haborted

/-- A failed build keeps the compiled key and its backup, unless the lock has erased them or the
promotion has displaced one. An aborted key is the compiled one only if it was before or has
displaced it. -/
theorem failed_keeps_compiled_iff (hd : b.Discreet A) (h : Found b A s) {f : Fault}
    (hrun : (b.run document).run s = (.error f, s')) :
    ((∀ n ∈ [compiled, compiledBackup], b.pointers.bound s'.disk n = b.pointers.bound s.disk n) ↔
      ¬ b.Erases s ∧ ¬ ∃ w t, (b.approach document).run s = (.ok w, t) ∧
        b.pointers.Displaces s.disk A w.key) ∧
    ∀ w t, b.opening.run s = (.ok w, t) → w.status? s'.disk = some (.str Record.aborted) →
      (b.pointers.bound s'.disk compiled = some (.str w.key) ↔
        b.pointers.bound s.disk compiled = some (.str w.key) ∨
          (∃ t, (b.approach document).run s = (.ok w, t)) ∧ ¬ b.pointers.Stops s.disk A w.key) := by
  obtain ⟨r, s'', hrun', hran⟩ := run_ran hd h.standing document
  rw [hrun] at hrun'
  cases hrun'
  cases hran with
  | unopened _ opening bound =>
    obtain ⟨g, t, hopening⟩ := opening
    have happroach : (b.approach document).run s = (.error g, t) := run_bind_error hopening
    refine ⟨?_, fun w u hw => by simp [hopening] at hw⟩
    rcases bound with ⟨hover, hnone⟩ | ⟨hover, hsame⟩
    · simp [happroach, Erases, hover, hnone, eq_comm]
    · simp [happroach, Erases, hover, hsame]
  | unlogged w s₁ g opening apart unknown log _ disk prepared =>
    have happroach : (b.approach document).run s = (.error g, s₁) :=
      (run_bind_ok opening).trans (run_bind_error log)
    have hbound : b.pointers.bound s'.disk = b.pointers.bound s.disk := by
      rw [disk]
      exact prepared.bound
    refine ⟨?_, ?_⟩
    · simp [happroach, Erases, apart, hbound]
    · rintro w' t hw' -
      rw [opening] at hw'
      cases hw'
      simp [happroach, hbound]
  | attempted w s₁ s₂ s₃ opening apart log prepared passes course disk =>
    have happroach : (b.approach document).run s = (b.trial document w).run s₂ :=
      (run_bind_ok opening).trans (run_bind_ok log)
    have hs := passes.stands prepared.stands
    rw [disk]
    refine ⟨?_, ?_⟩
    · have hkept := course.kept_iff passes ⟨f, rfl⟩
      rw [prepared.bound] at hkept
      rw [hkept, happroach]
      refine ⟨fun hnot => ⟨fun he => apart he.1, ?_⟩, fun hnot hdisplaced => ?_⟩
      · rintro ⟨w', t, htrial, hdisplaces⟩
        obtain rfl := of_trial htrial
        exact hnot ⟨⟨t, htrial⟩, prepared.displaces.2 hdisplaces⟩
      · obtain ⟨⟨t, htrial⟩, hdisplaces⟩ := hdisplaced
        exact hnot.2 ⟨w, t, htrial, prepared.displaces.1 hdisplaces⟩
    · rintro w' t hw' haborted
      rw [opening] at hw'
      cases hw'
      have hcompiled := course.compiled_iff passes hs haborted
      rw [prepared.bound] at hcompiled
      rw [hcompiled, happroach, prepared.stops]

theorem threshold_of_check (h : b.settings.check = .ok ()) (f : Fault) :
    Session.thresholdOf (Text.upper b.settings.logLevel) ≠ .error f := by
  have hknown : ∀ level ∈ Settings.levels,
      (Session.thresholdOf (Text.upper level)).toBool = true := by decide +kernel
  intro herror
  have := hknown _ (Settings.level_of_check h)
  rw [herror] at this
  cases this

/-- Where the promotion would displace a binding, the build is aborted. -/
theorem aborted_of_displaces (hd : b.Discreet A) (h : Found b A s) (hc : b.settings.check = .ok ())
    (hw : b.opening.run s = (.ok w, s₁)) (hdisplaces : b.pointers.Displaces s.disk A w.key)
    (hentry : ¬ b.EntryBlocked s.disk A w.key) (document : Json) :
    ∃ f s', (b.run document).run s = (.error f, s') ∧ w.status? s'.disk = some (.str Record.aborted) := by
  obtain ⟨r, s', hrun, hran⟩ := run_ran hd h.standing document
  cases hran with
  | unopened _ opening =>
    obtain ⟨f, t, hopening⟩ := opening
    rw [hopening] at hw
    cases hw
  | unlogged _ _ f _ _ unknown => exact absurd unknown (threshold_of_check hc f)
  | attempted w' _ s₂ s₃ opening _ _ prepared passes course disk =>
    rw [opening] at hw
    cases hw
    have hentry' : ¬ b.EntryBlocked s₂.disk A w.key := by
      unfold EntryBlocked
      rwa [prepared.blocked (by simp [aliases]), prepared.blocked (by simp [aliases])]
    obtain ⟨⟨f, rfl⟩, haborted⟩ := course.aborted_of_displaces passes (passes.stands prepared.stands)
      (prepared.displaces.2 hdisplaces) hentry'
    exact ⟨f, s', hrun, disk ▸ haborted⟩

set_option maxRecDepth 100000 in
/-- A directory in the place of the compiled key's link: the build fails, and yet its key is the compiled one. -/
theorem failed_keeps_compiled_iff_obstructed : ∃ f s' w t,
    ((lone "5.00" []).run (.obj [])).run (obstructed compiled) = (.error f, s') ∧
      (lone "5.00" []).opening.run (obstructed compiled) = (.ok w, t) ∧
      w.status? s'.disk = some (.str Record.aborted) ∧
      (lone "5.00" []).pointers.bound (obstructed compiled).disk compiled = none ∧
      (lone "5.00" []).pointers.bound s'.disk compiled = some (.str w.key) ∧
      ¬ ∀ n ∈ [compiled, compiledBackup], (lone "5.00" []).pointers.bound s'.disk n =
        (lone "5.00" []).pointers.bound (obstructed compiled).disk n := by
  have hfound : Found (lone "5.00" []) ["/", "p", "run"] (obstructed compiled) :=
    found_obstructed (by simp [aliases])
  have happroaches : (((lone "5.00" []).approach (.obj [])).run (obstructed compiled)).1.toBool = true := by
    decide +kernel
  have hkey : ((lone "5.00" []).opening.run (obstructed compiled)).1.toOption.map (·.key) =
      some (obstructed compiled).clock.key := by decide +kernel
  have hnone : (lone "5.00" []).pointers.bound (obstructed compiled).disk compiled = none := by decide +kernel
  have hdirs : (obstructed compiled).disk.Clear ["/", "p", "run"] latest ∧
      (obstructed compiled).disk.Clear ["/", "p", "run"] running ∧
      ¬ (obstructed compiled).disk.Clear ["/", "p", "run"] compiled := by
    unfold Disk.Clear
    decide +kernel
  obtain ⟨⟨r, u⟩, happroach⟩ :
    ∃ x, ((lone "5.00" []).approach (.obj [])).run (obstructed compiled) = x := ⟨_, rfl⟩
  rw [happroach] at happroaches
  cases r with
  | error f => cases happroaches
  | ok w =>
    obtain ⟨w', t, hopening, hrest⟩ := of_run_bind_ok happroach
    obtain ⟨_, _, -, htrial⟩ := of_run_bind_ok hrest
    obtain rfl := of_trial htrial
    rw [hopening] at hkey
    obtain hkey : w.key = _ := Option.some.inj hkey
    have hname : Key.IsKeyName w.key := hkey ▸ Key.isKeyName_key _
    have hstops : ¬ (lone "5.00" []).pointers.Stops (obstructed compiled).disk ["/", "p", "run"] w.key :=
      fun h => h.1.1 (by simp [previous, hnone])
    have hdisplaces : (lone "5.00" []).pointers.Displaces (obstructed compiled).disk ["/", "p", "run"] w.key :=
      .inr ⟨hstops, (blocked_key hname _).2 ⟨rfl, hdirs.2.2⟩, by simp [hnone]⟩
    have hentry : ¬ (lone "5.00" []).EntryBlocked (obstructed compiled).disk ["/", "p", "run"] w.key := by
      rintro (hb | hb)
      · exact ((blocked_key hname _).1 hb).2 hdirs.1
      · exact ((blocked_key hname _).1 hb).2 hdirs.2.1
    obtain ⟨f, s', hrun, haborted⟩ := aborted_of_displaces discreet_lone hfound rfl hopening hdisplaces hentry
      (.obj [])
    obtain ⟨hkept, hbound⟩ := failed_keeps_compiled_iff discreet_lone hfound hrun
    refine ⟨f, s', w, t, hrun, hopening, haborted, hnone, ?_, fun h => ?_⟩
    · exact (hbound w t hopening haborted).2 (.inr ⟨⟨u, happroach⟩, hstops⟩)
    · exact (hkept.1 h).2 ⟨w, u, happroach, hdisplaces⟩

/-! ## Evidence -/

/-- The record on disk has an end, and the workspace is not bound as the running one. -/
def Evident (b : Builder) (w : Workspace) (d : Disk) : Prop :=
  (w.status? d = some (.str Record.completed) ∨ w.status? d = some (.str Record.aborted)) ∧
    b.pointers.bound d running ≠ some (.str w.key)

/-- What a failure leaves is evidence, unless its own link cannot be made. -/
theorem failed_evident_iff {f : Fault} (h : Failed (b.supervision w) f A s s') (hs : Stands w A s')
    (hrunning : b.pointers.bound s.disk running = some (.str w.key)) :
    b.Evident w s'.disk ↔ ¬ b.pointers.Blocked s.disk A (aborted, .str w.key) := by
  have hstatus := status_of_record hs h.ended.status
  unfold Evident
  rw [hstatus]
  by_cases hb : b.pointers.Blocked s.disk A (aborted, .str w.key)
  · have hbound : b.pointers.bound s'.disk running = some (.str w.key) :=
      (congrFun (h.blocked hb) running).trans ((rebound_of_ne _ (by decide) _).trans hrunning)
    simp [hbound, hb]
  · have hbound : b.pointers.bound s'.disk running = none :=
      (congrFun (h.shown_running hb hrunning) running).trans (rebound_null _ _)
    simp [hbound, hb]

theorem Course.evidence (hc : Course b A w document s r s') (hpass : Passes w A s s')
    (hs : Stands w A s') : b.Evident w s'.disk ↔ (∃ built, r = .ok built) ∨
      ¬ b.EntryBlocked s.disk A w.key ∧ ¬ b.pointers.Blocked s.disk A (aborted, .str w.key) := by
  have hentered : ∀ {t : Site}, b.pointers.bound t.disk = entered (b.pointers.bound s.disk) w.key →
      b.pointers.bound t.disk running = some (.str w.key) :=
    fun hbound => (congrFun hbound running).trans (rebound_str _ _ _)
  cases hc with
  | unentered blocked _ error record =>
    obtain ⟨f, rfl⟩ := error
    simp [Evident, status_of_record hs record, blocked, Record.running, Record.completed,
      Record.aborted]
  | rejected s₁ s₂ f unblocked _ _ error bound failed =>
    obtain ⟨g, rfl⟩ := error
    rw [failed_evident_iff failed hs (hentered bound), ← failed.passes.blocked, hpass.blocked]
    simp [unblocked]
  | unpromoted s₁ s₂ s₃ j f unblocked _ _ error bound promoted failed =>
    obtain ⟨g, rfl⟩ := error
    have hrunning : b.pointers.bound s₃.disk running = some (.str w.key) :=
      (promoted.bound_other (by decide) (by decide)).trans (hentered bound)
    rw [failed_evident_iff failed hs hrunning, ← failed.passes.blocked, hpass.blocked]
    simp [unblocked]
  | completed s₁ s₂ s₃ j built _ _ _ ok _ _ _ ended bound =>
    have hbound : b.pointers.bound s'.disk running = none :=
      (congrFun bound running).trans (rebound_null _ _)
    simp [Evident, status_of_record hs ended.status, hbound, ok]

/-- A workspace is left with evidence exactly if the build succeeds, or no directory is in the way of
the links of the beginning and of the failure. -/
theorem evident_iff (hd : b.Discreet A) (h : Found b A s) (hc : b.settings.check = .ok ())
    (document : Json) (hw : b.opening.run s = (.ok w, s₁)) :
    b.Evident w ((b.run document).run s).2.disk ↔
      (∃ built, ((b.run document).run s).1 = .ok built) ∨ b.settings.links = false ∨
        s.disk.Clear A latest ∧ s.disk.Clear A running ∧ s.disk.Clear A aborted := by
  obtain ⟨r, s', hrun, hran⟩ := run_ran hd h.standing document
  rw [hrun]
  cases hran with
  | unopened _ opening =>
    obtain ⟨f, t, hopening⟩ := opening
    rw [hopening] at hw
    cases hw
  | unlogged _ _ f _ _ unknown => exact absurd unknown (threshold_of_check hc f)
  | attempted w' _ s₂ s₃ opening _ _ prepared passes course disk =>
    rw [opening] at hw
    cases hw
    have hs := passes.stands prepared.stands
    have hlinks : b.pointers.links = b.settings.links := rfl
    have hevident := course.evidence passes hs
    have hclear : ∀ n ∈ [latest, running, aborted], s₂.disk.Clear A n ↔ s.disk.Clear A n :=
      fun n hn => prepared.clear (by revert n; decide)
    simp only [EntryBlocked, blocked_key prepared.name, hlinks, hclear latest (by simp),
      hclear running (by simp), hclear aborted (by simp)] at hevident
    change b.Evident w s'.disk ↔ _
    rw [disk, hevident]
    cases hl : b.settings.links
    · simp
    · simp [Classical.not_not, and_assoc]

set_option maxRecDepth 100000 in
theorem evident_iff_obstructed : ∃ w s', (lone "5.00" []).opening.run (obstructed latest) = (.ok w, s') ∧
    ¬ (lone "5.00" []).Evident w (((lone "5.00" []).run (.obj [])).run (obstructed latest)).2.disk := by
  have hopens : ((lone "5.00" []).opening.run (obstructed latest)).1.toBool = true := by decide +kernel
  have hfails : (((lone "5.00" []).run (.obj [])).run (obstructed latest)).1.toBool = false := by
    decide +kernel
  obtain ⟨⟨r, s'⟩, hopening⟩ : ∃ x, (lone "5.00" []).opening.run (obstructed latest) = x := ⟨_, rfl⟩
  rw [hopening] at hopens
  cases r with
  | error f => cases hopens
  | ok w =>
    refine ⟨w, s', hopening, ?_⟩
    rw [evident_iff discreet_lone (found_obstructed (by simp [aliases])) rfl _ hopening]
    rintro (⟨built, hok⟩ | hlinks | ⟨hclear, -, -⟩)
    · rw [hok] at hfails
      cases hfails
    · cases hlinks
    · exact hclear.1 (by decide +kernel)

end Builder

end FlowPlan

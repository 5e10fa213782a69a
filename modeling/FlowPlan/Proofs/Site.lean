import FlowPlan.Proofs.Action
import FlowPlan.Proofs.Attempt
import FlowPlan.Proofs.Disk.Operation
import FlowPlan.Site

/-!
# Steps on a site

Most steps of a build touch a few addresses of the disk and, perhaps, the log. What a step may touch
is said by a predicate on addresses; everything else of the site is as before.

## Main definitions

* `Site.Differs` — two sites differ at certain addresses and in the log only.
* `Site.Detached` — a predicate that no write and no record changes.
* `Site.Ready` — the build root is a rooted directory, and the log, if open, is that of a workspace.
* `Session.Mirrors` — a run ends as a computation does.

## Main statements

* `Site.Differs.ready` — what is touched below the build root leaves it where it is.
* `Session.run_write_ok`, `Session.run_read` — single steps.
-/

namespace FlowPlan

namespace Site

/-! ## What has changed -/

/-- The log is written to the file at the address. -/
def IsLog (s : Site) (a : Address) : Prop := ∃ style, s.journal.file = some (a, style)

/-- Nothing but the entries at some addresses, the log and what was shown has changed. -/
structure Differs (X : Address → Prop) (s s' : Site) : Prop where
  home : s'.disk.home = s.disk.home
  records : s'.records = s.records
  locked : s'.locked = s.locked
  journal : s'.journal = s.journal
  clock : s'.clock = s.clock
  kept : ∀ a, ¬ X a → s'.disk.find? a = s.disk.find? a ∨
    s.IsLog a ∧ ∃ c c', s.disk.find? a = some (.file c) ∧ s'.disk.find? a = some (.file c')

/-- A predicate on what is neither on the disk nor on the console. -/
def Detached (P : Site → Prop) : Prop := ∀ s d lines, P s → P { s with disk := d, console := lines }

variable {X Y : Address → Prop} {s s' s'' : Site}

theorem Differs.refl (X : Address → Prop) (s : Site) : Differs X s s :=
  ⟨rfl, rfl, rfl, rfl, rfl, fun _ _ => .inl rfl⟩

theorem Differs.find? (h : Differs X s s') {a : Address} (ha : ¬ X a) (hl : ¬ s.IsLog a) :
    s'.disk.find? a = s.disk.find? a :=
  (h.kept a ha).resolve_right fun hlog => hl hlog.1

theorem Differs.isLog (h : Differs X s s') (a : Address) : s'.IsLog a ↔ s.IsLog a := by
  unfold IsLog
  rw [h.journal]

theorem Differs.trans (h : Differs X s s') (h' : Differs X s' s'') : Differs X s s'' where
  home := h'.home.trans h.home
  records := h'.records.trans h.records
  locked := h'.locked.trans h.locked
  journal := h'.journal.trans h.journal
  clock := h'.clock.trans h.clock
  kept a ha := by
    rcases h'.kept a ha with h₂ | ⟨hl, c', c'', hc', hc''⟩
    · rw [h₂]
      exact h.kept a ha
    · rcases h.kept a ha with h₁ | ⟨-, c, -, hc, -⟩
      · exact .inr ⟨(h.isLog a).1 hl, c', c'', h₁ ▸ hc', hc''⟩
      · exact .inr ⟨(h.isLog a).1 hl, c, c'', hc, hc''⟩

theorem Differs.mono (h : Differs X s s') (hXY : ∀ a, X a → Y a) : Differs Y s s' :=
  ⟨h.home, h.records, h.locked, h.journal, h.clock, fun a ha => h.kept a (mt (hXY a) ha)⟩

theorem differs_disk {d : Disk} (hhome : d.home = s.disk.home)
    (h : ∀ a, ¬ X a → d.find? a = s.disk.find? a) : Differs X s { s with disk := d } :=
  ⟨hhome, rfl, rfl, rfl, rfl, fun a ha => .inl (h a ha)⟩

theorem differs_set (s : Site) {a : Address} (ha : a ≠ []) (e : Entry) :
    Differs (· = a) s { s with disk := s.disk.set a e } :=
  differs_disk rfl fun b hb => by rw [Disk.find?_set _ ha, if_neg (Ne.symm hb)]

theorem differs_erase (s : Site) {a : Address} (ha : a ≠ []) :
    Differs (· = a) s { s with disk := s.disk.erase a } :=
  differs_disk rfl fun b hb => by rw [Disk.find?_erase _ ha, if_neg (Ne.symm hb)]

/-- A record goes to the log and to the console. -/
theorem differs_record (s : Site) (r : LogRecord) : Differs (fun _ => False) s (s.record r) := by
  unfold record
  split
  · exact .refl _ s
  · refine ⟨?_, rfl, rfl, rfl, rfl, fun b _ => ?_⟩
    · dsimp only
      split
      · exact Disk.home_append _ _
      · rfl
    · dsimp only
      split
      · rename_i a style hfile
        by_cases ha : a = []
        · subst ha
          exact .inl rfl
        · rcases Disk.find?_append (d := s.disk) ha (fileLine style s.clock r) b with h | ⟨rfl, h⟩
          · exact .inl h
          · exact .inr ⟨⟨style, hfile⟩, h⟩
      · exact .inl rfl

/-! ## Build roots -/

/-- The build root is a directory whose path does not depend on what lies below it, and the log, if
it is open, is the one of a workspace. -/
structure Ready (root : Path) (A : Address) (s : Site) : Prop where
  rooted : Disk.Rooted Disk.maxLinks s.disk root A
  log : ∀ a, s.IsLog a → ∃ key, a = A ++ [key] ++ ["run.log"]

variable {root : Path} {A : Address}

/-- Without a log there is nothing to say of it. -/
theorem ready_of_journal (hr : Disk.Rooted Disk.maxLinks s.disk root A) (hj : s.journal.file = none) :
    Ready root A s :=
  ⟨hr, fun a ⟨style, hfile⟩ => by
    rw [hj] at hfile
    cases hfile⟩

theorem Ready.of_keepsRooted (h : Ready root A s) (hways : Disk.KeepsRooted root A s.disk s'.disk)
    (hjournal : s'.journal = s.journal) : Ready root A s' :=
  ⟨hways _ h.rooted, fun a ha => h.log a (by
    unfold IsLog at ha ⊢
    rwa [hjournal] at ha)⟩

theorem Ready.not_isLog_child (h : Ready root A s) (n : String) : ¬ s.IsLog (A ++ [n]) := by
  intro hl
  obtain ⟨key, heq⟩ := h.log _ hl
  simp at heq

theorem Ready.not_isLog_grandchild (h : Ready root A s) (k : String) {n : String}
    (hn : n ≠ "run.log") : ¬ s.IsLog (A ++ [k] ++ [n]) := by
  intro hl
  obtain ⟨key, heq⟩ := h.log _ hl
  simp at heq
  exact hn heq.2

theorem Differs.keepsWays (h : Differs X s s') (hs : Ready root A s)
    (hX : ∀ a, X a → Address.Below A a) : Disk.KeepsWays A s.disk s'.disk := by
  refine ⟨h.home, fun a e ha he _ => ?_⟩
  rw [h.find? (mt (hX a) ha) (fun hl => ?_), he]
  obtain ⟨key, rfl⟩ := hs.log a hl
  exact ha ⟨key, ["run.log"], by simp⟩

/-- What is touched below the build root leaves it where it is. -/
theorem Differs.ready (h : Differs X s s') (hs : Ready root A s)
    (hX : ∀ a, X a → Address.Below A a) : Ready root A s' :=
  hs.of_keepsRooted ((h.keepsWays hs hX).keepsRooted root) h.journal

end Site

/-! ## Single steps -/

namespace Session

variable {α : Type} {s : Site}

@[simp] theorem run_read (f : Disk → Attempt α) (s : Site) :
    (Session.read f).run s = (f s.disk, s) := rfl

theorem run_read_total {β : Type} (g : Disk → α) (k : α → Session β) (s : Site) :
    (Session.read (fun d => .ok (g d)) >>= k).run s = (k (g s.disk)).run s := rfl

theorem run_read_ok {β : Type} {f : Disk → Attempt α} {x : α} (h : f s.disk = .ok x)
    (k : α → Session β) : (Session.read f >>= k).run s = (k x).run s :=
  Action.run_bind_ok (by rw [run_read, h])

theorem run_read_error {β : Type} {f : Disk → Attempt α} {e : Fault} (h : f s.disk = .error e)
    (k : α → Session β) : (Session.read f >>= k).run s = (.error e, s) :=
  Action.run_bind_error (by rw [run_read, h])

theorem run_write_ok {f : Disk → Disk.Change} {d : Disk} (h : f s.disk = .ok d) :
    (write f).run s = (.ok (), { s with disk := d }) := by
  simp [write, h]

theorem run_write_error {f : Disk → Disk.Change} {e : Fault} (h : f s.disk = .error e) :
    (write f).run s = (.error e, s) := by
  simp [write, h]

theorem of_run_write {f : Disk → Disk.Change} {x : Unit} {s' : Site} (h : (write f).run s = (.ok x, s')) :
    ∃ d, f s.disk = .ok d ∧ s' = { s with disk := d } := by
  cases hd : f s.disk with
  | error e => simp [run_write_error hd] at h
  | ok d => exact ⟨d, rfl, by simpa [run_write_ok hd] using h.symm⟩

/-- A rooted directory is there. -/
theorem makeDirs_run {p : Path} {A : Address}
    (h : Disk.Rooted Disk.maxLinks s.disk p A) : (write (·.makeDirs p)).run s = (.ok (), s) :=
  run_write_ok (f := (·.makeDirs p)) h.makeDirs

@[simp] theorem run_now (s : Site) : now.run s = (.ok s.clock, s) := rfl

/-- A record touches nothing but the log. -/
theorem report_run (r : LogRecord) (s : Site) :
    ∃ s', (report r).run s = (.ok (), s') ∧ Site.Differs (fun _ => False) s s' :=
  ⟨_, rfl, Site.differs_record s r⟩

theorem debug_run (logger message : String) (event : Option String) (metadata : Option Json)
    (s : Site) :
    ∃ s', (debug logger message event metadata).run s = (.ok (), s') ∧
      Site.Differs (fun _ => False) s s' := report_run _ s

theorem info_run (logger message event : String) (stage : Option String) (metadata : Option Json)
    (s : Site) :
    ∃ s', (info logger message event stage metadata).run s = (.ok (), s') ∧
      Site.Differs (fun _ => False) s s' := report_run _ s

theorem error_run (logger message event : String) (stage : Option String)
    (metadata : Option Json) (fault : Option Fault) (s : Site) :
    ∃ s', (Session.error logger message event stage metadata fault).run s = (.ok (), s') ∧
      Site.Differs (fun _ => False) s s' := report_run _ s

/-! ## What single steps keep -/

section Keeps

variable {P : Site → Prop}

theorem keeps_read (f : Disk → Attempt α) : Action.Keeps P (read f) := Action.keeps_atomic fun _ hs => hs

theorem keeps_write {f : Disk → Disk.Change}
    (h : ∀ s d, P s → f s.disk = .ok d → P { s with disk := d }) : Action.Keeps P (write f) := by
  refine Action.keeps_atomic fun s hs => ?_
  split
  · exact h s _ hs ‹_›
  · exact hs

theorem keeps_report (h : ∀ s s', P s → Site.Differs (fun _ => False) s s' → P s') (r : LogRecord) :
    Action.Keeps P (report r) :=
  Action.keeps_modify fun s hs => h s _ hs (Site.differs_record s r)

theorem keeps_write_of_detached (h : Site.Detached P) (f : Disk → Disk.Change) : Action.Keeps P (write f) :=
  keeps_write fun s d hs _ => h s d s.console hs

theorem keeps_report_of_detached (h : Site.Detached P) (r : LogRecord) : Action.Keeps P (report r) := by
  refine Action.keeps_modify fun s hs => ?_
  unfold Site.record
  split
  · exact hs
  · exact h s _ _ hs

end Keeps

/-! ## Runs beside computations -/

variable {β γ δ : Type} {P : α → β → Site → Prop} {Q : γ → δ → Site → Prop} {a : Session α}
  {f : α → Session γ} {x : Attempt β}

/-- Run from a site, the action fails exactly if the computation does. The results and the site that is
left are related. -/
def Mirrors (P : α → β → Site → Prop) (a : Session α) (x : Attempt β) (s : Site) : Prop :=
  Attempt.Both (fun y z => P y z (a.run s).2) (a.run s).1 x

theorem Mirrors.bind {g : β → Attempt δ} (h : Mirrors P a x s)
    (hrest : ∀ y z s', P y z s' → Mirrors Q (f y) (g z) s') : Mirrors Q (a >>= f) (x >>= g) s := by
  unfold Mirrors at h ⊢
  rw [Action.run_bind]
  obtain ⟨⟨r, s'⟩, hrun⟩ : ∃ y, a.run s = y := ⟨_, rfl⟩
  rw [hrun] at h ⊢
  cases h with
  | ok h => exact hrest _ _ _ h
  | error e e' => exact .error e e'

/-- A step of the run that always ends well. -/
theorem Mirrors.bind_ok {y : α} {s' : Site} {z : Attempt δ} (hrun : a.run s = (.ok y, s'))
    (hrest : Mirrors Q (f y) z s') : Mirrors Q (a >>= f) z s := by
  unfold Mirrors
  rw [Action.run_bind_ok hrun]
  exact hrest

/-- A step of the run that leaves the site as it is. -/
theorem Mirrors.bind_lift {r : Except Fault α} {R : α → β → Prop} {g : β → Attempt δ}
    (h : Attempt.Both R r x) (hrest : ∀ y z, R y z → Mirrors Q (f y) (g z) s) :
    Mirrors Q (Action.lift r >>= f) (x >>= g) s := by
  cases h with
  | ok h => exact hrest _ _ h
  | error e e' => exact .error e e'

theorem Mirrors.pure {y : α} {z : β} (h : P y z s) : Mirrors P (Pure.pure y) (.ok z) s := .ok h

/-- A run that ends well belongs to a computation that does. -/
theorem Mirrors.left (h : Mirrors P a x s) {y : α} {s' : Site} (hrun : a.run s = (.ok y, s')) :
    ∃ z, x = .ok z ∧ P y z s' := by
  unfold Mirrors at h
  rw [hrun] at h
  exact h.left rfl

theorem Mirrors.right (h : Mirrors P a x s) {z : β} (hx : x = .ok z) :
    ∃ y s', a.run s = (.ok y, s') ∧ P y z s' := by
  obtain ⟨y, hy, hP⟩ := Attempt.Both.right h hx
  exact ⟨y, _, Prod.ext hy rfl, hP⟩

end Session

end FlowPlan

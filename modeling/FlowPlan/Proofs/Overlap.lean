import FlowPlan.Proofs.Allocation

/-!
# Overlapping attempts

Attempts in different workspaces of one build root begin and end in any order, without a lock. The alias
of the running attempt never goes stale: it is bound to the one that began last, until that one ends.

## Main definitions

* `Supervision.exit` — the end of an attempt, good or bad.
* `BuildDir.Act`, `BuildDir.Overlap` — what has happened in a build root, and the site that is left.

## Main statements

* `BuildDir.exit_sound` — what an end changes.
* `BuildDir.Overlap.watched` — what the pointers say after any acts.
* `BuildDir.running_iff` — which attempt is bound as the running one.
-/

namespace FlowPlan

open FlowPlan.Action Site Pointers Workspace Builder

/-- The attempt ends well, or with a fault. -/
def Supervision.exit (v : Supervision) : Option Fault → Session Unit
  | none => v.complete
  | some f => v.abort f

namespace BuildDir

/-- A workspace is allocated, an attempt begins, or an attempt ends well or with a fault. -/
inductive Act where
  | allocated (w : Workspace)
  | entered (v : Supervision)
  | exited (v : Supervision) (f : Option Fault)

def Act.entered? : Act → Option Supervision
  | entered v => some v
  | _ => none

def Act.failed? : Act → Option Supervision
  | exited v (some _) => some v
  | _ => none

/-- The attempt that began last. The last act comes first. -/
def lastEntered (acts : List Act) : Option Supervision := (acts.filterMap Act.entered?).head?

/-- The attempt that failed last. -/
def lastFailed (acts : List Act) : Option Supervision := (acts.filterMap Act.failed?).head?

def Exited (acts : List Act) (v : Supervision) : Prop := ∃ f, .exited v f ∈ acts

section Cons

variable (acts : List Act) (w : Workspace) (v v' : Supervision) (f : Option Fault)

@[simp] theorem lastEntered_allocated : lastEntered (.allocated w :: acts) = lastEntered acts := rfl

@[simp] theorem lastEntered_entered : lastEntered (.entered v :: acts) = some v := rfl

@[simp] theorem lastEntered_exited : lastEntered (.exited v f :: acts) = lastEntered acts := rfl

@[simp] theorem lastFailed_allocated : lastFailed (.allocated w :: acts) = lastFailed acts := rfl

@[simp] theorem lastFailed_entered : lastFailed (.entered v :: acts) = lastFailed acts := rfl

@[simp] theorem lastFailed_exited :
    lastFailed (.exited v f :: acts) = if f.isSome then some v else lastFailed acts := by
  cases f <;> rfl

@[simp] theorem exited_allocated : Exited (.allocated w :: acts) v ↔ Exited acts v := by
  simp [Exited]

@[simp] theorem exited_entered : Exited (.entered v' :: acts) v ↔ Exited acts v := by
  simp [Exited]

@[simp] theorem exited_exited : Exited (.exited v' f :: acts) v ↔ v = v' ∨ Exited acts v := by
  simp [Exited, exists_or]

end Cons

/-- The acts lead from the first site to the last, each at any time. An attempt has an allocated workspace
of its own, begins once and then ends once. -/
inductive Overlap (b : BuildDir) (s : Site) : List Act → Site → Prop
  | untouched : Overlap b s [] s
  | allocated {acts : List Act} {t t' : Site} {w : Workspace} (before : Overlap b s acts t) (now : Instant)
      (run : b.allocate.run { t with clock := now } = (.ok w, t')) : Overlap b s (.allocated w :: acts) t'
  | entered {acts : List Act} {t : Site} {v : Supervision} (before : Overlap b s acts t) (now : Instant)
      (directory : v.directory = b) (mem : .allocated v.workspace ∈ acts)
      (own : ∀ v', .entered v' ∈ acts → v'.workspace ≠ v.workspace) :
      Overlap b s (.entered v :: acts) (v.enter.run { t with clock := now }).2
  | exited {acts : List Act} {t : Site} {v : Supervision} (before : Overlap b s acts t) (now : Instant)
      (mem : .entered v ∈ acts) (inside : ¬ Exited acts v) (f : Option Fault) :
      Overlap b s (.exited v f :: acts) ((v.exit f).run { t with clock := now }).2

variable {b : BuildDir} {A : Address} {s t t' : Site} {acts : List Act} {v : Supervision} {key : String}

/-- The bindings after an end: a failure is bound as such, and the attempt is not the running one. -/
def leaving (f : String → Option Json) (key : String) : Option Fault → String → Option Json
  | none => Supervision.released f key
  | some _ => Supervision.released (rebound f (aborted, .str key)) key

theorem leaving_kept (g : String → Option Json) (key : String) (f : Option Fault) :
    ∀ n ∈ [latest, compiled, compiledBackup], leaving g key f n = g n := by
  intro n hn
  have hne : n ≠ running ∧ aborted ≠ n := by
    revert n
    decide
  cases f with
  | none => exact Supervision.released_other g key hne.1
  | some f => exact (Supervision.released_other _ key hne.1).trans (rebound_of_ne g hne.2 _)

theorem leaving_aborted (g : String → Option Json) (key : String) (f : Option Fault) :
    leaving g key f aborted = if f.isSome then some (.str key) else g aborted := by
  cases f with
  | none => exact Supervision.released_other g key (by decide)
  | some f => exact (Supervision.released_other _ key (by decide)).trans (rebound_str g _ _)

/-- An end unbinds its own key only. -/
theorem leaving_running (g : String → Option Json) (key : String) (f : Option Fault) (x : Json) :
    leaving g key f running = some x ↔ g running = some x ∧ x ≠ .str key := by
  have hreleased : ∀ h : String → Option Json, h running = g running →
      (Supervision.released h key running = some x ↔ g running = some x ∧ x ≠ .str key) := by
    intro h hsame
    unfold Supervision.released
    split
    · rename_i hkey
      rw [rebound_null, ← hsame, hkey]
      simp [eq_comm]
    · rename_i hkey
      rw [hsame] at hkey ⊢
      refine ⟨fun hx => ⟨hx, ?_⟩, And.left⟩
      rintro rfl
      exact hkey hx
  cases f with
  | none => exact hreleased g rfl
  | some f => exact hreleased _ (rebound_of_ne g (by decide) _)

/-- What an end changes: its record and two bindings. -/
theorem exit_sound (h : Sound b.root A t.disk) (hv : v.directory = b) (hw : v.workspace = b.workspace key)
    (hkey : Key.IsKeyName key) (hs : Stands (b.workspace key) A t)
    (hstored : ∃ fs, t.disk.find? (A ++ [storeName]) = some (.file (.json (.obj fs)))) (f : Option Fault) :
    ∃ r t', (v.exit f).run t = (r, t') ∧ Passes (b.workspace key) A t t' ∧ Sound b.root A t'.disk ∧
      (∃ fs, t'.disk.find? (A ++ [storeName]) = some (.file (.json (.obj fs)))) ∧
      Pointers.bound ⟨b.root, true⟩ t'.disk = leaving (Pointers.bound ⟨b.root, true⟩ t.disk) key f := by
  subst hv
  have hunderway : Supervision.Underway v A t := ⟨by rw [hw]; rfl, hw ▸ hs, h.closed, hstored⟩
  have hkeyed : v.workspace.key = key := by rw [hw]; rfl
  rw [← hw, ← hkeyed]
  obtain ⟨r, t', hrun, hpass, hstored', hbound⟩ : ∃ r t', (v.exit f).run t = (r, t') ∧
      Passes v.workspace A t t' ∧
      (∃ fs, t'.disk.find? (A ++ [storeName]) = some (.file (.json (.obj fs)))) ∧
      v.directory.pointers.bound t'.disk = leaving (v.directory.pointers.bound t.disk) v.workspace.key f := by
    cases f with
    | none =>
      obtain ⟨t', hrun, hpass, -, hstored', hbound⟩ := Supervision.complete_run hunderway
      exact ⟨.ok (), t', hrun, hpass, hstored', hbound⟩
    | some f =>
      obtain ⟨r, t', hrun, hfailed⟩ := Supervision.abort_failed hunderway f
      refine ⟨r, t', hrun, hfailed.passes, hfailed.stored, hfailed.shown fun hb => ?_⟩
      exact ((blocked_key (hkeyed ▸ hkey) aborted).1 hb).2 (h.clear _ (by simp [aliases]))
  refine ⟨r, t', hrun, hpass, h.of_stored (by rw [hw]; rfl) hpass hstored' ?_, hstored', hbound⟩
  rw [show Pointers.bound ⟨v.directory.root, true⟩ t'.disk = _ from hbound, leaving_kept _ _ _ _ (by simp)]
  rfl

/-- What holds after any acts. -/
structure Watched (b : BuildDir) (A : Address) (acts : List Act) (t : Site) : Prop where
  sound : Sound b.root A t.disk
  journal : t.journal.file = none
  stands : ∀ w, .allocated w ∈ acts → ∃ key, w = b.workspace key ∧ Key.IsKeyName key ∧ Stands w A t
  entered : ∀ v, .entered v ∈ acts → v.directory = b ∧ .allocated v.workspace ∈ acts
  exited : ∀ v f, .exited v f ∈ acts → .entered v ∈ acts
  own : ∀ v v', .entered v ∈ acts → .entered v' ∈ acts → v.workspace = v'.workspace → v = v'
  stored : ∀ v, .entered v ∈ acts → ∃ fs, t.disk.find? (A ++ [storeName]) = some (.file (.json (.obj fs)))
  running : ∀ x, Pointers.bound ⟨b.root, true⟩ t.disk running = some x ↔
    ∃ v, lastEntered acts = some v ∧ x = .str v.workspace.key ∧ ¬ Exited acts v
  aborted : Pointers.bound ⟨b.root, true⟩ t.disk aborted =
    (lastFailed acts).map fun v => .str v.workspace.key

theorem mem_of_lastEntered (h : lastEntered acts = some v) : .entered v ∈ acts := by
  obtain ⟨a, ha, hv⟩ := List.mem_filterMap.1 (List.mem_of_head? h)
  cases a with
  | entered v' =>
    cases hv
    exact ha
  | allocated w => cases hv
  | exited v' f => cases hv

theorem Watched.of_clock (h : Watched b A acts t) (now : Instant) :
    Watched b A acts { t with clock := now } :=
  { h with
    stands := fun w hw => by
      obtain ⟨key, hkey, hname, hs⟩ := h.stands w hw
      exact ⟨key, hkey, hname, hs.of_clock now⟩ }

theorem watched_dated (h : Dated b.root A t) (hnone : ∀ n, Pointers.bound ⟨b.root, true⟩ t.disk n = none) :
    Watched b A [] t := by
  refine ⟨h.sound, h.journal, by simp, by simp, by simp, by simp, by simp, ?_, ?_⟩
  · simp [hnone, lastEntered]
  · rw [hnone]
    rfl

theorem watched_allocated {w : Workspace} (h : Watched b A acts t) (hrun : b.allocate.run t = (.ok w, t')) :
    Watched b A (.allocated w :: acts) t' := by
  obtain ⟨B, hload⟩ := h.sound.load b.links
  rcases allocate_run (b := b) (ready_of_journal h.sound.rooted h.journal) h.sound.closed h.journal hload
    with ⟨f, hrun', -⟩ | ⟨key, l, t'', hrun', ha, -, -⟩
  · rw [hrun] at hrun'
    cases hrun'
  rw [hrun] at hrun'
  cases hrun'
  obtain ⟨hcalm, hbound⟩ := h.sound.of_allocated ha
  refine ⟨hcalm.sound, (congrArg (·.file) ha.journal).trans h.journal, ?_, ?_, ?_, ?_, ?_, ?_, ?_⟩
  · intro w hw
    rcases List.mem_cons.1 hw with hw | hw
    · cases hw
      exact ⟨key, rfl, ha.name, ha.stands h.sound.rooted h.sound.closed h.journal⟩
    · obtain ⟨k, hk, hname, hs⟩ := h.stands w hw
      exact ⟨k, hk, hname, ha.stands_of h.sound.closed h.journal hs⟩
  · intro v hv
    have := h.entered v (by simpa using hv)
    exact ⟨this.1, List.mem_cons_of_mem _ this.2⟩
  · intro v f hv
    exact List.mem_cons_of_mem _ (h.exited v f (by simpa using hv))
  · intro v v' hv hv'
    exact h.own v v' (by simpa using hv) (by simpa using hv')
  · intro v hv
    obtain ⟨fs, hfs⟩ := h.stored v (by simpa using hv)
    refine ⟨fs, ?_⟩
    rw [ha.kept_of_some h.sound.closed _ (by simp [hfs]), hfs]
  · simpa [hbound] using h.running
  · simpa [hbound] using h.aborted

theorem watched_entered (h : Watched b A acts t) (hd : v.directory = b) (hmem : .allocated v.workspace ∈ acts)
    (hown : ∀ v', .entered v' ∈ acts → v'.workspace ≠ v.workspace) :
    Watched b A (.entered v :: acts) (v.enter.run t).2 := by
  obtain ⟨key, hw, hname, hs⟩ := h.stands _ hmem
  obtain ⟨t', hrun, hpass, hsound, hstored, hbound⟩ := enter_sound h.sound hd hw hname (hw ▸ hs)
  have hkeyed : v.workspace.key = key := by rw [hw]; rfl
  rw [hrun]
  refine ⟨hsound, (congrArg (·.file) hpass.journal).trans h.journal, ?_, ?_, ?_, ?_, fun _ _ => hstored, ?_, ?_⟩
  · intro w hw'
    obtain ⟨k, hk, hname', hs'⟩ := h.stands w (by simpa using hw')
    exact ⟨k, hk, hname', hpass.stands_of (by rw [hk]; rfl) hs'⟩
  · intro v' hv'
    rcases List.mem_cons.1 hv' with hv' | hv'
    · cases hv'
      exact ⟨hd, List.mem_cons_of_mem _ hmem⟩
    · exact ⟨(h.entered v' hv').1, List.mem_cons_of_mem _ (h.entered v' hv').2⟩
  · intro v' f hv'
    exact List.mem_cons_of_mem _ (h.exited v' f (by simpa using hv'))
  · intro v₁ v₂ h₁ h₂ hsame
    rcases List.mem_cons.1 h₁ with h₁ | h₁ <;> rcases List.mem_cons.1 h₂ with h₂ | h₂
    · cases h₁
      cases h₂
      rfl
    · cases h₁
      exact absurd hsame.symm (hown v₂ h₂)
    · cases h₂
      exact absurd hsame (hown v₁ h₁)
    · exact h.own v₁ v₂ h₁ h₂ hsame
  · -- An attempt that begins has not ended, because nothing has begun in its workspace.
    have hinside : ¬ Exited acts v := fun ⟨f, hf⟩ => hown v (h.exited v f hf) rfl
    intro x
    rw [hbound, Supervision.entered, rebound_str]
    simp [hinside, hkeyed, eq_comm]
  · rw [hbound, Supervision.entered, rebound_of_ne _ (by decide), rebound_of_ne _ (by decide), h.aborted]
    rfl

theorem watched_exited (h : Watched b A acts t) (hmem : .entered v ∈ acts) (f : Option Fault) :
    Watched b A (.exited v f :: acts) ((v.exit f).run t).2 := by
  obtain ⟨hd, hallocated⟩ := h.entered v hmem
  obtain ⟨key, hw, hname, hs⟩ := h.stands _ hallocated
  obtain ⟨r, t', hrun, hpass, hsound, hstored, hbound⟩ :=
    exit_sound h.sound hd hw hname (hw ▸ hs) (h.stored v hmem) f
  have hkeyed : v.workspace.key = key := by rw [hw]; rfl
  rw [hrun]
  refine ⟨hsound, (congrArg (·.file) hpass.journal).trans h.journal, ?_, ?_, ?_, ?_, fun _ _ => hstored, ?_, ?_⟩
  · intro w hw'
    obtain ⟨k, hk, hname', hs'⟩ := h.stands w (by simpa using hw')
    exact ⟨k, hk, hname', hpass.stands_of (by rw [hk]; rfl) hs'⟩
  · intro v' hv'
    have := h.entered v' (by simpa using hv')
    exact ⟨this.1, List.mem_cons_of_mem _ this.2⟩
  · intro v' g hv'
    rcases List.mem_cons.1 hv' with hv' | hv'
    · cases hv'
      exact List.mem_cons_of_mem _ hmem
    · exact List.mem_cons_of_mem _ (h.exited v' g hv')
  · intro v₁ v₂ h₁ h₂
    exact h.own v₁ v₂ (by simpa using h₁) (by simpa using h₂)
  · -- The running attempt is another one exactly if its key is another one.
    have hother : ∀ v', .entered v' ∈ acts → (Json.str v'.workspace.key ≠ .str key ↔ v' ≠ v) := by
      intro v' hv'
      obtain ⟨k', hk', -, -⟩ := h.stands _ (h.entered v' hv').2
      refine not_congr ⟨fun hkey => h.own v' v hv' hmem ?_, ?_⟩
      · rw [hk'] at hkey ⊢
        rw [hw]
        exact congrArg b.workspace (Json.str.inj hkey)
      · rintro rfl
        rw [hkeyed]
    intro x
    rw [hbound, leaving_running, h.running]
    constructor
    · rintro ⟨⟨v', hlast, rfl, hinside⟩, hne⟩
      refine ⟨v', hlast, rfl, ?_⟩
      simp only [exited_exited, not_or]
      exact ⟨(hother v' (mem_of_lastEntered hlast)).1 hne, hinside⟩
    · rintro ⟨v', hlast, rfl, hinside⟩
      simp only [exited_exited, not_or] at hinside
      exact ⟨⟨v', hlast, rfl, hinside.2⟩, (hother v' (mem_of_lastEntered hlast)).2 hinside.1⟩
  · rw [hbound, leaving_aborted, h.aborted, lastFailed_exited]
    cases f <;> simp [hkeyed]

theorem Overlap.watched (hv : Vacant b.root A s) (h : Overlap b s acts t) :
    (acts = [] ∧ t = s) ∨ Watched b A acts t := by
  induction h with
  | untouched => exact .inl ⟨rfl, rfl⟩
  | allocated before now run ih =>
    rcases ih with ⟨rfl, rfl⟩ | h
    · obtain ⟨d, -, -, hdated, hbound, hmakes⟩ := allocate_vacant (hv.of_clock now)
      refine .inr (watched_allocated (watched_dated hdated fun n => ?_) (hmakes ▸ run))
      exact (congrFun hbound n).trans (hv.bound n)
    · exact .inr (watched_allocated (h.of_clock now) run)
  | entered before now directory mem own ih =>
    rcases ih with ⟨rfl, -⟩ | h
    · cases mem
    · exact .inr (watched_entered (h.of_clock now) directory mem own)
  | exited before now mem inside f ih =>
    rcases ih with ⟨rfl, -⟩ | h
    · cases mem
    · exact .inr (watched_exited (h.of_clock now) mem f)

/-- In every state that allocations, beginnings and ends lead to from a vacant build root, the running key is
that of the attempt that began last, if this one has not ended, and there is none otherwise. The aborted
key is that of the last failure, and no end changes the other aliases. -/
theorem running_iff (hv : Vacant b.root A s) (h : Overlap b s acts t) :
    (∀ x, b.pointers.bound t.disk running = some x ↔
      ∃ v, lastEntered acts = some v ∧ x = .str v.workspace.key ∧ ¬ Exited acts v) ∧
    b.pointers.bound t.disk aborted = (lastFailed acts).map (fun v => .str v.workspace.key) ∧
    ∀ v, .entered v ∈ acts → ¬ Exited acts v → ∀ now f, ∀ n ∈ [latest, compiled, compiledBackup],
      b.pointers.bound ((v.exit f).run { t with clock := now }).2.disk n = b.pointers.bound t.disk n := by
  rcases h.watched hv with ⟨rfl, rfl⟩ | h
  · refine ⟨fun x => ?_, hv.bound aborted, by simp⟩
    rw [show b.pointers.bound _ running = none from hv.bound running]
    simp [lastEntered]
  · refine ⟨h.running, h.aborted, fun v hmem _ now f n hn => ?_⟩
    have ht := h.of_clock now
    obtain ⟨hd, hallocated⟩ := ht.entered v hmem
    obtain ⟨key, hw, hname, hs⟩ := ht.stands _ hallocated
    obtain ⟨r, t', hrun, -, -, -, hbound⟩ := exit_sound ht.sound hd hw hname (hw ▸ hs) (ht.stored v hmem) f
    rw [hrun]
    exact (congrFun hbound n).trans (leaving_kept _ key f n hn)

/-- Of two attempts the one that began first fails, while the other one goes on. -/
theorem running_iff_crossing : let b : BuildDir := ⟨⟨"/", ["p", "run"]⟩, true⟩
    ∃ v v' t, Overlap b Call.bare [.exited v (some .endless), .entered v', .entered v,
        .allocated v'.workspace, .allocated v.workspace] t ∧
      b.pointers.bound t.disk running = some (.str v'.workspace.key) ∧
      b.pointers.bound t.disk aborted = some (.str v.workspace.key) := by
  intro b
  obtain ⟨clock, hclock⟩ : ∃ clock, clock = Call.bare.clock := ⟨_, rfl⟩
  have hclocked : clock.IsClock := hclock ▸ ⟨rfl, by decide, by decide⟩
  have hv : Vacant b.root ["/", "p", "run"] Call.bare := Call.vacant_bare
  obtain ⟨k, t, hrun, hgiven⟩ := given_vacant (hv.of_clock clock) hclocked
  obtain ⟨k', t', hrun', hgiven', -⟩ := given_dated (hgiven.dated.of_clock clock) hclocked
  have hne : k' ≠ k := by
    rintro rfl
    have hnew : t.disk.lookup? (b.root.child k') false = none := hgiven'.new
    rw [hgiven.dated.sound.rooted.lookup?_child hgiven.isKey.isKeyName.isName.1 (by simp)] at hnew
    cases hnew.symm.trans hgiven.stands.dir
  obtain ⟨v, hw⟩ : ∃ v : Supervision, v = ⟨b, b.workspace k, true, 50⟩ := ⟨_, rfl⟩
  obtain ⟨v', hw'⟩ : ∃ v : Supervision, v = ⟨b, b.workspace k', true, 50⟩ := ⟨_, rfl⟩
  have hapart : v' ≠ v := by simp [hw, hw', workspace, hne]
  have hoverlap := (((((Overlap.untouched (b := b) (s := Call.bare)).allocated clock hrun).allocated clock
    hrun').entered (v := v) clock (by rw [hw]) (by simp [hw]) (by simp)).entered (v := v') clock (by rw [hw'])
    (by simp [hw']) (by simp [hw, hw', workspace, hne.symm])).exited (v := v) clock (by simp)
    (by simp [Exited]) (some .endless)
  have hlast := running_iff hv hoverlap
  refine ⟨v, v', _, by simpa [hw, hw'] using hoverlap, (hlast.1 _).2 ⟨v', rfl, rfl, ?_⟩, hlast.2.1⟩
  simp [Exited, hapart]

end BuildDir

end FlowPlan

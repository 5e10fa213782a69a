import FlowPlan.Proofs.Outcome
import FlowPlan.Proofs.Sound
import FlowPlan.Shell.Run

/-!
# Histories of builds

Builds follow one another in a build root that was empty at first. After each of them the pointers
and the records tell how the last ones have ended.

## Main definitions

* `Builder.Vacant` — a build root that is missing or empty.
* `Call` — a build with its time and its document.
* `Call.history` — what a list of builds leaves, and how each of them has ended.
* `Run.Told` — the pointers and the records tell how the builds have ended.

## Main statements

* `Call.told_make` — one more build.
* `Call.told_history` — a whole history.
-/

namespace FlowPlan

open FlowPlan.Action Site Pointers Workspace

/-- The build root can be made, and nothing is in it. No log is open and nobody holds the lock. -/
structure Builder.Vacant (root : Path) (A : Address) (s : Site) : Prop where
  made : ∃ d, s.disk.makeDirs root = .ok d ∧ Disk.Rooted Disk.maxLinks d root A ∧
    ∀ a, Address.Below A a → d.find? a = none
  journal : s.journal.file = none
  free : A ++ [".lock"] ∉ s.locked

theorem Builder.Vacant.of_clock {root : Path} {A : Address} {s : Site} (h : Builder.Vacant root A s)
    (now : Instant) : Builder.Vacant root A { s with clock := now } := ⟨h.made, h.journal, h.free⟩

/-- How a build has ended. -/
structure Run where
  key : String
  succeeded : Bool
  deriving DecidableEq, Repr

namespace Run

/-- The keys of the builds that have succeeded; the last build comes first. -/
def succeededKeys (runs : List Run) : List String := (runs.filter (·.succeeded)).map (·.key)

def failedKeys (runs : List Run) : List String := (runs.filter (!·.succeeded)).map (·.key)

/-- The record of a build says how it has ended. -/
def status (r : Run) : String := if r.succeeded then Record.completed else Record.aborted

/-- The bindings tell of the last builds; the last one comes first. -/
structure Bound (f : String → Option Json) (runs : List Run) : Prop where
  running : f running = none
  latest : f latest = (runs.head?.map (·.key)).map .str
  compiled : f compiled = (succeededKeys runs)[0]?.map .str
  compiledBackup : f compiledBackup = (succeededKeys runs)[1]?.map .str
  aborted : f aborted = (failedKeys runs)[0]?.map .str

/-- Every build has a later key than those before it. -/
def Ascending (runs : List Run) : Prop := runs.Pairwise fun r r' => Text.lt r'.key r.key = true

/-- The pointers and the records tell how the builds have ended: the aliases are bound to the keys of
the last ones, every one of them to another workspace, whose record says the same. -/
structure Told (root : Path) (d : Disk) (runs : List Run) : Prop where
  bound : Bound (Pointers.bound ⟨root, true⟩ d) runs
  workspace : ∀ n ∈ aliases, ∀ k, Pointers.bound ⟨root, true⟩ d n = some (.str k) →
    d.isDir (root.child k) = true
  completed : ∀ n ∈ [Pointers.compiled, Pointers.compiledBackup], ∀ k,
    Pointers.bound ⟨root, true⟩ d n = some (.str k) →
      (Workspace.mk root k).status? d = some (.str Record.completed)
  aborted : ∀ k, Pointers.bound ⟨root, true⟩ d Pointers.aborted = some (.str k) →
    (Workspace.mk root k).status? d = some (.str Record.aborted)
  different : [Pointers.compiled, Pointers.compiledBackup, Pointers.aborted].Pairwise fun m n =>
    ∀ v, Pointers.bound ⟨root, true⟩ d m = some v → Pointers.bound ⟨root, true⟩ d n ≠ some v

variable {f : String → Option Json} {runs : List Run} {key : String}

theorem Bound.run_of_compiled (h : Bound f runs) {n k : String}
    (hn : n ∈ [Pointers.compiled, Pointers.compiledBackup]) (hk : f n = some (.str k)) :
    ∃ r ∈ runs, r.succeeded = true ∧ r.key = k := by
  have hmem : k ∈ succeededKeys runs := by
    simp only [List.mem_cons, List.not_mem_nil, or_false] at hn
    rcases hn with rfl | rfl
    · exact List.mem_of_getElem? (by simpa [h.compiled] using hk)
    · exact List.mem_of_getElem? (by simpa [h.compiledBackup] using hk)
  obtain ⟨r, hr, rfl⟩ := List.mem_map.1 hmem
  exact ⟨r, (List.mem_filter.1 hr).1, (List.mem_filter.1 hr).2, rfl⟩

theorem Bound.text (h : Bound f runs) {v : Json} (hv : f Pointers.aborted = some v) :
    ∃ k, v = .str k := by
  rw [h.aborted] at hv
  obtain ⟨k, -, rfl⟩ := Option.map_eq_some_iff.1 hv
  exact ⟨k, rfl⟩

theorem Bound.run_of_aborted (h : Bound f runs) {k : String}
    (hk : f Pointers.aborted = some (.str k)) : ∃ r ∈ runs, r.succeeded = false ∧ r.key = k := by
  have hmem : k ∈ failedKeys runs := List.mem_of_getElem? (i := 0) (by simpa [h.aborted] using hk)
  obtain ⟨r, hr, rfl⟩ := List.mem_map.1 hmem
  exact ⟨r, (List.mem_filter.1 hr).1, by simpa using (List.mem_filter.1 hr).2, rfl⟩

/-- Every alias is bound to the key of a build. -/
theorem Bound.run (h : Bound f runs) {n k : String} (hn : n ∈ aliases) (hk : f n = some (.str k)) :
    ∃ r ∈ runs, r.key = k := by
  simp only [aliases, List.mem_cons, List.not_mem_nil, or_false] at hn
  rcases hn with rfl | rfl | rfl | hn
  · cases runs with
    | nil => simp [h.latest] at hk
    | cons r runs => exact ⟨r, List.mem_cons_self, by simpa [h.latest] using hk⟩
  · simp [h.running] at hk
  · obtain ⟨r, hr, -, hkey⟩ := h.run_of_aborted hk
    exact ⟨r, hr, hkey⟩
  · obtain ⟨r, hr, -, hkey⟩ := h.run_of_compiled (by simpa using hn) hk
    exact ⟨r, hr, hkey⟩

theorem Ascending.eq_of_key (h : Ascending runs) {r r' : Run} (hr : r ∈ runs) (hr' : r' ∈ runs)
    (hkey : r.key = r'.key) : r = r' := by
  induction runs with
  | nil => cases hr
  | cons x runs ih =>
    obtain ⟨hx, h⟩ := List.pairwise_cons.1 h
    rcases List.mem_cons.1 hr with hr | hr <;> rcases List.mem_cons.1 hr' with hr' | hr'
    · rw [hr, hr']
    · exact absurd (hr ▸ hkey.symm) (Text.ne_of_lt (hx r' hr'))
    · exact absurd (hr' ▸ hkey) (Text.ne_of_lt (hx r hr))
    · exact ih h hr hr'

theorem Ascending.succeededKeys (h : Ascending runs) :
    (succeededKeys runs).Pairwise fun k k' => Text.lt k' k = true :=
  List.pairwise_map.2 (h.filter _)

theorem Bound.different (h : Bound f runs) (hascending : Ascending runs) :
    [Pointers.compiled, Pointers.compiledBackup, Pointers.aborted].Pairwise fun m n =>
      ∀ v, f m = some v → f n ≠ some v := by
  have hfails : ∀ n ∈ [Pointers.compiled, Pointers.compiledBackup], ∀ v, f n = some v →
      f Pointers.aborted ≠ some v := by
    intro n hn v hv hv'
    obtain ⟨k, rfl⟩ := h.text hv'
    obtain ⟨r, hr, hsucceeded, hkey⟩ := h.run_of_compiled hn hv
    obtain ⟨r', hr', hfailed, hkey'⟩ := h.run_of_aborted hv'
    rw [hascending.eq_of_key hr hr' (hkey.trans hkey'.symm), hfailed] at hsucceeded
    cases hsucceeded
  have hbackup : ∀ v, f Pointers.compiled = some v → f Pointers.compiledBackup ≠ some v := by
    intro v hv hv'
    rw [h.compiled] at hv
    rw [h.compiledBackup] at hv'
    have hkeys := hascending.succeededKeys
    match hlist : Run.succeededKeys runs with
    | [] => simp [hlist] at hv
    | [k] => simp [hlist] at hv'
    | k :: k' :: ks =>
      rw [hlist] at hv hv' hkeys
      have hlt := (List.pairwise_cons.1 hkeys).1 k' List.mem_cons_self
      have hsame : k' = k := by simpa using hv'.trans hv.symm
      exact absurd hsame (Text.ne_of_lt hlt)
  simp only [List.pairwise_cons, List.mem_cons, List.not_mem_nil, or_false, forall_eq_or_imp,
    forall_eq, false_implies, implies_true, List.Pairwise.nil, and_true]
  exact ⟨⟨hbackup, hfails _ (by simp)⟩, hfails _ (by simp)⟩

@[simp] theorem succeededKeys_true : succeededKeys (⟨key, true⟩ :: runs) = key :: succeededKeys runs :=
  rfl

@[simp] theorem succeededKeys_false : succeededKeys (⟨key, false⟩ :: runs) = succeededKeys runs := rfl

@[simp] theorem failedKeys_true : failedKeys (⟨key, true⟩ :: runs) = failedKeys runs := rfl

@[simp] theorem failedKeys_false : failedKeys (⟨key, false⟩ :: runs) = key :: failedKeys runs := rfl

theorem Bound.failed (h : Bound f runs) :
    Bound (rebound (rebound (Supervision.entered f key) (Pointers.aborted, .str key))
      (Pointers.running, .null)) (⟨key, false⟩ :: runs) := by
  have hcompiled := h.compiled
  have hbackup := h.compiledBackup
  constructor <;>
    simp_all [Supervision.entered, rebound_text, rebound_absent, Pointers.running, Pointers.latest,
      Pointers.compiled, Pointers.compiledBackup, Pointers.aborted]

/-- The first build that succeeds has no backup. -/
theorem Bound.first (h : Bound f runs) (hnone : f Pointers.compiled = none) :
    Bound (rebound (rebound (Supervision.entered f key) (Pointers.compiled, .str key))
      (Pointers.running, .null)) (⟨key, true⟩ :: runs) := by
  have hempty : succeededKeys runs = [] := by
    cases hkeys : succeededKeys runs with
    | nil => rfl
    | cons k ks => simp [h.compiled, hkeys] at hnone
  have hbackup := h.compiledBackup
  have haborted := h.aborted
  constructor <;>
    simp_all [Supervision.entered, rebound_text, rebound_absent, Pointers.running, Pointers.latest,
      Pointers.compiled, Pointers.compiledBackup, Pointers.aborted]

/-- The compiled key becomes the backup. -/
theorem Bound.next (h : Bound f runs) {previous : String}
    (hsome : f Pointers.compiled = some (.str previous)) :
    Bound (rebound (rebound (rebound (Supervision.entered f key)
      (Pointers.compiledBackup, .str previous)) (Pointers.compiled, .str key))
      (Pointers.running, .null)) (⟨key, true⟩ :: runs) := by
  have hcompiled := h.compiled.symm.trans hsome
  have haborted := h.aborted
  constructor <;>
    simp_all [Supervision.entered, rebound_text, rebound_absent, Pointers.running, Pointers.latest,
      Pointers.compiled, Pointers.compiledBackup, Pointers.aborted]

end Run

/-! ## An orderly build root -/

namespace Builder

open Supervision

/-- What an earlier build has left: its record says how it has ended. -/
def Recorded (root : Path) (A : Address) (d : Disk) (r : Run) : Prop :=
  d.find? (A ++ [r.key]) = some .dir ∧
    ∃ rec, Records ⟨root, r.key⟩ A d rec ∧ rec.status = .str r.status

/-- A build root in which these builds have taken place, and nothing else. -/
structure Orderly (root : Path) (A : Address) (s : Site) (runs : List Run) : Prop where
  rooted : Disk.Rooted Disk.maxLinks s.disk root A
  closed : Disk.Closed A s.disk
  journal : s.journal.file = none
  lock : ∀ e, s.disk.find? (A ++ [".lock"]) = some e → e.isFile = true
  clear : ∀ n ∈ aliases, s.disk.Clear A n
  store : ∀ e, s.disk.find? (A ++ [storeName]) = some e → ∃ fs, e = .file (.json (.obj fs))
  ascending : Run.Ascending runs
  isKey : ∀ r ∈ runs, Key.IsKey r.key
  /-- No key is later than the latest one. -/
  last : ∀ key, Key.IsKey key → s.disk.find? (A ++ [key]) ≠ none →
    ∃ r, runs.head? = some r ∧ Text.le key r.key = true
  bound : Run.Bound (Pointers.bound ⟨root, true⟩ s.disk) runs
  recorded : ∀ r ∈ runs, Recorded root A s.disk r

variable {root : Path} {A : Address} {s s₁ s₂ s₃ s₄ : Site} {runs : List Run} {b : Builder}
  {key : String}

theorem Orderly.sound (h : Orderly root A s runs) : Sound root A s.disk := by
  refine ⟨h.rooted, h.closed, h.lock, h.clear, h.store, fun v hv => ?_⟩
  obtain ⟨k, -, rfl⟩ := Option.map_eq_some_iff.1 (h.bound.compiled.symm.trans hv)
  obtain ⟨r, hr, -, rfl⟩ := h.bound.run_of_compiled (by simp) hv
  exact ⟨r.key, rfl, (h.isKey r hr).isKeyName, (h.recorded r hr).1⟩

theorem Orderly.standing (h : Orderly b.settings.root A s runs) : Standing b A s := h.sound.standing h.journal

theorem Orderly.apart (h : Orderly b.settings.root A s runs) :
    s.disk.locate (Lock.path b.settings.root) ≠ s.disk.locate b.pointers.path := h.sound.apart

/-- The lock changes nothing but its own file. -/
theorem Orderly.of_locked (h : Orderly root A s runs) (hroot : b.settings.root = root) {a : Address}
    (hacq : Lock.Acquired b.settings.root s (.ok a) s₁) (hlocked : Locked b A s s₁) :
    Orderly root A s₁ runs := by
  subst hroot
  have hother : ∀ c, c ≠ A ++ [".lock"] → s₁.disk.find? c = s.disk.find? c := by
    intro c hc
    rcases hacq.disk with hdisk | ⟨a', hlocate, hwrote⟩
    · rw [hdisk]
    · rw [h.sound.locate_lock] at hlocate
      cases hlocate
      exact hwrote.kept c hc
  have hchild : ∀ n, n ≠ ".lock" → s₁.disk.find? (A ++ [n]) = s.disk.find? (A ++ [n]) :=
    fun n hn => hother _ (by simpa using hn)
  obtain ⟨hlocate, hmark⟩ := hacq.marked a rfl
  rw [h.sound.locate_lock] at hlocate
  cases hlocate
  have hload := (hlocked.kept h.apart).2
  refine ⟨hlocked.ready.rooted, hlocked.closed, by rw [hlocked.journal, h.journal], ?_, ?_, ?_,
    h.ascending, h.isKey, ?_, ?_, ?_⟩
  · rw [hmark]
    rintro e ⟨⟩
    rfl
  · intro n hn
    exact (hlocked.dirs.clear A n).2 (h.clear n hn)
  · rw [hchild storeName (by decide)]
    exact h.store
  · intro key hkey
    rw [hchild key (hkey.isKeyName.ne (by decide))]
    exact h.last key hkey
  · have hbound : Pointers.bound ⟨b.settings.root, true⟩ s₁.disk =
        Pointers.bound ⟨b.settings.root, true⟩ s.disk := bound_congr hload
    rw [hbound]
    exact h.bound
  · rintro r hr
    obtain ⟨hdir, rec, hrec, hstatus⟩ := h.recorded r hr
    refine ⟨(hchild _ ((h.isKey r hr).isKeyName.ne (by decide))).trans hdir, rec, ?_, hstatus⟩
    exact (hother _ (by simp)).trans hrec

theorem Orderly.dated (h : Orderly root A s runs) : Dated root A s := by
  refine ⟨h.sound, h.journal, fun v hv => ?_⟩
  rw [h.bound.latest] at hv
  cases runs with
  | nil => cases hv
  | cons r runs =>
    cases hv
    exact ⟨r.key, rfl, h.isKey r List.mem_cons_self⟩

/-- There is a key for the next build, and it is later than those of all builds before. -/
theorem Orderly.nextKey (h : Orderly root A s runs) (hclock : s.clock.IsClock) (links : Bool)
    {B : Bindings} (hload : Pointers.load ⟨root, links⟩ s.disk = .ok B) :
    ∃ l key, BuildDir.latestKey ((Assoc.find? B latest).getD .null) = .ok l ∧
      (BuildDir.mk root links).nextKey s l = some key ∧ Key.IsKey key ∧
      ∀ r ∈ runs, Text.lt r.key key = true := by
  obtain ⟨l, key, hlatest, hnext, hkey, hlater⟩ := h.dated.nextKey hclock hload
  refine ⟨l, key, hlatest, hnext, hkey, fun r hr => ?_⟩
  have hbound := h.bound.latest
  cases runs with
  | nil => cases hr
  | cons r' runs =>
    have hlast := hlater r'.key (by rw [hbound]; rfl)
    rcases List.mem_cons.1 hr with rfl | hr
    · exact hlast
    · exact Text.lt_trans ((List.pairwise_cons.1 h.ascending).1 r hr) hlast

/-- Nothing is bound in a vacant build root. -/
theorem Vacant.bound (h : Vacant root A s) (name : String) :
    Pointers.bound ⟨root, true⟩ s.disk name = none := by
  obtain ⟨⟨d, hmade, hd, hnone⟩, -, -⟩ := h
  have hextends := Disk.of_makeDirs hmade
  cases hlocate : s.disk.locate (Pointers.path ⟨root, true⟩) with
  | error cause => simp [Pointers.bound, Pointers.load, Disk.exists?, Disk.lookup?, hlocate]
  | ok a =>
    refine bound_of_missing hlocate (Classical.byContradiction fun hne => ?_) name
    have hlocate' := hextends.grows.locate hlocate fun h _ _ => absurd h hne
    have hchild : d.find? (A ++ [storeName]) = none := hnone _ (Disk.below_child A _)
    have heq : d.locate (Pointers.path ⟨root, true⟩) = .ok (A ++ [storeName]) :=
      hd.locate_child isName_storeName.1 fun _ t ht => by
        rw [hchild] at ht
        cases ht
    rw [heq] at hlocate'
    cases hlocate'
    exact hne ((hextends.kept _ hne).symm.trans hchild)

/-- What a build changes in its root beside the pointers: a new directory. -/
structure Added (A : Address) (key : String) (s s' : Site) : Prop where
  own : ∀ n, n ≠ key → ¬ IsReserved n → s'.disk.find? (A ++ [n]) = s.disk.find? (A ++ [n])
  dirs : ∀ n, n ≠ key → (s'.disk.find? (A ++ [n]) = some .dir ↔ s.disk.find? (A ++ [n]) = some .dir)
  dir : s'.disk.find? (A ++ [key]) = some .dir
  others : ∀ k, k ≠ key → s'.disk.find? (A ++ [k] ++ [recordName]) =
    s.disk.find? (A ++ [k] ++ [recordName])

theorem added_of_passes {w : Workspace} (ha : b.directory.Allocated A w.key s₁ s₂)
    (ho : Opened w A s₂ s₃) (hp : Passes w A s₃ s₄) : Added A w.key s₁ s₄ := by
  have hchild : ∀ n, n ≠ w.key → s₃.disk.find? (A ++ [n]) = s₁.disk.find? (A ++ [n]) :=
    fun n hn => (ho.kept _ (by simp)).trans (ha.kept _ (by simpa using hn) (by simp))
  refine ⟨fun n hn hreserved => (hp.own n hreserved).trans (hchild n hn), fun n hn => ?_, ?_,
    fun k hk => ?_⟩
  · rw [hp.dirs, hchild n hn]
  · rw [hp.dirs, ho.kept _ (by simp)]
    exact ha.dir
  · rw [hp.others k hk, ho.kept _ (by simp [hk]), ha.kept _ (by simp) (by simp [hk])]

/-- One more build in an orderly root. -/
theorem Orderly.add (h : Orderly root A s runs) {r : Run} (hkey : Key.IsKey r.key)
    (hlater : ∀ r' ∈ runs, Text.lt r'.key r.key = true) (ha : Added A r.key s s₁)
    (hrooted : Disk.Rooted Disk.maxLinks s₁.disk root A) (hclosed : Disk.Closed A s₁.disk)
    (hjournal : s₁.journal.file = none)
    (hstore : ∃ fs, s₁.disk.find? (A ++ [storeName]) = some (.file (.json (.obj fs))))
    (hbound : Run.Bound (Pointers.bound ⟨root, true⟩ s₁.disk) (r :: runs))
    (hrecorded : Recorded root A s₁.disk r) : Orderly root A s₁ (r :: runs) := by
  have hne : ∀ r' ∈ runs, r'.key ≠ r.key := fun r' hr' => Text.ne_of_lt (hlater r' hr')
  have hreserved : ∀ n, IsReserved n → n ≠ r.key := by
    rintro n hn rfl
    exact ne_reserved_of_isKeyName hkey.isKeyName hn
  refine ⟨hrooted, hclosed, hjournal, ?_, ?_, ?_, List.pairwise_cons.2 ⟨hlater, h.ascending⟩, ?_, ?_,
    hbound, ?_⟩
  · rw [ha.own ".lock" (hkey.isKeyName.ne (by decide)).symm ne_reserved_lock]
    exact h.lock
  · intro n hn
    have hlink := hreserved n (.inr ⟨n, hn, .inl rfl⟩)
    have htemporary := hreserved (Path.temporary n) (.inr ⟨n, hn, .inr rfl⟩)
    unfold Disk.Clear
    simp only [ne_eq, ha.dirs _ hlink, ha.dirs _ htemporary]
    exact h.clear n hn
  · obtain ⟨fs, hfs⟩ := hstore
    rw [hfs]
    rintro e ⟨⟩
    exact ⟨fs, rfl⟩
  · intro r' hr'
    rcases List.mem_cons.1 hr' with rfl | hr'
    · exact hkey
    · exact h.isKey r' hr'
  · intro key hk hsome
    refine ⟨r, rfl, ?_⟩
    by_cases heq : key = r.key
    · rw [heq]
      exact Text.le_refl _
    · rw [ha.own key heq (ne_reserved_of_isKeyName hk.isKeyName)] at hsome
      obtain ⟨r', hr', hle⟩ := h.last key hk hsome
      exact Text.le_trans hle (Text.le_of_lt (hlater r' (List.mem_of_mem_head? hr')))
  · intro r' hr'
    rcases List.mem_cons.1 hr' with rfl | hr'
    · exact hrecorded
    · obtain ⟨hdir, rec, hrec, hstatus⟩ := h.recorded r' hr'
      exact ⟨(ha.dirs _ (hne r' hr')).2 hdir, rec, (ha.others _ (hne r' hr')).trans hrec, hstatus⟩

/-- The key that is superseded in an orderly root, if there is one. -/
theorem previous_cases {p : Pointers} {d : Disk} (h : ∀ r ∈ runs, Key.IsKey r.key)
    (hlater : ∀ r ∈ runs, Text.lt r.key key = true)
    (hbound : p.bound d compiled = (Run.succeededKeys runs)[0]?.map .str) :
    (p.bound d compiled = none ∧ ¬ p.Supersedes d key) ∨
      ∃ k, Key.IsKey k ∧ p.bound d compiled = some (.str k) ∧ p.previous d = .str k ∧
        p.Supersedes d key := by
  cases hkeys : Run.succeededKeys runs with
  | nil =>
    have hnone : p.bound d compiled = none := by simpa [hkeys] using hbound
    exact .inl ⟨hnone, fun hsup => hsup.1 (by simp [previous, hnone])⟩
  | cons k ks =>
    have hsome : p.bound d compiled = some (.str k) := by simpa [hkeys] using hbound
    have hprevious : p.previous d = .str k := by simp [previous, hsome]
    obtain ⟨r, hr, rfl⟩ := List.mem_map.1 (hkeys ▸ List.mem_cons_self : k ∈ Run.succeededKeys runs)
    have hmem := (List.mem_filter.1 hr).1
    have hne := Text.ne_of_lt (hlater r hmem)
    exact .inr ⟨r.key, h r hmem, hsome, hprevious, by simp [hprevious], by simpa [hprevious] using hne⟩

/-- The attempt of a build in an orderly root: every link can be made, so it ends with success or
with the failure of a phase, and is recorded as such. -/
theorem Orderly.course {w : Workspace} {document : Json} {r : Except Fault Built}
    (h : Orderly root A s runs) (hroot : b.settings.root = root) (hkey : Key.IsKey w.key)
    (hlater : ∀ r' ∈ runs, Text.lt r'.key w.key = true) (hp : Prepared b A w s s₁)
    (hpass : Passes w A s₁ s₂) (hc : Course b A w document s₁ r s₂) :
    Run.Bound (Pointers.bound ⟨root, true⟩ s₂.disk) (⟨w.key, r.toBool⟩ :: runs) ∧
      Recorded root A s₂.disk ⟨w.key, r.toBool⟩ := by
  subst hroot
  have hlinks : ∀ d, b.pointers.bound d = Pointers.bound ⟨b.settings.root, true⟩ d := fun _ => rfl
  have hbound : Run.Bound (b.pointers.bound s₁.disk) runs := by
    rw [hp.bound]
    exact h.bound
  have hclear : ∀ n ∈ aliases, s₁.disk.Clear A n := fun n hn => (hp.clear hn).2 (h.clear n hn)
  have hunblocked : ∀ n ∈ aliases, ∀ k, Key.IsKey k →
      ¬ b.pointers.Blocked s₁.disk A (n, .str k) := by
    intro n hn k hk
    rw [blocked_key hk.isKeyName]
    exact fun hb => hb.2 (hclear n hn)
  have hdir : s₂.disk.find? (A ++ [w.key]) = some .dir := (hpass.dirs w.key).2 hp.stands.dir
  have hcompiled : ∀ {t : Site}, b.pointers.bound t.disk = entered (b.pointers.bound s₁.disk) w.key →
      b.pointers.bound t.disk compiled = (Run.succeededKeys runs)[0]?.map .str := by
    intro t ht
    rw [ht, entered_compiled _ (by simp), hbound.compiled]
  cases hc with
  | unentered blocked =>
    rcases blocked with hb | hb
    · exact absurd hb (hunblocked _ (by simp [aliases]) _ hkey)
    · exact absurd hb (hunblocked _ (by simp [aliases]) _ hkey)
  | rejected s₃ s₄ f _ _ _ error bound failed =>
    obtain ⟨g, rfl⟩ := error
    have hshown : ¬ b.pointers.Blocked s₄.disk A (aborted, .str w.key) := by
      rw [← failed.passes.blocked, hpass.blocked]
      exact hunblocked _ (by simp [aliases]) _ hkey
    have hends : b.pointers.bound s₂.disk = rebound (rebound (b.pointers.bound s₄.disk)
      (aborted, .str w.key)) (running, .null) := failed.shown_running hshown ((congrFun bound running).trans
        (rebound_str _ _ _))
    obtain ⟨rec, hrec, hstatus⟩ := failed.ended.status
    refine ⟨?_, hdir, rec, hrec, hstatus⟩
    rw [← hlinks, hends, bound]
    exact hbound.failed
  | unpromoted s₃ s₄ s₅ j f _ _ _ _ bound promoted failed =>
    have hsame := blocked_of_passes (p := b.pointers) hpass failed.passes promoted.sameDirs
    obtain ⟨x, hx⟩ := promoted.ok.2 <| by
      refine ⟨fun hsup => ?_, fun hb => hunblocked compiled (by simp [aliases]) _ hkey
        ((hsame _ (by simp [aliases])).1 hb)⟩
      rcases previous_cases h.isKey hlater (hcompiled bound) with ⟨-, hnot⟩ | ⟨k, hk, -, hprevious, -⟩
      · exact absurd hsup hnot
      · rw [hprevious, hsame _ (by simp [aliases])]
        exact hunblocked _ (by simp [aliases]) _ hk
    cases hx
  | completed s₃ s₄ s₅ j built _ _ _ ok _ bound₂ promoted ended bound =>
    subst ok
    obtain ⟨rec, hrec, hstatus⟩ := ended.status
    refine ⟨?_, hdir, rec, hrec, hstatus⟩
    rw [← hlinks, bound]
    rcases previous_cases h.isKey hlater (hcompiled bound₂) with
      ⟨hnone, hnot⟩ | ⟨k, hk, hsome, hprevious, hsup⟩
    · rw [promoted.first hnot, bound₂]
      refine hbound.first ?_
      rw [← hnone, bound₂, entered_compiled _ (by simp)]
    · rw [promoted.moved hsup ((promoted.ok.1 ⟨_, rfl⟩).1 hsup), hprevious, bound₂]
      refine hbound.next ?_
      rw [← hsome, bound₂, entered_compiled _ (by simp)]

end Builder

/-! ## Calls -/

/-- A build with its time and its document. -/
structure Call where
  clock : Instant
  builder : Builder
  document : Json

namespace Call

open Builder

/-- The site as the build finds it. -/
def found (c : Call) (s : Site) : Site := { s with clock := c.clock }

/-- The key of the workspace that the build is given, if it is given one. -/
def key? (c : Call) (s : Site) : Option String :=
  (c.builder.opening.run (c.found s)).1.toOption.map (·.key)

/-- One more build, after those that have ended. -/
def make (c : Call) (h : Site × List (Option Run)) : Site × List (Option Run) :=
  let ended := (c.builder.run c.document).run (c.found h.1)
  (ended.2, (c.key? h.1).map (⟨·, ended.1.toBool⟩) :: h.2)

/-- What builds that follow one another leave, and how each of them has ended; the last comes
first. -/
def history (s : Site) (calls : List Call) : Site × List (Option Run) :=
  calls.foldl (fun h c => c.make h) (s, [])

/-- The time has a year of four digits, the settings are for this build root and make sense, the units
have plain names and the commands leave the build root alone. -/
structure Accepted (root : Path) (A : Address) (c : Call) : Prop where
  clock : c.clock.IsClock
  root : c.builder.settings.root = root
  check : c.builder.settings.check = .ok ()
  discreet : c.builder.Discreet A

variable {root : Path} {A : Address} {c : Call} {s : Site} {runs : List Run}

theorem orderly_found (h : Orderly root A s runs) (c : Call) : Orderly root A (c.found s) runs :=
  ⟨h.rooted, h.closed, h.journal, h.lock, h.clear, h.store, h.ascending, h.isKey, h.last, h.bound,
    h.recorded⟩

/-- The time has a year of four digits, and the settings are for this build root and make sense. -/
structure Sensible (root : Path) (c : Call) : Prop where
  clock : c.clock.IsClock
  root : c.builder.settings.root = root
  check : c.builder.settings.check = .ok ()

theorem Accepted.sensible (h : c.Accepted root A) : c.Sensible root := ⟨h.clock, h.root, h.check⟩

/-- How a build begins in an orderly root: it takes the lock, is given a workspace and opens the log. -/
structure Started (c : Call) (root : Path) (A : Address) (runs : List Run) (s : Site) (key : String)
    (s₁ s₂ s₃ : Site) : Prop where
  isKey : Key.IsKey key
  later : ∀ r ∈ runs, Text.lt r.key key = true
  lock : (Lock.acquire (Lock.path root) c.builder.wait).run s = (.ok (A ++ [".lock"]), s₁)
  acquired : Lock.Acquired root s (.ok (A ++ [".lock"])) s₁
  locked : Locked c.builder A s s₁
  orderly : Orderly root A s₁ runs
  allocate : c.builder.directory.allocate.run s₁ = (.ok (c.builder.directory.workspace key), s₂)
  allocated : c.builder.directory.Allocated A key s₁ s₂
  log : (Session.openLog (c.builder.directory.workspace key).logPath c.builder.settings.logLevel c.builder.style
    !c.builder.quiet).run s₂ = (.ok (), s₃)
  opened : Opened (c.builder.directory.workspace key) A s₂ s₃
  prepared : Prepared c.builder A (c.builder.directory.workspace key) s s₃

/-- In an orderly root a build begins. -/
theorem orderly_start (h : Orderly root A s runs) (hfree : A ++ [".lock"] ∉ s.locked)
    (hc : c.Sensible root) (hclock : s.clock = c.clock) : ∃ key s₁ s₂ s₃, c.Started root A runs s key s₁ s₂ s₃ := by
  obtain ⟨clock, b, document⟩ := c
  obtain ⟨hisClock, rfl, hcheck⟩ := hc
  dsimp only at hisClock hcheck h hclock
  obtain ⟨s₁, hlock, hacq⟩ := Lock.acquire_free h.rooted h.lock hfree b.wait
  obtain ⟨r₁, s₁', hlock', -, hlocked⟩ := acquire_standing h.standing
  rw [hlock] at hlock'
  cases hlock'
  have h₁ := h.of_locked rfl hacq hlocked
  -- The workspace of the build.
  obtain ⟨B, hload⟩ := h₁.sound.load b.settings.links
  obtain ⟨l, key, hlatest, hnext, hkey, hlater⟩ :=
    h₁.nextKey (by rw [hacq.clock, hclock]; exact hisClock) b.settings.links hload
  rcases BuildDir.allocate_run (b := b.directory) hlocked.ready h₁.closed h₁.journal hload with
    ⟨f, -, hnone⟩ | ⟨key', l', s₂, hallocate, hallocated, hlatest', hnext'⟩
  · have := hnone l hlatest
    rw [show b.directory.nextKey s₁ l = some key from hnext] at this
    cases this
  rw [hlatest] at hlatest'
  cases hlatest'
  rw [show b.directory.nextKey s₁ l = some key from hnext] at hnext'
  cases hnext'
  -- Its log.
  have hprepared := prepared_of_allocated hlocked h.journal h.apart hallocated
  have hnone : s₂.disk.find? (A ++ [key] ++ [logName]) = none := by
    rw [hallocated.kept _ (by simp) (by simp; decide)]
    exact hlocked.closed key _ (by simp [hallocated.free])
  rcases openLog_run hprepared.stands hnone b.settings.logLevel b.style !b.quiet with
    ⟨f, hunknown, -⟩ | ⟨s₃, hlog, hopened⟩
  · exact absurd hunknown (threshold_of_check hcheck f)
  exact ⟨key, s₁, s₂, s₃, hkey, hlater, hlock, hacq, hlocked, h₁, hallocate, hallocated, hlog, hopened,
    prepared_of_opened hprepared hnone hopened⟩

/-- How a build goes in an orderly root: it begins and attempts to fill its workspace. -/
structure Attempted (c : Call) (root : Path) (A : Address) (runs : List Run) (s : Site) (key : String)
    (r : Except Fault Built) (s₁ s₂ s₃ s₄ : Site) : Prop extends c.Started root A runs s key s₁ s₂ s₃ where
  passes : Passes (c.builder.directory.workspace key) A s₃ s₄
  stored : ∃ fs, s₄.disk.find? (A ++ [storeName]) = some (.file (.json (.obj fs)))
  course : Course c.builder A (c.builder.directory.workspace key) c.document s₃ r s₄
  run : (c.builder.run c.document).run s = (r, { s₄ with
    journal := { s₄.journal with file := none, console := false },
    locked := s₄.locked.erase (A ++ [".lock"]) })

/-- One more build in an orderly root attempts to fill a workspace. -/
theorem orderly_run (h : Orderly root A s runs) (hfree : A ++ [".lock"] ∉ s.locked)
    (hc : c.Accepted root A) (hclock : s.clock = c.clock) :
    ∃ key r s₁ s₂ s₃ s₄, c.Attempted root A runs s key r s₁ s₂ s₃ s₄ := by
  obtain ⟨key, s₁, s₂, s₃, hstart⟩ := orderly_start h hfree hc.sensible hclock
  have hroot := hc.root
  subst hroot
  rcases allocated_run hc.discreet h.standing hstart.lock hstart.locked h.apart hstart.allocate hstart.allocated
    c.document with ⟨f, hunknown, -⟩ | ⟨r, s₃', s₄, hlog, -, -, hpasses, hstored, hcourse, hended⟩
  · exact absurd hunknown (threshold_of_check hc.check f)
  obtain rfl : s₃ = s₃' := congrArg Prod.snd (hstart.log.symm.trans hlog)
  exact ⟨key, r, s₁, s₂, s₃, s₄, hstart, hpasses, hstored, hcourse, hended⟩

/-- One more build in an orderly root is given a workspace, and leaves the root orderly. -/
theorem orderly_make (h : Orderly root A s runs) (hfree : A ++ [".lock"] ∉ s.locked)
    (hc : c.Accepted root A) (done : List (Option Run)) :
    ∃ r s', c.make (s, done) = (s', some r :: done) ∧ Orderly root A s' (r :: runs) ∧
      A ++ [".lock"] ∉ s'.locked := by
  have h₀ := orderly_found h c
  obtain ⟨key, r, s₁, s₂, s₃, s₄, ha⟩ := orderly_run h₀ hfree hc rfl
  have hroot := hc.root
  subst hroot
  have hopening := opening_of_ok ha.lock ha.allocate
  obtain ⟨s', hs'⟩ : ∃ s', s' = ((c.builder.run c.document).run (c.found s)).2 := ⟨_, rfl⟩
  have hdisk : s'.disk = s₄.disk := by rw [hs', ha.run]
  have hadded := added_of_passes (w := c.builder.directory.workspace key) ha.allocated ha.opened ha.passes
  obtain ⟨hbound, hrecorded⟩ := h₀.course rfl ha.isKey ha.later ha.prepared ha.passes ha.course
  have hstands := ha.passes.stands ha.prepared.stands
  refine ⟨⟨key, r.toBool⟩, s', ?_, ha.orderly.add ha.isKey ha.later ?_ ?_ ?_ ?_ ?_ ?_ ?_, ?_⟩
  · unfold make key?
    dsimp only
    rw [hopening, hs', ha.run]
    rfl
  · exact ⟨hdisk ▸ hadded.own, hdisk ▸ hadded.dirs, hdisk ▸ hadded.dir, hdisk ▸ hadded.others⟩
  · rw [hdisk]
    exact hstands.ready.rooted
  · rw [hdisk]
    exact ha.passes.closed
  · rw [hs', ha.run]
  · rw [hdisk]
    exact ha.stored
  · rw [hdisk]
    exact hbound
  · rw [hdisk]
    exact hrecorded
  · rw [hs', ha.run]
    dsimp only
    rw [ha.passes.locked, ha.opened.locked, ha.allocated.locked, ha.acquired.locked _ rfl, List.erase_cons_head]
    exact hfree

theorem orderly_foldl {calls : List Call} (h : Orderly root A s runs)
    (hfree : A ++ [".lock"] ∉ s.locked) (hc : ∀ c ∈ calls, c.Accepted root A) :
    ∃ runs' s', calls.foldl (fun h c => c.make h) (s, runs.map some) = (s', runs'.map some) ∧
      runs'.length = runs.length + calls.length ∧ Orderly root A s' runs' := by
  induction calls generalizing s runs with
  | nil => exact ⟨runs, s, rfl, rfl, h⟩
  | cons c calls ih =>
    obtain ⟨r, s', hmake, h', hfree'⟩ :=
      orderly_make h hfree (hc c List.mem_cons_self) (runs.map some)
    obtain ⟨runs', s'', hfold, hlength, h''⟩ :=
      ih h' hfree' fun c' hc' => hc c' (List.mem_cons_of_mem c hc')
    refine ⟨runs', s'', ?_, by rw [hlength]; simp; omega, h''⟩
    rw [List.foldl_cons, hmake]
    exact hfold

/-! ### The first build -/

theorem acquire_made {d : Disk} (hmade : s.disk.makeDirs root = .ok d)
    (hd : Disk.Rooted Disk.maxLinks d root A) (wait : Bool) :
    (Lock.acquire (Lock.path root) wait).run s =
      (Lock.acquire (Lock.path root) wait).run { s with disk := d } := by
  rw [Lock.acquire_eq, run_bind_ok (Session.run_write_ok (f := (·.makeDirs root)) hmade),
    run_bind_ok (Session.makeDirs_run (s := { s with disk := d }) hd)]

/-- A build makes its root before it does anything else. -/
theorem run_made {b : Builder} {d : Disk} (hmade : s.disk.makeDirs b.settings.root = .ok d)
    (hd : Disk.Rooted Disk.maxLinks d b.settings.root A) (document : Json) :
    (b.run document).run s = (b.run document).run { s with disk := d } := by
  unfold Builder.run
  rw [run_bind, run_bind, acquire_made hmade hd]

theorem opening_made {b : Builder} {d : Disk} (hmade : s.disk.makeDirs b.settings.root = .ok d)
    (hd : Disk.Rooted Disk.maxLinks d b.settings.root A) :
    b.opening.run s = b.opening.run { s with disk := d } := by
  unfold Builder.opening
  rw [discard_eq, bind_assoc, run_bind, run_bind, acquire_made hmade hd]

theorem make_made {d : Disk} (hmade : s.disk.makeDirs root = .ok d)
    (hd : Disk.Rooted Disk.maxLinks d root A) (hroot : c.builder.settings.root = root)
    (done : List (Option Run)) : c.make (s, done) = c.make ({ s with disk := d }, done) := by
  subst hroot
  have hrun : (c.builder.run c.document).run (c.found s) =
      (c.builder.run c.document).run (c.found { s with disk := d }) :=
    run_made (s := c.found s) hmade hd c.document
  have hopening : c.builder.opening.run (c.found s) = c.builder.opening.run (c.found { s with disk := d }) :=
    opening_made (s := c.found s) hmade hd
  unfold make key?
  rw [hrun, hopening]

theorem orderly_vacant {d : Disk} (hd : Disk.Rooted Disk.maxLinks d root A)
    (hnone : ∀ a, Address.Below A a → d.find? a = none) (hjournal : s.journal.file = none) :
    Orderly root A { s with disk := d } [] := by
  have hchild : ∀ n, d.find? (A ++ [n]) = none := fun n => hnone _ (Disk.below_child A n)
  have hstore : Pointers.load ⟨root, true⟩ d = .ok [] :=
    load_of_absent (p := ⟨root, true⟩) hd (hchild _)
  refine ⟨hd, fun k n _ => hnone _ (below_grandchild A k n), hjournal, by simp [hchild],
    fun n _ => by simp [Disk.Clear, hchild], by simp [hchild], List.Pairwise.nil, by simp,
    by simp [hchild], ?_, by simp⟩
  constructor <;> rw [bound_of_load hstore] <;> rfl

/-! ### What is told -/

theorem status_of_recorded (h : Orderly root A s runs) {r : Run} (hr : r ∈ runs) :
    s.disk.isDir (root.child r.key) = true ∧
      (Workspace.mk root r.key).status? s.disk = some (.str r.status) := by
  obtain ⟨hdir, rec, hrec, hstatus⟩ := h.recorded r hr
  have hname := (h.isKey r hr).isKeyName.isName
  have hready : Ready root A s := ready_of_journal h.rooted h.journal
  have hstands : Stands ⟨root, r.key⟩ A s := ⟨hready, hname, hdir, by
    rw [show s.disk.find? (A ++ [r.key] ++ [recordName]) = _ from hrec]
    simp⟩
  exact ⟨h.sound.isDir (h.isKey r hr).isKeyName hdir, status_of_record hstands ⟨rec, hrec, hstatus⟩⟩

theorem told_of_orderly (h : Orderly root A s runs) : Run.Told root s.disk runs := by
  have hbound := h.bound
  refine ⟨hbound, fun n hn k hk => ?_, fun n hn k hk => ?_, fun k hk => ?_, ?_⟩
  · obtain ⟨r, hr, rfl⟩ := hbound.run hn hk
    exact (status_of_recorded h hr).1
  · obtain ⟨r, hr, hsucceeded, rfl⟩ := hbound.run_of_compiled hn hk
    rw [(status_of_recorded h hr).2, Run.status, if_pos hsucceeded]
  · obtain ⟨r, hr, hfailed, rfl⟩ := hbound.run_of_aborted hk
    rw [(status_of_recorded h hr).2, Run.status, if_neg (by simp [hfailed])]
  · exact hbound.different h.ascending

/-- After every build of a history that begins in an empty build root, no build is bound as the running
one, the other aliases are bound to the keys of the last builds, and the records say the same. -/
theorem told_history (hv : Vacant root A s) (calls : List Call) (hne : calls ≠ [])
    (hc : ∀ c ∈ calls, c.Accepted root A) :
    ∃ runs : List Run, (history s calls).2 = runs.map some ∧ runs.length = calls.length ∧
      Run.Told root (history s calls).1.disk runs := by
  obtain ⟨⟨d, hmade, hd, hnone⟩, hjournal, hfree⟩ := hv
  cases calls with
  | nil => exact absurd rfl hne
  | cons c calls =>
    obtain ⟨runs, s', hfold, hlength, h⟩ := orderly_foldl (orderly_vacant hd hnone hjournal) hfree hc
    have heq : history s (c :: calls) = (s', runs.map some) := by
      rw [← hfold, history, List.foldl_cons, List.foldl_cons,
        make_made hmade hd (hc c List.mem_cons_self).root]
      rfl
    rw [heq]
    exact ⟨runs, rfl, by simpa using hlength, told_of_orderly h⟩

/-! ### Units that stray -/

/-- A site with a project in which nothing has been built. -/
def bare : Site :=
  .ofDisk ⟨[(["/"], .dir), (["/", "p"], .dir)], []⟩ ⟨2024, 3, 1, 10, 0, 0, 0, none⟩

/-- The build with one stage of this name and with these commands, of an empty document. -/
def lone (stage : String) (commands : Assoc String CommandSettings) : Call where
  clock := ⟨2024, 3, 1, 10, 0, 0, 0, none⟩
  builder := .lone stage commands
  document := .obj []

/-- The build on another host. -/
def on (c : Call) (host : Host) : Call := { c with builder := { c.builder with host := host } }

/-- A command that empties the file of the pointers. -/
def emptying : CommandSettings :=
  ⟨"emptying", .str "plan", [.str "sh", .str "-c", .str "echo > /p/run/pointers.json"]⟩

theorem vacant_bare : Vacant ⟨"/", ["p", "run"]⟩ ["/", "p", "run"] bare := by
  refine ⟨⟨bare.disk.set ["/", "p", "run"] .dir, rfl,
    .of_dirs _ (by unfold Path.Clean; decide +kernel) rfl (by decide +kernel) (by decide +kernel), ?_⟩,
    rfl, by decide +kernel⟩
  rintro a ⟨n, rest, rfl⟩
  simp [bare, Site.ofDisk, Disk.set, Assoc.set, Disk.find?, Assoc.find?_cons]

theorem isTree_bare : bare.disk.IsTree := by
  refine .of_entries ?_ (by decide)
  decide

set_option maxRecDepth 100000 in
/-- A stage whose name leads out of the workspace, and a command that writes where the pointers are, leave
the last key unbound. -/
theorem latest_unbound_lone : Vacant ⟨"/", ["p", "run"]⟩ ["/", "p", "run"] bare ∧
    ∀ c ∈ [lone "5.00/../../pointers" [], (lone "5.00" [("emptying", emptying)]).on Shell.host],
      c.clock.IsClock ∧ c.builder.settings.root = ⟨"/", ["p", "run"]⟩ ∧
      c.builder.settings.check = .ok () ∧
      (history bare [c]).2.map (·.map (·.key)) = [some "20240301-100000.000000"] ∧
      Pointers.bound ⟨⟨"/", ["p", "run"]⟩, true⟩ (history bare [c]).1.disk latest = none := by
  refine ⟨vacant_bare, ?_⟩
  simp only [List.forall_mem_cons, List.not_mem_nil, false_implies, implies_true, and_true]
  refine ⟨⟨?_, by decide +kernel, rfl, by decide +kernel, by decide +kernel⟩,
    ?_, by decide +kernel, rfl, by decide +kernel, by decide +kernel⟩
  · exact ⟨rfl, by decide, by decide⟩
  · exact ⟨rfl, by decide, by decide⟩

theorem discreet_lone {commands : Assoc String CommandSettings} (p : Process) :
    ((lone "5.00" commands).on (.uniform p)).builder.Discreet A :=
  ⟨⟨plain_lone.stages, plain_lone.generators⟩, fun _ _ c _ => c.discreet_uniform p _ A⟩

/-- A build with a command that ends with this status. -/
def ending (status : Nat) : Call :=
  (lone "5.00" [("test", ⟨"test", .str "plan", [.str "test", .str "-s"]⟩)]).on (.uniform ⟨[], [], .exited status⟩)

theorem told_history_bare : ∃ runs : List Run,
    (history bare [ending 0, { ending 1 with clock := ⟨2023, 3, 1, 10, 0, 0, 0, none⟩ }]).2 = runs.map some ∧
    runs.length = 2 ∧
    Run.Told ⟨"/", ["p", "run"]⟩
      (history bare [ending 0, { ending 1 with clock := ⟨2023, 3, 1, 10, 0, 0, 0, none⟩ }]).1.disk runs := by
  refine told_history vacant_bare _ (by simp) ?_
  simp only [List.forall_mem_cons, List.not_mem_nil, false_implies, implies_true, and_true]
  exact ⟨⟨⟨rfl, by decide, by decide⟩, by decide +kernel, rfl, discreet_lone _⟩,
    ⟨⟨rfl, by decide, by decide⟩, by decide +kernel, rfl, discreet_lone _⟩⟩

end Call

end FlowPlan

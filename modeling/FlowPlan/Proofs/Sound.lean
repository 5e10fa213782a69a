import FlowPlan.Proofs.Build
import FlowPlan.Proofs.Search

/-!
# Sound build roots

Whatever builds were killed in it and when, a build root is fit for the next one, and its compiled key
is that of a workspace.

## Main definitions

* `Builder.Sound` — a build root that builds may have been killed in.
* `Builder.Calm` — it is still sound, and the compiled key and its backup are as before.
* `Builder.Dated` — it is sound, and its latest key is a time with a counter.

## Main statements

* `Builder.Sound.standing` — a build may find it.
* `Builder.Sound.calm` — what leaves a build root calm.
* `Builder.Dated.allocate` — an allocation succeeds, and its key is new and later than the latest one.
-/

namespace FlowPlan.Builder

open FlowPlan.Action Site Pointers Workspace

/-- The build root is a directory, no directory is in the way of the lock, of a link or of the pointers,
and the compiled key is that of a workspace. -/
structure Sound (root : Path) (A : Address) (d : Disk) : Prop where
  rooted : Disk.Rooted Disk.maxLinks d root A
  closed : Disk.Closed A d
  lock : ∀ e, d.find? (A ++ [".lock"]) = some e → e.isFile = true
  clear : ∀ n ∈ aliases, d.Clear A n
  store : ∀ e, d.find? (A ++ [storeName]) = some e → ∃ fs, e = .file (.json (.obj fs))
  named : ∀ v, Pointers.bound ⟨root, true⟩ d compiled = some v →
    ∃ k, v = .str k ∧ Key.IsKeyName k ∧ d.find? (A ++ [k]) = some .dir

variable {root : Path} {A : Address} {d d' d'' : Disk} {s t : Site} {b : Builder}

theorem ne_reserved_lock : ¬ IsReserved ".lock" := by
  rintro (heq | ⟨m, hm, heq⟩)
  · exact absurd heq (by decide)
  · revert m
    decide

theorem Sound.load (h : Sound root A d) (links : Bool) : ∃ B, Pointers.load ⟨root, links⟩ d = .ok B := by
  cases he : d.find? (A ++ [storeName]) with
  | none => exact ⟨_, load_of_absent (p := ⟨root, links⟩) h.rooted he⟩
  | some e =>
    obtain ⟨fs, rfl⟩ := h.store e he
    exact ⟨_, load_of_file (p := ⟨root, links⟩) h.rooted he⟩

/-- The bindings depend on the pointers' file only. -/
theorem Sound.load_eq (h : Sound root A d) (hrooted : Disk.Rooted Disk.maxLinks d' root A)
    (hsame : d'.find? (A ++ [storeName]) = d.find? (A ++ [storeName])) (links : Bool) :
    Pointers.load ⟨root, links⟩ d' = Pointers.load ⟨root, links⟩ d := by
  cases he : d.find? (A ++ [storeName]) with
  | none =>
    rw [load_of_absent (p := ⟨root, links⟩) h.rooted he,
      load_of_absent (p := ⟨root, links⟩) hrooted (hsame.trans he)]
  | some e =>
    obtain ⟨fs, rfl⟩ := h.store e he
    rw [load_of_file (p := ⟨root, links⟩) h.rooted he,
      load_of_file (p := ⟨root, links⟩) hrooted (hsame.trans he)]

theorem Sound.locate_lock (h : Sound root A d) : d.locate (Lock.path root) = .ok (A ++ [".lock"]) :=
  h.rooted.locate_child Lock.isName_lock.1 fun _ t ht => by simpa [Entry.isFile] using h.lock _ ht

theorem Sound.lock_ne_link (h : Sound root A d) (a : Address) (ha : d.locate (Lock.path root) = .ok a)
    (t : String) : d.find? a ≠ some (.link t) := by
  rw [h.locate_lock] at ha
  cases ha
  exact fun ht => by simpa [Entry.isFile] using h.lock _ ht

theorem Sound.locate_store (h : Sound root A d) (links : Bool) :
    d.locate (Pointers.path ⟨root, links⟩) = .ok (A ++ [storeName]) :=
  h.rooted.locate_child isName_storeName.1 fun _ t ht => by simpa using h.store _ ht

theorem Sound.standing (h : Sound b.settings.root A s.disk) (hjournal : s.journal.file = none) :
    Standing b A s :=
  ⟨h.rooted, h.closed, hjournal, h.lock_ne_link, h.load b.settings.links,
    ⟨_, h.locate_store b.settings.links, .inr rfl⟩⟩

theorem Sound.apart (h : Sound b.settings.root A d) :
    d.locate (Lock.path b.settings.root) ≠ d.locate b.pointers.path := by
  rw [h.locate_lock, show d.locate b.pointers.path = _ from h.locate_store b.settings.links]
  simp [storeName]

theorem Sound.isDir (h : Sound root A d) {k : String} (hname : Key.IsKeyName k)
    (hdir : d.find? (A ++ [k]) = some .dir) : d.isDir (root.child k) = true := by
  simp [Disk.isDir, (h.rooted.child hname.isName.1 hname.isName.2 hdir).lookup?]

/-- A compiled key of a sound build root is not a new one. -/
theorem Sound.compiled_ne (h : Sound root A d) {key : String} (hnone : d.find? (A ++ [key]) = none) :
    Pointers.bound ⟨root, true⟩ d compiled ≠ some (.str key) := by
  intro heq
  obtain ⟨k, hk, -, hdir⟩ := h.named _ heq
  cases hk
  rw [hnone] at hdir
  cases hdir

/-- The bindings of a sound build root have changed, to a compiled key that is that of a workspace. -/
theorem Sound.of_passes {w : Workspace} (h : Sound root A s.disk) (hroot : w.root = root) (hpass : Passes w A s t)
    (hstore : ∀ e, t.disk.find? (A ++ [storeName]) = some e → ∃ fs, e = .file (.json (.obj fs)))
    (hnamed : ∀ v, Pointers.bound ⟨root, true⟩ t.disk compiled = some v →
      ∃ k, v = .str k ∧ Key.IsKeyName k ∧ s.disk.find? (A ++ [k]) = some .dir) : Sound root A t.disk where
  rooted := hroot ▸ hpass.rooted _ (hroot ▸ h.rooted)
  closed := hpass.closed
  lock := by
    rw [hpass.own _ ne_reserved_lock]
    exact h.lock
  clear n hn := (hpass.clear n).2 (h.clear n hn)
  store := hstore
  named v hv := by
    obtain ⟨k, rfl, hkey, hdir⟩ := hnamed v hv
    exact ⟨k, rfl, hkey, (hpass.dirs k).2 hdir⟩

/-- The pointers have been written, and the compiled key is as before. -/
theorem Sound.of_stored {w : Workspace} (h : Sound root A s.disk) (hroot : w.root = root) (hpass : Passes w A s t)
    (hstored : ∃ fs, t.disk.find? (A ++ [storeName]) = some (.file (.json (.obj fs))))
    (hbound : Pointers.bound ⟨root, true⟩ t.disk compiled = Pointers.bound ⟨root, true⟩ s.disk compiled) :
    Sound root A t.disk := by
  refine h.of_passes hroot hpass (fun e he => ?_) fun v hv => h.named v (hbound ▸ hv)
  obtain ⟨fs, hfs⟩ := hstored
  rw [hfs] at he
  exact ⟨fs, (Option.some.inj he).symm⟩

/-! ## Calm -/

/-- The build root is sound, and the compiled key and its backup are as before. -/
structure Calm (root : Path) (A : Address) (d d' : Disk) : Prop where
  sound : Sound root A d'
  bound : ∀ n ∈ [compiled, compiledBackup],
    Pointers.bound ⟨root, true⟩ d' n = Pointers.bound ⟨root, true⟩ d n

theorem Sound.calm_refl (h : Sound root A d) : Calm root A d d := ⟨h, fun _ _ => rfl⟩

theorem Calm.trans (h : Calm root A d d') (h' : Calm root A d' d'') : Calm root A d d'' :=
  ⟨h'.sound, fun n hn => (h'.bound n hn).trans (h.bound n hn)⟩

/-- The lock, what is new and what lies deeper make no difference. -/
theorem Sound.calm (h : Sound root A d) (hways : Disk.KeepsWays A d d') (hclosed : Disk.Closed A d')
    (hreserved : ∀ n, IsReserved n → d'.find? (A ++ [n]) = d.find? (A ++ [n]))
    (hlock : ∀ e, d'.find? (A ++ [".lock"]) = some e → e.isFile = true)
    (hdirs : ∀ k, Key.IsKeyName k → d.find? (A ++ [k]) = some .dir → d'.find? (A ++ [k]) = some .dir) :
    Calm root A d d' := by
  have hrooted := h.rooted.of_keepsWays hways
  have hstore := hreserved storeName (.inl rfl)
  have hbound : Pointers.bound ⟨root, true⟩ d' = Pointers.bound ⟨root, true⟩ d :=
    Supervision.bound_congr (h.load_eq hrooted hstore true)
  refine ⟨⟨hrooted, hclosed, hlock, fun n hn => ?_, hstore ▸ h.store, fun v hv => ?_⟩,
    fun n _ => congrFun hbound n⟩
  · unfold Disk.Clear
    rw [hreserved n (.inr ⟨n, hn, .inl rfl⟩), hreserved _ (.inr ⟨n, hn, .inr rfl⟩)]
    exact h.clear n hn
  · rw [hbound] at hv
    obtain ⟨k, rfl, hkey, hdir⟩ := h.named v hv
    exact ⟨k, rfl, hkey, hdirs k hkey hdir⟩

/-- The lock is taken. -/
theorem Sound.calm_lock (h : Sound root A d) (hw : Disk.Wrote (A ++ [".lock"]) d d') : Calm root A d d' := by
  have hkept : ∀ n, n ≠ ".lock" → d'.find? (A ++ [n]) = d.find? (A ++ [n]) :=
    fun n hn => hw.kept _ (by simpa using hn)
  refine h.calm (hw.grows.keepsWays A) (closed_of_wrote h.closed hw) (fun n hn => hkept n ?_) ?_ ?_
  · rintro rfl
    exact ne_reserved_lock hn
  · obtain ⟨c, hc⟩ := hw.file
    rw [hc]
    rintro e ⟨⟩
    rfl
  · intro k hkey hdir
    rw [hkept k (hkey.ne (by decide)), hdir]

/-- The directory of a workspace is made. -/
theorem Sound.calm_claim (h : Sound root A d) {key : String} (hkey : Key.IsKeyName key)
    (hnone : d.find? (A ++ [key]) = none) : Calm root A d (d.set (A ++ [key]) .dir) := by
  have hother : ∀ a, a ≠ A ++ [key] → (d.set (A ++ [key]) .dir).find? a = d.find? a := fun a ha => by
    rw [Disk.find?_set_child, if_neg (Ne.symm ha)]
  have hkept : ∀ n, n ≠ key → (d.set (A ++ [key]) .dir).find? (A ++ [n]) = d.find? (A ++ [n]) :=
    fun n hn => hother _ (by simpa using hn)
  refine h.calm (Disk.keepsWays_set d .dir (Disk.below_child A key)) (fun k n hk => ?_)
    (fun n hn => hkept n ?_) ?_ fun k _ hdir => ?_
  · rw [hother _ (by simp)]
    refine h.closed k n fun hdir => hk ?_
    rw [Disk.find?_set_child]
    split <;> simp_all
  · rintro rfl
    exact ne_reserved_of_isKeyName hkey hn
  · rw [hkept _ (hkey.ne (by decide)).symm]
    exact h.lock
  · rw [Disk.find?_set_child]
    split <;> simp_all

/-- A file is written in a directory of the build root. -/
theorem Sound.calm_file (h : Sound root A d) {k n : String} (hdir : d.find? (A ++ [k]) = some .dir)
    (c : Content) : Calm root A d (d.set (A ++ [k] ++ [n]) (.file c)) := by
  have hkept : ∀ m, (d.set (A ++ [k] ++ [n]) (.file c)).find? (A ++ [m]) = d.find? (A ++ [m]) :=
    fun m => by rw [Disk.find?_set_child, if_neg (by simp)]
  refine h.calm (Disk.keepsWays_set d _ (below_grandchild A k n)) (fun k' m hk' => ?_) (fun m _ => hkept m)
    ?_ fun k' _ hdir' => (hkept k').trans hdir'
  · rw [hkept] at hk'
    rw [Disk.find?_set_child, if_neg ?_, h.closed k' m hk']
    intro heq
    obtain rfl : k = k' := by simpa using (List.append_inj' heq rfl).1
    exact hk' hdir
  · rw [hkept]
    exact h.lock

/-! ## New workspaces -/

/-- An allocation leaves a build root calm, and binds nothing. -/
theorem Sound.of_allocated {b : BuildDir} {key : String} (h : Sound root A s.disk)
    (ha : b.Allocated A key s t) : Calm root A s.disk t.disk ∧
      Pointers.bound ⟨root, true⟩ t.disk = Pointers.bound ⟨root, true⟩ s.disk := by
  have hways := (Disk.grows_of_new ha.home (ha.kept_of_some h.closed)).keepsWays A
  have hkept : ∀ n, n ≠ key → t.disk.find? (A ++ [n]) = s.disk.find? (A ++ [n]) :=
    fun n hn => ha.kept _ (by simpa using hn) (by simp)
  have hreserved : ∀ n, IsReserved n → t.disk.find? (A ++ [n]) = s.disk.find? (A ++ [n]) := by
    intro n hn
    refine hkept n ?_
    rintro rfl
    exact ne_reserved_of_isKeyName ha.name hn
  refine ⟨h.calm hways (fun k n hk => ?_) hreserved ?_ fun k _ hdir => ?_, ?_⟩
  · have hne : k ≠ key := by
      rintro rfl
      exact hk ha.dir
    rw [ha.kept _ (by simp) (by simp [hne]), h.closed k n (by rwa [← hkept k hne])]
  · rw [hkept _ (ha.name.ne (by decide)).symm]
    exact h.lock
  · rw [ha.kept_of_some h.closed _ (by simp [hdir]), hdir]
  · exact Supervision.bound_congr
      (h.load_eq (h.rooted.of_keepsWays hways) (hreserved storeName (.inl rfl)) true)

/-- The root is sound, no log is open, and the latest key, if there is one, is a time with a counter. -/
structure Dated (root : Path) (A : Address) (s : Site) : Prop where
  sound : Sound root A s.disk
  journal : s.journal.file = none
  dated : ∀ v, Pointers.bound ⟨root, true⟩ s.disk latest = some v → ∃ k, v = .str k ∧ Key.IsKey k

theorem Dated.of_clock (h : Dated root A s) (now : Instant) : Dated root A { s with clock := now } :=
  ⟨h.sound, h.journal, h.dated⟩

/-- There is a key for the next workspace, and it is later than the latest one. -/
theorem Dated.nextKey (h : Dated root A s) (hclock : s.clock.IsClock) {links : Bool} {B : Bindings}
    (hload : Pointers.load ⟨root, links⟩ s.disk = .ok B) :
    ∃ l key, BuildDir.latestKey ((Assoc.find? B latest).getD .null) = .ok l ∧
      (BuildDir.mk root links).nextKey s l = some key ∧ Key.IsKey key ∧
      ∀ k, Pointers.bound ⟨root, true⟩ s.disk latest = some (.str k) → Text.lt k key = true := by
  have hbound : Pointers.bound ⟨root, true⟩ s.disk latest = (Assoc.find? B latest).map Json.sortKeys :=
    bound_of_load (p := ⟨root, links⟩) hload latest
  -- The latest key as the allocation reads it.
  obtain ⟨l, hlatest, hl, hkey⟩ : ∃ l, BuildDir.latestKey ((Assoc.find? B latest).getD .null) = .ok l ∧
      (∀ k, Pointers.bound ⟨root, true⟩ s.disk latest = some (.str k) → l = some k) ∧
      ∀ k, l = some k → Key.IsKey k := by
    cases hv : Pointers.bound ⟨root, true⟩ s.disk latest with
    | none =>
      have hnone : Assoc.find? B latest = none := by simpa [hbound] using hv
      exact ⟨none, by rw [hnone]; rfl, by simp, by simp⟩
    | some v =>
      obtain ⟨k, rfl, hk⟩ := h.dated v hv
      have hsome := (bound_eq_str (p := ⟨root, links⟩) hload).1 hv
      have hne : k ≠ "" := hk.isKeyName.isName.1.1
      exact ⟨some k, by rw [hsome]; simp [BuildDir.latestKey, hne], by simp, by rintro _ ⟨⟩; exact hk⟩
  obtain ⟨key, hnext, hkey', hlater⟩ := BuildDir.exists_nextKey (b := ⟨root, links⟩) h.sound.rooted hclock l
    fun l hl => (hkey l hl).not_stuck _
  exact ⟨l, key, hlatest, hnext, hkey', fun k hk => hlater k (hl k hk) (hkey k (hl k hk)).isSome_split?⟩

/-- An allocation succeeds, and binds nothing. Its key is later than the latest one. -/
theorem Dated.allocate (h : Dated root A s) (hclock : s.clock.IsClock) (links : Bool) :
    ∃ key t, (BuildDir.mk root links).allocate.run s = (.ok ⟨root, key⟩, t) ∧
      (BuildDir.mk root links).Allocated A key s t ∧ Key.IsKey key ∧ Dated root A t ∧
      Pointers.bound ⟨root, true⟩ t.disk = Pointers.bound ⟨root, true⟩ s.disk ∧
      ∀ k, Pointers.bound ⟨root, true⟩ s.disk latest = some (.str k) → Text.lt k key = true := by
  obtain ⟨B, hload⟩ := h.sound.load links
  obtain ⟨l, key, hlatest, hnext, hkey, hlater⟩ := h.nextKey hclock hload
  rcases BuildDir.allocate_run (b := ⟨root, links⟩) (ready_of_journal h.sound.rooted h.journal)
    h.sound.closed h.journal hload with ⟨f, -, hnone⟩ | ⟨key', l', t, hrun, ha, hlatest', hnext'⟩
  · rw [hnone l hlatest] at hnext
    cases hnext
  · rw [hlatest] at hlatest'
    cases hlatest'
    rw [hnext] at hnext'
    cases hnext'
    obtain ⟨hcalm, hbound⟩ := h.sound.of_allocated ha
    exact ⟨key, t, hrun, ha, hkey,
      ⟨hcalm.sound, (congrArg (·.file) ha.journal).trans h.journal, hbound ▸ h.dated⟩, hbound, hlater⟩

end FlowPlan.Builder

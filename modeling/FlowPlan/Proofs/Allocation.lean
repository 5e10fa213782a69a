import FlowPlan.Proofs.History

/-!
# The keys of a build root

Workspaces are allocated one after another in a build root that was empty at first, and in some of them
an attempt begins. Whatever the clock says, each gets a new key, and the keys of the attempts increase.

## Main definitions

* `BuildDir.Tended` — what allocations and the beginnings of attempts make of a build root.
* `BuildDir.Given` — what an allocation gives.

## Main statements

* `BuildDir.given_dated`, `BuildDir.given_vacant` — an allocation gives a new workspace.
* `BuildDir.Tended.tidy` — what holds after allocations and beginnings.
* `BuildDir.keys_increase` — every allocation succeeds, and the keys of the attempts increase.
-/

namespace FlowPlan.BuildDir

open FlowPlan.Action Site Pointers Workspace Builder

/-- Allocations at any times and beginnings of attempts follow one another, from the first site to the
last. Beside them stand the keys given out since the last beginning and the keys of all attempts, the
last one first. -/
inductive Tended (b : BuildDir) (s : Site) : List String → List String → Site → Prop
  | untouched : Tended b s [] [] s
  | allocated {spare begun : List String} {t t' : Site} {now : Instant} {w : Workspace}
      (before : Tended b s spare begun t) (clock : now.IsClock)
      (run : b.allocate.run { t with clock := now } = (.ok w, t')) : Tended b s (w.key :: spare) begun t'
  | entered {spare begun : List String} {t t' : Site} {v : Supervision} {key : String}
      (before : Tended b s spare begun t) (mem : key ∈ spare) (directory : v.directory = b)
      (workspace : v.workspace = b.workspace key) (run : v.enter.run t = (.ok (), t')) :
      Tended b s [] (key :: begun) t'

/-- What an allocation gives: a workspace whose key is later than the latest one, where nothing was. -/
structure Given (b : BuildDir) (A : Address) (key : String) (s t : Site) : Prop where
  isKey : Key.IsKey key
  new : s.disk.lookup? (b.root.child key) false = none
  isDir : t.disk.isDir (b.root.child key) = true
  stands : Stands (b.workspace key) A t
  dated : Dated b.root A t
  bound : Pointers.bound ⟨b.root, true⟩ t.disk = Pointers.bound ⟨b.root, true⟩ s.disk
  later : ∀ k, Pointers.bound ⟨b.root, true⟩ s.disk latest = some (.str k) → Text.lt k key = true

variable {b : BuildDir} {A : Address} {s t t' : Site} {key : String} {spare begun : List String}

theorem given_dated (h : Dated b.root A s) (hclock : s.clock.IsClock) :
    ∃ key t, b.allocate.run s = (.ok (b.workspace key), t) ∧ Given b A key s t ∧
      ∀ w, Stands w A s → Stands w A t := by
  obtain ⟨key, t, hrun, ha, hkey, hdated, hbound, hlater⟩ := h.allocate hclock b.links
  refine ⟨key, t, hrun, ⟨hkey, ?_, hdated.sound.isDir ha.name ha.dir, ?_, hdated, hbound, hlater⟩,
    fun w => ha.stands_of h.sound.closed h.journal⟩
  · rw [h.sound.rooted.lookup?_child ha.name.isName.1 (by simp), ha.free]
  · exact ha.stands h.sound.rooted h.sound.closed h.journal

/-- The first allocation makes the build root. -/
theorem allocate_vacant (h : Vacant b.root A s) :
    ∃ d, s.disk.makeDirs b.root = .ok d ∧ (∀ a, Address.Below A a → d.find? a = none) ∧
      Dated b.root A { s with disk := d } ∧
      Pointers.bound ⟨b.root, true⟩ d = Pointers.bound ⟨b.root, true⟩ s.disk ∧
      b.allocate.run s = b.allocate.run { s with disk := d } := by
  have hnone : ∀ n, Pointers.bound ⟨b.root, true⟩ s.disk n = none := h.bound
  obtain ⟨⟨d, hmade, hd, hempty⟩, hjournal, -⟩ := h
  refine ⟨d, hmade, hempty, (Call.orderly_vacant hd hempty hjournal).dated, ?_, ?_⟩
  · funext n
    rw [hnone, bound_of_load (p := ⟨b.root, true⟩) (load_of_absent hd (hempty _ (Disk.below_child A _)))]
    rfl
  · exact allocate_made hmade hd

theorem given_vacant (h : Vacant b.root A s) (hclock : s.clock.IsClock) :
    ∃ key t, b.allocate.run s = (.ok (b.workspace key), t) ∧ Given b A key s t := by
  obtain ⟨d, hmade, hempty, hdated, hbound, hmakes⟩ := allocate_vacant h
  obtain ⟨key, t, hrun, hgiven, -⟩ := given_dated hdated hclock
  refine ⟨key, t, hmakes.trans hrun, hgiven.isKey, ?_, hgiven.isDir, hgiven.stands, hgiven.dated,
    hgiven.bound.trans hbound, by simp [h.bound]⟩
  have hextends := Disk.of_makeDirs hmade
  have hchild : d.find? (A ++ [key]) = none := hempty _ (Disk.below_child A key)
  cases hlocate : s.disk.locate (b.root.child key) false with
  | error cause => simp [Disk.lookup?, hlocate]
  | ok a =>
    refine Classical.byContradiction fun hne => ?_
    have hne' : s.disk.find? a ≠ none := by simpa [Disk.lookup?, hlocate] using hne
    have hlocate' := hextends.grows.locate hlocate fun h _ _ => absurd h hne'
    rw [hdated.sound.rooted.locate_child hgiven.isKey.isKeyName.isName.1 (by simp)] at hlocate'
    cases hlocate'
    exact hne' ((hextends.kept _ hne').symm.trans hchild)

/-- The latest key is that of the last attempt, and the keys of the attempts increase. A workspace in which an
attempt may begin has a later key. -/
structure Tidy (b : BuildDir) (A : Address) (spare begun : List String) (t : Site) : Prop where
  dated : Dated b.root A t
  latest : Pointers.bound ⟨b.root, true⟩ t.disk latest = begun.head?.map .str
  ascending : begun.Pairwise fun later earlier => Text.lt earlier later = true
  spare : ∀ k ∈ spare, Key.IsKey k ∧ Stands (b.workspace k) A t ∧ ∀ k' ∈ begun, Text.lt k' k = true

theorem tidy_allocated (h : Tidy b A spare begun t) (ht : Given b A key t t')
    (hstands : ∀ w, Stands w A t → Stands w A t') :
    Tidy b A (key :: spare) begun t' := by
  refine ⟨ht.dated, by rw [ht.bound, h.latest], h.ascending, fun k hk => ?_⟩
  rcases List.mem_cons.1 hk with rfl | hk
  · refine ⟨ht.isKey, ht.stands, fun k' hk' => ?_⟩
    cases begun with
    | nil => cases hk'
    | cons l begun =>
      have hlast : Text.lt l k = true := ht.later l (by rw [h.latest]; rfl)
      rcases List.mem_cons.1 hk' with rfl | hk'
      · exact hlast
      · exact Text.lt_trans ((List.pairwise_cons.1 h.ascending).1 k' hk') hlast
  · exact ⟨(h.spare k hk).1, hstands _ (h.spare k hk).2.1, (h.spare k hk).2.2⟩

/-- The beginning of an attempt cannot fail, and binds two aliases. -/
theorem enter_sound {v : Supervision} (h : Sound b.root A t.disk)
    (hv : v.directory = b) (hw : v.workspace = b.workspace key) (hkey : Key.IsKeyName key)
    (hs : Stands (b.workspace key) A t) :
    ∃ t', v.enter.run t = (.ok (), t') ∧ Passes (b.workspace key) A t t' ∧ Sound b.root A t'.disk ∧
      (∃ fs, t'.disk.find? (A ++ [storeName]) = some (.file (.json (.obj fs)))) ∧
      Pointers.bound ⟨b.root, true⟩ t'.disk =
        Supervision.entered (Pointers.bound ⟨b.root, true⟩ t.disk) key := by
  subst hv
  rw [← hw] at hs ⊢
  obtain ⟨B, hload⟩ := h.load v.directory.links
  obtain ⟨r, t', hrun, hpoints, hstored, hbound, hok, -⟩ :=
    Supervision.enter_run (v := v) (by rw [hw]; rfl) hs hload
  have hpass := passes_of_repoints hpoints hs h.closed
  have hclear : ∀ n ∈ aliases, ¬ v.directory.pointers.Blocked t.disk A (n, v.key) := by
    intro n hn hb
    rw [Supervision.key, hw] at hb
    exact ((blocked_key hkey n).1 hb).2 (h.clear n hn)
  obtain rfl := hok.2 ⟨hclear _ (by simp [aliases]), hclear _ (by simp [aliases])⟩
  have hkeyed : v.workspace.key = key := by rw [hw]; rfl
  rw [hkeyed] at hbound
  refine ⟨t', hrun, hpass, h.of_stored (by rw [hw]; rfl) hpass hstored ?_, hstored, hbound⟩
  rw [show Pointers.bound ⟨v.directory.root, true⟩ t'.disk = _ from hbound, entered_compiled _ (by simp)]
  rfl

theorem tidy_entered {v : Supervision} (h : Tidy b A spare begun t) (hkey : key ∈ spare)
    (hv : v.directory = b) (hw : v.workspace = b.workspace key) :
    ∃ t', v.enter.run t = (.ok (), t') ∧ Tidy b A [] (key :: begun) t' := by
  obtain ⟨hk, hs, hlater⟩ := h.spare key hkey
  obtain ⟨t', hrun, hpass, hsound, -, hbound⟩ := enter_sound h.dated.sound hv hw hk.isKeyName hs
  have hlatest : Pointers.bound ⟨b.root, true⟩ t'.disk latest = some (.str key) := by
    rw [hbound, Supervision.entered, rebound_of_ne _ (by decide), rebound_str]
  refine ⟨t', hrun, ⟨hsound, (congrArg (·.file) hpass.journal).trans h.dated.journal, fun v hv => ?_⟩,
    hlatest, List.pairwise_cons.2 ⟨hlater, h.ascending⟩, by simp⟩
  rw [hlatest] at hv
  cases hv
  exact ⟨key, rfl, hk⟩

/-- In a vacant build root or a tidy one an allocation succeeds, and leaves it tidy. -/
theorem allocate_next (hv : Vacant b.root A s) {now : Instant} (hclock : now.IsClock)
    (h : (spare = [] ∧ begun = [] ∧ t = s) ∨ Tidy b A spare begun t) :
    ∃ key t', b.allocate.run { t with clock := now } = (.ok (b.workspace key), t') ∧
      Given b A key { t with clock := now } t' ∧ Tidy b A (key :: spare) begun t' := by
  rcases h with ⟨rfl, rfl, rfl⟩ | h
  · obtain ⟨key, t', hrun, hgiven⟩ :=
      given_vacant (hv.of_clock now) hclock
    refine ⟨key, t', hrun, hgiven, hgiven.dated, ?_, .nil, fun k hk => ?_⟩
    · rw [hgiven.bound]
      exact hv.bound latest
    · obtain rfl : k = key := by simpa using hk
      exact ⟨hgiven.isKey, hgiven.stands, by simp⟩
  · have hkept : Tidy b A spare begun { t with clock := now } :=
      ⟨h.dated.of_clock now, h.latest, h.ascending, fun k hk =>
        ⟨(h.spare k hk).1, (h.spare k hk).2.1.of_clock now, (h.spare k hk).2.2⟩⟩
    obtain ⟨key, t', hrun, hgiven, hstands⟩ := given_dated hkept.dated hclock
    exact ⟨key, t', hrun, hgiven, tidy_allocated hkept hgiven hstands⟩

theorem Tended.tidy (hv : Vacant b.root A s) (h : Tended b s spare begun t) :
    (spare = [] ∧ begun = [] ∧ t = s) ∨ Tidy b A spare begun t := by
  induction h with
  | untouched => exact .inl ⟨rfl, rfl, rfl⟩
  | allocated before clock run ih =>
    obtain ⟨key, t', hrun, -, htidy⟩ := allocate_next hv clock ih
    rw [run] at hrun
    cases hrun
    exact .inr htidy
  | entered before mem directory workspace run ih =>
    rcases ih with ⟨rfl, -, -⟩ | htidy
    · cases mem
    · obtain ⟨t', hrun, htidy'⟩ := tidy_entered htidy mem directory workspace
      rw [run] at hrun
      cases hrun
      exact .inr htidy'

/-- In a build root that was vacant at first, the keys of the attempts increase. Every further allocation
succeeds: there is nothing yet where it makes its directory, and its key is later than those of all
attempts. In every workspace that was given out since the last beginning an attempt can begin. -/
theorem keys_increase (hv : Vacant b.root A s) (h : Tended b s spare begun t) :
    (begun.Pairwise fun later earlier => Text.lt earlier later = true) ∧
    (∀ now : Instant, now.IsClock →
      ∃ key t', b.allocate.run { t with clock := now } = (.ok (b.workspace key), t') ∧
        t.disk.lookup? (b.root.child key) false = none ∧ t'.disk.isDir (b.root.child key) = true ∧
        ∀ k ∈ begun, Text.lt k key = true) ∧
    ∀ key ∈ spare, ∀ v : Supervision, v.directory = b → v.workspace = b.workspace key →
      ∃ t', v.enter.run t = (.ok (), t') ∧
        b.pointers.bound t'.disk latest = some (.str key) := by
  have htidy := h.tidy hv
  refine ⟨?_, fun now hnow => ?_, fun key hkey v hd hw => ?_⟩
  · rcases htidy with ⟨-, rfl, -⟩ | htidy
    · exact .nil
    · exact htidy.ascending
  · obtain ⟨key, t', hrun, hgiven, htidy'⟩ := allocate_next hv hnow htidy
    exact ⟨key, t', hrun, hgiven.new, hgiven.isDir, (htidy'.spare key List.mem_cons_self).2.2⟩
  · rcases htidy with ⟨rfl, -, -⟩ | htidy
    · cases hkey
    · obtain ⟨t', hrun, htidy'⟩ := tidy_entered htidy hkey hd hw
      exact ⟨t', hrun, htidy'.latest⟩

/-- The clock goes backwards. -/
theorem keys_increase_bare : let b : BuildDir := ⟨⟨"/", ["p", "run"]⟩, true⟩
    ∃ k k' t, Tended b Call.bare [] [k', k] t ∧ Text.lt k k' = true := by
  intro b
  have hv : Vacant b.root ["/", "p", "run"] Call.bare := Call.vacant_bare
  -- One more allocation and the beginning of its attempt.
  have next : ∀ {begun t}, Tended b Call.bare [] begun t → ∀ now : Instant, now.IsClock →
      ∃ k t', Tended b Call.bare [] (k :: begun) t' := by
    intro begun t h now hnow
    obtain ⟨k, t₁, hrun, -, -, -⟩ := (keys_increase hv h).2.1 now hnow
    have h₁ := Tended.allocated h hnow hrun
    obtain ⟨t₂, henter, -⟩ := (keys_increase hv h₁).2.2 k List.mem_cons_self ⟨b, b.workspace k, true, 50⟩ rfl rfl
    exact ⟨k, t₂, .entered h₁ List.mem_cons_self rfl rfl henter⟩
  obtain ⟨k, t₁, h₁⟩ := next .untouched ⟨2024, 3, 1, 10, 0, 0, 0, none⟩ ⟨rfl, by decide, by decide⟩
  obtain ⟨k', t₂, h₂⟩ := next h₁ ⟨2023, 3, 1, 10, 0, 0, 0, none⟩ ⟨rfl, by decide, by decide⟩
  exact ⟨k, k', t₂, h₂, (List.pairwise_cons.1 (keys_increase hv h₂).1).1 k List.mem_cons_self⟩

end FlowPlan.BuildDir

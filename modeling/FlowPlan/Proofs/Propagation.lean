import FlowPlan.Proofs.Allocation

/-!
# A failure goes on

An attempt that fails ends with its failure, and its record tells of it, whatever has become of the
pointers. Those that can be read tell of it, too; a file that cannot be read is left as it is. Two things
come between: a quiet attempt ends with another failure if its log has no excerpt, and a directory in the
way of the link of the failure keeps the attempt bound as the running one.

## Main statements

* `Supervision.excerpt_isOk` — a log that is a file has an excerpt.
* `Supervision.supervise_aborts` — what a failure of an attempt comes to.
-/

namespace FlowPlan.Supervision

open FlowPlan.Action Site Pointers Workspace

variable {v : Supervision} {A : Address} {s s₀ s₁ : Site}

/-- A log that is a file has an excerpt, and so has one that is missing. -/
theorem excerpt_isOk {w : Workspace} (hs : Stands w A s) {limit : Int} (hlimit : 0 ≤ limit)
    (hlog : ∀ e, s.disk.find? (A ++ [w.key] ++ [logName]) = some e → e.isFile = true) :
    ∃ lines, excerpt limit w.logPath s.disk = .ok lines := by
  have hnolink : ∀ t, s.disk.find? (A ++ [w.key] ++ [logName]) ≠ some (.link t) := fun t ht => by
    simpa [Entry.isFile] using hlog _ ht
  have hexists : s.disk.exists? w.logPath = (s.disk.find? (A ++ [w.key] ++ [logName])).isSome :=
    hs.rooted.exists?_child isName_logName.1 hnolink
  unfold excerpt
  rw [hexists]
  cases hfind : s.disk.find? (A ++ [w.key] ++ [logName]) with
  | none =>
    rw [Option.isSome_none, if_pos (by simp)]
    exact ⟨[], rfl⟩
  | some e =>
    cases e with
    | dir => simpa [Entry.isFile] using hlog _ hfind
    | link t => exact absurd hfind (hnolink t)
    | file c =>
      have haddress : s.disk.address w.logPath = .ok (A ++ [w.key] ++ [logName]) :=
        hs.rooted.address_child isName_logName.1 isName_logName.2 fun _ => hnolink
      have hread : s.disk.readText w.logPath = .ok c.toText := by
        unfold Disk.readText Disk.readContent
        rw [haddress, Attempt.ok_bind, hfind]
        rfl
      rw [Option.isSome_some, if_neg (by simp), if_neg (by omega), hread]
      exact ⟨_, rfl⟩

/-- An attempt that fails goes on with its failure unless the report of it fails, and its record tells of the
failure, whatever the file of the pointers holds then. Pointers that can be read tell of it, too, and no
longer of the running attempt unless the alias of the failure cannot be shown; any other file is left as it
is. -/
theorem supervise_aborts {α : Type} {a : Session α} {f : Fault} (hroot : v.directory.root = v.workspace.root)
    (henter : v.enter.run s₀ = (.ok (), s₁)) (hfails : a.run s₁ = (.error f, s))
    (hs : Stands v.workspace A s) (hclosed : Disk.Closed A s.disk) (hun : Unlinked A s.disk) :
    ∃ t, (v.supervise a).run s₀ = (.error (outlasting f (v.reported t.disk)), t) ∧
      ((v.quiet = true → 0 ≤ v.excerptLines ∧
          ∀ e, t.disk.find? (A ++ [v.workspace.key] ++ [logName]) = some e → e.isFile = true) →
        (v.supervise a).run s₀ = (.error f, t)) ∧
      Ended v.workspace A t.disk (.str Record.aborted) f.recordedStatus (.str f.describe) ∧
      (∀ B, v.directory.pointers.load s.disk = .ok B →
        v.directory.pointers.bound t.disk aborted = some (.str v.workspace.key) ∧
        ((v.directory.links = true → s.disk.Clear A aborted) →
          v.directory.pointers.bound t.disk running =
            if v.directory.pointers.bound s.disk running = some (.str v.workspace.key) then none
            else v.directory.pointers.bound s.disk running) ∧
        (v.directory.links = true ∧ ¬ s.disk.Clear A aborted →
          v.directory.pointers.bound t.disk running = v.directory.pointers.bound s.disk running) ∧
        ∀ n, n ≠ aborted → n ≠ running →
          v.directory.pointers.bound t.disk n = v.directory.pointers.bound s.disk n) ∧
      ∀ g, v.directory.pointers.load s.disk = .error g →
        t.disk.find? (A ++ [storeName]) = s.disk.find? (A ++ [storeName]) := by
  obtain ⟨t, habort, hnoted⟩ := abort_run (v := v) ⟨hroot, hs, hclosed⟩ f
  have hrun := supervise_failed henter hfails habort
  have hblocked : v.directory.pointers.Blocked s.disk A (aborted, v.key) ↔
      v.directory.links = true ∧ ¬ s.disk.Clear A aborted := blocked_name hs.name aborted
  refine ⟨t, hrun, fun hlegible => ?_, hnoted.ended, fun B hload => ?_, fun g hload => hnoted.unread hun ⟨g, hload⟩⟩
  · have hreported : v.reported t.disk = .ok () := by
      unfold reported
      split
      · obtain ⟨hlimit, hlog⟩ := hlegible ‹_›
        obtain ⟨lines, hlines⟩ := excerpt_isOk (hnoted.passes.stands hs) hlimit hlog
        rw [hlines]
        rfl
      · rfl
    rw [hrun, hreported]
    rfl
  · have hfailed := hnoted.read hun ⟨B, hload⟩
    by_cases hclear : v.directory.links = true ∧ ¬ s.disk.Clear A aborted
    · have hbound := hfailed.blocked (hblocked.2 hclear)
      rw [hbound]
      exact ⟨rebound_str _ _ _, fun h => absurd (h hclear.1) hclear.2,
        fun _ => rebound_of_ne _ (by decide) _, fun n hn _ => rebound_of_ne _ hn.symm _⟩
    · have hbound := hfailed.shown (mt hblocked.1 hclear)
      have hrunning : rebound (v.directory.pointers.bound s.disk) (aborted, v.key) running =
          v.directory.pointers.bound s.disk running := rebound_of_ne _ (by decide) _
      rw [hbound]
      refine ⟨?_, fun _ => ?_, fun h => absurd h hclear, fun n hn hn' => ?_⟩
      · rw [released_other _ _ (by decide)]
        exact rebound_str _ _ _
      · unfold released
        rw [hrunning]
        split
        · exact rebound_null _ _
        · exact hrunning
      · rw [released_other _ _ hn', rebound_of_ne _ hn.symm]

/-- The program is told to end with a status in the first attempt of a project. -/
theorem supervise_aborts_bare : ∃ (v : Supervision) (s₀ t : Site),
    (v.supervise (Action.fail (.halted [.int 3]) : Session Unit)).run s₀ = (.error (.halted [.int 3]), t) ∧
      v.directory.pointers.bound t.disk aborted = some (.str v.workspace.key) ∧
      v.directory.pointers.bound t.disk running = none := by
  have hvacant : Builder.Vacant ⟨"/", ["p", "run"]⟩ ["/", "p", "run"] Call.bare := Call.vacant_bare
  obtain ⟨key, s₀, -, hgiven⟩ := BuildDir.given_vacant (b := ⟨⟨"/", ["p", "run"]⟩, true⟩) hvacant
    ⟨rfl, by decide, by decide⟩
  obtain ⟨v, hv⟩ : ∃ v : Supervision, v = ⟨⟨⟨"/", ["p", "run"]⟩, true⟩, ⟨⟨"/", ["p", "run"]⟩, key⟩, false, 50⟩ :=
    ⟨_, rfl⟩
  obtain ⟨s₁, henter, hpass, hsound, -, hbound⟩ := BuildDir.enter_sound (v := v) hgiven.dated.sound
    (by rw [hv]) (by rw [hv]; rfl) hgiven.isKey.isKeyName hgiven.stands
  obtain ⟨B, hload⟩ := hsound.load true
  subst hv
  obtain ⟨t, -, hgoes, -, hread, -⟩ := supervise_aborts (a := (Action.fail (.halted [.int 3]) : Session Unit))
    rfl henter rfl (hpass.stands hgiven.stands) hsound.closed fun t ht => by simpa using hsound.store _ ht
  obtain ⟨haborted, hrunning, -⟩ := hread B hload
  refine ⟨_, s₀, t, hgoes (by simp), haborted, ?_⟩
  rw [hrunning fun _ => hsound.clear _ (by simp [aliases]), if_pos]
  exact (congrFun hbound running).trans (rebound_str _ _ _)

end FlowPlan.Supervision

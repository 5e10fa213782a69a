import FlowPlan.Proofs.Closing
import FlowPlan.Proofs.Document.Qualification
import FlowPlan.Proofs.Json.Reading
import FlowPlan.Proofs.Registry

/-!
# What is told of the checks that fail

The messages of checks that fail are kept under their names. Checks are registered under different names, and
the commands that are configured have different names as well, but a command can have the name of a registered
check, and so can a check that was registered without a name. Of the checks of one name that fail the last one
has its messages kept, and those of the others are lost unless it has them as well.

## Main definitions

* `Gate.IsTold` — a message is kept under a name.

## Main statements

* `Settings.nodup_commands` — commands have different names.
* `Catalog.Keyed.count_units` — how many units of a catalog have one name.
* `Builder.told_iff` — whose messages are kept.
-/

namespace FlowPlan

open FlowPlan.Action

/-! ## Commands -/

namespace Json

theorem distinct_of_getD {v default w : Json} {n : String} (hv : v.Distinct) (hdefault : default.Distinct)
    (h : v.getD n default = .ok w) : w.Distinct := by
  cases v with
  | obj fs =>
    have hw : (Assoc.find? fs n).getD default = w := Except.ok.inj h
    cases hfind : Assoc.find? fs n with
    | none => exact hw ▸ hfind ▸ hdefault
    | some x => exact hw ▸ hfind ▸ hv.find? hfind
  | _ => cases h

theorem distinct_null : Json.null.Distinct := trivial

theorem distinct_empty : (Json.obj []).Distinct := distinct_obj.2 ⟨by simp [Assoc.keys], by simp⟩

end Json

namespace Settings

variable {raw given v : Json} {project : Path} {settings : Settings}

theorem distinct_of_section {n : String} (hraw : raw.Distinct) (h : sectionOf raw n = .ok v) : v.Distinct := by
  obtain ⟨w, hw, h⟩ := Attempt.bind_eq_ok.1 h
  split at h
  · cases h
    exact Json.distinct_empty
  · split at h
    · cases h
      exact Json.distinct_of_getD hraw Json.distinct_null hw
    · cases h

theorem nodup_commandsIn {cs : Assoc String CommandSettings} (hv : v.Distinct) (h : commandsIn v = .ok cs) :
    (Assoc.keys cs).Nodup := by
  obtain ⟨w, hw, h⟩ := Attempt.bind_eq_ok.1 h
  obtain ⟨entries, hentries, h⟩ := Attempt.bind_eq_ok.1 h
  have hw' : (if w.truthy then w else .obj []).Distinct := by
    split
    · exact Json.distinct_of_getD hv Json.distinct_null hw
    · exact Json.distinct_empty
  have hnodup : (Assoc.keys entries).Nodup := by
    generalize (if w.truthy then w else .obj []) = u at hentries hw'
    cases u with
    | obj fs =>
      cases hentries
      exact (Json.distinct_obj.1 hw').1
    | _ => cases hentries
  have hkeys : cs.map (·.1) = entries.map (·.1) := by
    refine Attempt.map_of_mapM h fun e _ c hc => ?_
    obtain ⟨_, -, hc⟩ := Attempt.bind_eq_ok.1 hc
    cases hc
    rfl
  unfold Assoc.keys at hnodup ⊢
  rwa [hkeys]

theorem nodup_of_accept (hgiven : given.Distinct) (h : accept given project = .ok settings) :
    (Assoc.keys settings.commands).Nodup := by
  obtain ⟨s, hs, h⟩ := Attempt.bind_eq_ok.1 h
  obtain ⟨_, -, h⟩ := Attempt.bind_eq_ok.1 h
  cases h
  have hraw : (if given.truthy then given else .obj []).Distinct := by
    split
    · exact hgiven
    · exact Json.distinct_empty
  unfold ofJson at hs
  dsimp only at hs
  iterate 14 obtain ⟨_, -, hs⟩ := Attempt.bind_eq_ok.1 hs
  obtain ⟨validation, hvalidation, hs⟩ := Attempt.bind_eq_ok.1 hs
  obtain ⟨_, -, hs⟩ := Attempt.bind_eq_ok.1 hs
  obtain ⟨commands, hcommands, hs⟩ := Attempt.bind_eq_ok.1 hs
  cases hs
  exact nodup_commandsIn (distinct_of_section hraw hvalidation) hcommands

/-- No two commands of a project have one name, if mappings that are parsed have no key twice. -/
theorem nodup_commands {parse : List Char → Option Json} (hparse : ∀ text v, parse text = some v → v.Distinct)
    {asked : Option Path} {d : Disk} (h : loadWith parse asked project d = .ok settings) :
    (Assoc.keys settings.commands).Nodup := by
  unfold loadWith at h
  dsimp only at h
  split at h
  · obtain ⟨text, -, h⟩ := Attempt.bind_eq_ok.1 h
    obtain ⟨v, hv, h⟩ := Attempt.bind_eq_ok.1 h
    refine nodup_of_accept ?_ h
    unfold valueWith at hv
    split at hv
    · cases hv
    · rename_i w hw
      split at hv
      · cases hv
        exact Json.distinct_empty
      · split at hv
        · cases hv
          exact hparse _ _ hw
        · cases hv
  · split at h
    · cases h
    · exact nodup_of_accept Json.distinct_empty h

end Settings

/-! ## Catalogs -/

/-- What is found under one place only is found as often as the place is there. -/
theorem count_filterMap_le {f : String → Option String} {n : String} (hf : ∀ k, f k = some n → k = n)
    (ns : List String) : (ns.filterMap f).count n ≤ ns.count n := by
  rw [List.count, List.countP_filterMap]
  refine List.countP_mono_left fun k _ hk => ?_
  cases hfound : f k with
  | none => simp [hfound] at hk
  | some m =>
    obtain rfl : m = n := by simpa [hfound] using hk
    simp [hf k hfound]

namespace Catalog

variable {α : Type} {nameOf : α → String} {c : Catalog α}

/-- A unit of that name was registered without a name. -/
def Renamed (nameOf : α → String) (c : Catalog α) (n : String) : Prop :=
  n ≠ "" ∧ ∃ u, Assoc.find? c.entries "" = some u ∧ nameOf u = n

/-- At most one unit of a catalog has the name, and the name is registered, unless a unit has it that was
registered without one. -/
theorem Keyed.count_units (h : Keyed nameOf c) {n : String} (hrenamed : ¬ c.Renamed nameOf n) {disabled : List Json}
    {us : List α} (hus : c.units disabled = .ok us) :
    (us.map nameOf).count n ≤ 1 ∧ (0 < (us.map nameOf).count n → c.has n = true) := by
  have hkey : ∀ k u, Assoc.find? c.entries k = some u → nameOf u = n → k = n := by
    intro k u hu hname
    by_cases hk : k = ""
    · subst hk
      by_contra hne
      exact hrenamed ⟨Ne.symm hne, u, hu, hname⟩
    · rw [← hname, h.named _ (Assoc.mem_of_find? hu) hk]
  obtain ⟨skip, -, hus⟩ := Attempt.bind_eq_ok.1 hus
  cases hus
  constructor
  · have hnames : c.names.Nodup := (Text.sortOn_perm id (Assoc.keys c.entries)).nodup_iff.2 h.nodup
    rw [List.map_filterMap]
    refine (count_filterMap_le (fun k hk => ?_) _).trans (List.nodup_iff_count_le_one.1 (hnames.filter _) n)
    obtain ⟨u, hu, hname⟩ := Option.map_eq_some_iff.1 hk
    exact hkey k u hu hname
  · intro hpos
    obtain ⟨u, hu, hname⟩ := List.mem_map.1 (List.count_pos_iff.1 hpos)
    obtain ⟨k, -, hk⟩ := List.mem_filterMap.1 hu
    obtain rfl := hkey k u hk hname
    exact Assoc.contains_iff.2 (List.mem_map_of_mem (f := (·.1)) (Assoc.mem_of_find? hk))

end Catalog

/-! ## Checks of a builder -/

namespace Builder

variable {b : Builder} {cs us ms : List Check}

theorem checks_eq_ok : b.checks = .ok cs ↔
    ∃ us ms, b.catalogs.checks.units b.settings.disabledChecks = .ok us ∧ b.commandChecks = .ok ms ∧
      cs = us ++ ms := by
  unfold checks
  constructor
  · intro h
    obtain ⟨us, hus, h⟩ := Attempt.bind_eq_ok.1 h
    obtain ⟨ms, hms, h⟩ := Attempt.bind_eq_ok.1 h
    cases h
    exact ⟨us, ms, hus, hms, rfl⟩
  · rintro ⟨us, ms, hus, hms, rfl⟩
    rw [hus, hms]
    rfl

/-- No two checks by commands have one name, and each name is configured. -/
theorem names_commandChecks (hnodup : (Assoc.keys b.settings.commands).Nodup) (h : b.commandChecks = .ok ms) :
    (ms.map Check.name).Nodup ∧ ∀ c ∈ ms, Assoc.contains b.settings.commands c.name = true := by
  have hnames : ms.map Check.name =
      ((Text.sortOn (·.1) b.settings.commands).filter fun e =>
        !b.settings.disabledChecks.contains (.str e.1)).map (·.1) := by
    refine Attempt.map_of_mapM h fun e _ c hc => ?_
    obtain ⟨_, -, hc⟩ := Attempt.bind_eq_ok.1 hc
    cases hc
    rfl
  have hkeys : ((Text.sortOn (·.1) b.settings.commands).map (·.1)).Perm (Assoc.keys b.settings.commands) :=
    (Text.sortOn_perm _ _).map _
  have hsub := (List.filter_sublist (p := fun e : String × CommandSettings =>
    !b.settings.disabledChecks.contains (.str e.1)) (l := Text.sortOn (·.1) b.settings.commands)).map (·.1)
  rw [← hnames] at hsub
  refine ⟨(hkeys.nodup_iff.2 hnodup).sublist hsub, fun c hc => ?_⟩
  exact Assoc.contains_iff.2 (hkeys.subset (hsub.subset (List.mem_map_of_mem hc)))

end Builder

/-! ## Messages -/

namespace Gate

/-- The message is kept under the name. -/
def IsTold (failures : Assoc String (List Json)) (name : String) (message : Json) : Prop :=
  ∃ kept, Assoc.find? failures name = some kept ∧ message ∈ kept

variable {ts before after : List Trial} {t : Trial}

/-- Of the checks of one name the last that fails has its messages kept. -/
theorem find?_failuresOf (ts : List Trial) (n : String) :
    Assoc.find? (failuresOf ts) n =
      ((ts.filter (·.Fails)).reverse.find? (·.check.name = n)).map (·.verdict.messages) := by
  rw [failuresOf, Assoc.ofEntries, Assoc.find?_foldl_set, Assoc.find?_nil, Option.or_none, ← List.map_reverse,
    Assoc.find?_map_entries]

/-- The messages are kept unless the last check of that name that fails later does so without them. -/
theorem told_iff_of_split (hsplit : ts = before ++ t :: after) (hfails : t.Fails) :
    (∀ m ∈ t.verdict.messages, IsTold (failuresOf ts) t.check.name m) ↔
      ∀ between u rest, after = between ++ u :: rest → u.Fails → u.check.name = t.check.name →
        (∀ w ∈ rest, w.Fails → w.check.name ≠ t.check.name) → ∀ m ∈ t.verdict.messages, m ∈ u.verdict.messages := by
  -- Seen from the end, the last one is the first.
  obtain ⟨last?, hlast⟩ : ∃ x, x = after.reverse.find? fun w => decide (w.Fails ∧ w.check.name = t.check.name) :=
    ⟨_, rfl⟩
  have hfind : Assoc.find? (failuresOf ts) t.check.name = some (last?.getD t).verdict.messages := by
    have hcons : (t :: after).filter (·.Fails) = t :: after.filter (·.Fails) :=
      List.filter_cons_of_pos (decide_eq_true hfails)
    rw [find?_failuresOf, hsplit, List.filter_append, hcons, List.reverse_append, List.reverse_cons,
      List.append_assoc, List.find?_append, ← List.filter_reverse, List.find?_filter]
    simp only [decide_eq_true_eq]
    rw [← hlast]
    cases last? with
    | none => simp
    | some u => simp
  have htold : ∀ m, IsTold (failuresOf ts) t.check.name m ↔ m ∈ (last?.getD t).verdict.messages := by
    intro m
    simp [IsTold, hfind]
  simp only [htold]
  constructor
  · intro hall between u rest hafter hufails hname hrest m hm
    have hu : last? = some u := by
      rw [hlast, List.find?_eq_some_iff_append]
      refine ⟨by simp [hufails, hname], rest.reverse, between.reverse, by simp [hafter], fun w hw => ?_⟩
      simpa [imp_iff_not_or] using hrest w (List.mem_reverse.1 hw)
    have htm := hall m hm
    rwa [hu] at htm
  · intro hall m hm
    cases hu : last? with
    | none => exact hm
    | some u =>
      obtain ⟨hfits, rest, between, hreverse, hrest⟩ := List.find?_eq_some_iff_append.1 (hlast.symm.trans hu)
      have hafter : after = between.reverse ++ u :: rest.reverse := by
        rw [← List.reverse_reverse after, hreverse]
        simp
      rw [decide_eq_true_eq] at hfits
      refine hall between.reverse u rest.reverse hafter hfits.1 hfits.2 (fun w hw => ?_) m hm
      simpa [imp_iff_not_or] using hrest w (List.mem_reverse.1 hw)

end Gate

namespace Builder

open Gate

variable {b : Builder} {cs : List Check} {phase subject : Json} {artifact : Option Path} {s s' : Site}
  {ts : List Trial}

/-- If two checks of a phase have one name, then it is that of a command and of a registered check, or that of
a check that was registered without a name. -/
theorem count_names_le (hnodup : (Assoc.keys b.settings.commands).Nodup)
    (hkeyed : Catalog.Keyed Check.name b.catalogs.checks) (hchecks : b.checks = .ok cs)
    (h : TriesAll b.host cs phase subject artifact s ts s') {n : String}
    (htwice : 2 ≤ (ts.map (·.check.name)).count n) :
    b.catalogs.checks.has n = true ∧ Assoc.contains b.settings.commands n = true ∨
      b.catalogs.checks.Renamed Check.name n := by
  by_cases hrenamed : b.catalogs.checks.Renamed Check.name n
  · exact .inr hrenamed
  obtain ⟨us, ms, hus, hms, rfl⟩ := checks_eq_ok.1 hchecks
  obtain ⟨hu, huhas⟩ := hkeyed.count_units hrenamed hus
  obtain ⟨hmnodup, hmhas⟩ := names_commandChecks hnodup hms
  have hm := List.nodup_iff_count_le_one.1 hmnodup n
  have hcount : (ts.map (·.check.name)).count n ≤ (us.map Check.name).count n + (ms.map Check.name).count n := by
    have hperm := (h.once.map Check.name).count_eq n
    rw [List.map_map] at hperm
    have hsub :=
      ((List.filter_sublist (p := fun c : Check => c.phase = phase) (l := us ++ ms)).map Check.name).count_le n
    rw [List.map_append, List.count_append] at hsub
    exact hperm.trans_le hsub
  obtain ⟨c, hc, rfl⟩ := List.mem_map.1 (List.count_pos_iff.1 (by omega : 0 < (ms.map Check.name).count n))
  exact .inl ⟨huhas (by omega), hmhas c hc⟩

/-- When the gate of a builder closes, the messages of a check that fails are kept under its name, unless the
last check of that name that fails later does so without them. There is a later check of that name only if a
command has the name of a registered check, or if a check has it that was registered without a name. -/
theorem told_iff {b : Builder} {cs : List Check} {parse : List Char → Option Json}
    (hparse : ∀ text v, parse text = some v → v.Distinct) {asked : Option Path} {project : Path} {d : Disk}
    (hload : Settings.loadWith parse asked project d = .ok b.settings)
    (hkeyed : Catalog.Keyed Check.name b.catalogs.checks) (hchecks : b.checks = .ok cs)
    {phase subject : Json} {artifact : Option Path} {s s' : Site} {text : String}
    {failures : Assoc String (List Json)} {status : Option Int}
    (hrun : (Gate.run b.host cs phase subject artifact).run s =
      (.error (.validationFailed text failures status), s')) :
    ∃ ts, TriesAll b.host cs phase subject artifact s ts s' ∧
      ∀ before t after, ts = before ++ t :: after → t.Fails →
        ((∀ m ∈ t.verdict.messages, IsTold failures t.check.name m) ↔
          ∀ between u rest, after = between ++ u :: rest → u.Fails → u.check.name = t.check.name →
            (∀ w ∈ rest, w.Fails → w.check.name ≠ t.check.name) →
              ∀ m ∈ t.verdict.messages, m ∈ u.verdict.messages) ∧
        ∀ u ∈ after, u.check.name = t.check.name →
          b.catalogs.checks.has t.check.name = true ∧
              Assoc.contains b.settings.commands t.check.name = true ∨
            b.catalogs.checks.Renamed Check.name t.check.name := by
  obtain ⟨ts, first, rest, htries, -, rfl, -⟩ := of_run_fails hrun
  refine ⟨ts, htries, fun before t after hsplit hfails => ⟨told_iff_of_split hsplit hfails, fun u hu hname => ?_⟩⟩
  refine count_names_le (Settings.nodup_commands hparse hload) hkeyed hchecks htries ?_
  have hlater : 0 < (after.map (·.check.name)).count t.check.name :=
    List.count_pos_iff.2 (List.mem_map.2 ⟨u, hu, hname⟩)
  rw [hsplit, List.map_append, List.count_append, List.map_cons, List.count_cons_self]
  omega

/-- A project with a command that has the name of a standard check. -/
def sharing : Disk :=
  ⟨[(["/"], .dir), (["/", Settings.fileName], .file (.text
    "\x7b\"validation\":\x7b\"commands\":\x7b\"no_collisions\":\x7b\"command\":[\"false\"]\x7d\x7d\x7d\x7d"))], []⟩

/-- A builder in which that check alone is registered, on a host whose commands all fail without a word. -/
def sharer (settings : Settings) : Builder where
  settings := settings
  catalogs := ⟨.empty "stage", .empty "generator", ⟨"check", [("no_collisions", Check.noCollisions)]⟩⟩
  host := .uniform (silent 1)
  quiet := true
  wait := false

theorem checks_sharer : ∃ settings, Settings.loadWith Json.parse? none ⟨"/", []⟩ sharing = .ok settings ∧
    (sharer settings).checks = .ok [Check.noCollisions, calling "no_collisions" ["false"]] := by
  have hload : (Settings.loadWith Json.parse? none ⟨"/", []⟩ sharing).map (fun settings => (settings.disabledChecks,
      settings.commands.map fun e => (e.1, e.2.phase, e.2.words))) =
        .ok ([], [("no_collisions", .str planPhase, [.str "false"])]) := by decide +kernel
  cases hsettings : Settings.loadWith Json.parse? none ⟨"/", []⟩ sharing with
  | error f =>
    rw [hsettings] at hload
    cases hload
  | ok settings =>
    rw [hsettings] at hload
    obtain ⟨hdisabled, hcommands⟩ := Prod.mk.inj (Except.ok.inj hload)
    obtain ⟨⟨n, name, phase, words⟩, hentry, heq⟩ := List.map_eq_singleton_iff.1 hcommands
    cases heq
    refine ⟨settings, rfl, checks_eq_ok.2 ⟨[Check.noCollisions], [calling "no_collisions" ["false"]], ?_, ?_, rfl⟩⟩
    · have hnames : (sharer settings).catalogs.checks.names = ["no_collisions"] :=
        Text.sortOn_of_pairwise (List.pairwise_singleton _ _)
      change (sharer settings).catalogs.checks.units settings.disabledChecks = _
      rw [hdisabled]
      unfold Catalog.units
      rw [hnames]
      rfl
    · have hsort : Text.sortOn (·.1) settings.commands = settings.commands := by
        rw [hentry]
        exact Text.sortOn_of_pairwise (by simp)
      change ((Text.sortOn (·.1) settings.commands).filter fun e =>
        !settings.disabledChecks.contains (.str e.1)).mapM _ = _
      rw [hsort, hentry, hdisabled]
      rfl

/-- Both checks fail, and what the first of them has to say is lost. -/
theorem told_iff_sharing :
    ∃ settings failures s', Settings.loadWith Json.parse? none ⟨"/", []⟩ sharing = .ok settings ∧
      Catalog.Keyed Check.name (sharer settings).catalogs.checks ∧
      (sharer settings).checks = .ok [Check.noCollisions, calling "no_collisions" ["false"]] ∧
      (Gate.run (sharer settings).host [Check.noCollisions, calling "no_collisions" ["false"]] (.str planPhase)
        colliding (some ⟨"/", ["x"]⟩)).run Workspace.specimenSite = (.error (.validationFailed planPhase failures none), s') ∧
      ¬ IsTold failures "no_collisions" collision ∧
      ∃ ts t, TriesAll (sharer settings).host [Check.noCollisions, calling "no_collisions" ["false"]] (.str planPhase)
          colliding (some ⟨"/", ["x"]⟩) Workspace.specimenSite ts s' ∧ t ∈ ts ∧ t.check = Check.noCollisions ∧
        ∀ before after, ts = before ++ t :: after → t.Fails →
          ((∀ m ∈ t.verdict.messages, IsTold failures t.check.name m) ↔
            ∀ between u rest, after = between ++ u :: rest → u.Fails → u.check.name = t.check.name →
              (∀ w ∈ rest, w.Fails → w.check.name ≠ t.check.name) →
                ∀ m ∈ t.verdict.messages, m ∈ u.verdict.messages) := by
  obtain ⟨settings, hload, hchecks⟩ := checks_sharer
  have hkeyed : Catalog.Keyed Check.name (sharer settings).catalogs.checks :=
    ⟨by simp [sharer, Assoc.keys], by simp [sharer, Check.noCollisions, Check.reading]⟩
  have hchecksOf : checksOf (.str planPhase) [Check.noCollisions, calling "no_collisions" ["false"]] =
      [Check.noCollisions, calling "no_collisions" ["false"]] := by
    unfold checksOf
    rw [Text.sortOn_of_pairwise (by decide)]
    rfl
  obtain ⟨s', hclosed⟩ := run_silent (by decide : 1 ≠ 0) (by decide) hchecksOf
  obtain ⟨ts, htries, htold⟩ := told_iff (b := sharer settings) (fun _ _ => Json.distinct_of_parse) hload hkeyed
    hchecks hclosed
  have hmem : Check.noCollisions ∈ ts.map (·.check) :=
    htries.once.mem_iff.2 (by simp [calling, Check.noCollisions, Check.reading])
  obtain ⟨t, ht, htcheck⟩ := List.mem_map.1 hmem
  refine ⟨settings, _, s', hload, hkeyed, hchecks, hclosed, ?_, ts, t, htries, ht, htcheck,
    fun before after hsplit hfails => (htold before t after hsplit hfails).1⟩
  rintro ⟨kept, hkept, hm⟩
  cases hkept
  exact absurd hm (by decide +kernel)

end Builder

end FlowPlan

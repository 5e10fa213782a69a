import FlowPlan.Proofs.Json.Texts
import FlowPlan.Proofs.Phases

/-!
# The standard build

What a build is made with when nothing is configured.

## Main definitions

* `Settings.standard` — the settings of an empty mapping.
* `Builder.standard` — the standard units with these settings.

## Main statements

* `Catalog.units_of_hashable` — the units of a catalog.
* `Builder.discreet_standard` — the standard units leave the build root alone.
-/

namespace FlowPlan

/-- The settings of a project in which nothing is configured. -/
def Settings.standard (project : Path) : Settings where
  project := project
  buildRoot := Path.parse "run"
  maxWorkers := .null
  waitForLock := false
  links := true
  logMode := .str "quiet"
  logLevel := "INFO"
  logFormat := .str "structured"
  disabledStages := []
  disabledGenerators := []
  disabledChecks := []
  commands := []

theorem Settings.accept_empty (project : Path) :
    Settings.accept (.obj []) project = .ok (.standard project) := by
  rfl

/-- Settings that make sense name a known severity. -/
theorem Settings.level_of_check {s : Settings} (h : s.check = .ok ()) :
    s.logLevel ∈ Settings.levels := by
  unfold Settings.check at h
  dsimp only at h
  split at h
  · obtain ⟨_, hthrow, -⟩ := Attempt.bind_eq_ok.1 h
    cases hthrow
  · obtain ⟨-, -, h⟩ := Attempt.bind_eq_ok.1 h
    obtain ⟨-, -, h⟩ := Attempt.bind_eq_ok.1 h
    split at h
    · obtain ⟨_, hthrow, -⟩ := Attempt.bind_eq_ok.1 h
      cases hthrow
    · rename_i hknown
      simpa using hknown

/-- The units in the order of their names, if the disabled names can be a set. -/
theorem Catalog.units_of_hashable {α : Type} {c : Catalog α} {disabled : List Json}
    (h : ∀ v ∈ disabled, v.isHashable = true) : c.units disabled =
      .ok ((c.names.filter fun n => !Json.listed disabled (.str n)).filterMap (Assoc.find? c.entries)) := by
  rw [units, Json.distinct_eq_ok h]
  simp only [Json.listed_foldl_insertDistinct, Attempt.ok_bind, Attempt.pure_eq_ok]

theorem Catalog.mem_of_units {α : Type} {c : Catalog α} {disabled : List Json} {us : List α}
    (h : c.units disabled = .ok us) : ∀ u ∈ us, ∃ n, (n, u) ∈ c.entries := by
  intro u hu
  obtain ⟨skip, -, hus⟩ := Attempt.bind_eq_ok.1 h
  cases hus
  obtain ⟨n, -, hn⟩ := List.mem_filterMap.1 hu
  exact ⟨n, Assoc.mem_of_find? hn⟩

namespace Builder

/-- A builder with the standard units, which configures nothing. -/
def standard (host : Host) (project : Path) : Builder :=
  .ofSettings host (.standard project) .standard none none

theorem plain_of_entries {b : Builder} (hstages : ∀ x ∈ b.catalogs.stages.entries, PlainName x.2.name)
    (hgenerators : ∀ x ∈ b.catalogs.generators.entries, PlainName x.2.name) : b.Plain where
  stages us hus u hu := by
    obtain ⟨n, hn⟩ := Catalog.mem_of_units hus u hu
    exact hstages _ hn
  generators us hus u hu := by
    obtain ⟨n, hn⟩ := Catalog.mem_of_units hus u hu
    exact hgenerators _ hn

/-- Units with plain names are discreet, and so are checks that are no commands. -/
theorem discreet_of_entries {b : Builder} {A : Address}
    (hstages : ∀ x ∈ b.catalogs.stages.entries, PlainName x.2.name)
    (hgenerators : ∀ x ∈ b.catalogs.generators.entries, PlainName x.2.name)
    (hchecks : ∀ x ∈ b.catalogs.checks.entries, x.2.Discreet b.host b.settings.root A)
    (hcommands : b.settings.commands = []) : b.Discreet A where
  toPlain := plain_of_entries hstages hgenerators
  checks cs hcs c hc := by
    obtain ⟨us, hus, hcs⟩ := Attempt.bind_eq_ok.1 hcs
    have hnone : b.commandChecks = .ok [] := by
      unfold commandChecks
      rw [hcommands]
      simp [Text.sortOn, pure, Except.pure]
    rw [hnone] at hcs
    cases hcs
    rw [List.append_nil] at hc
    obtain ⟨n, hn⟩ := Catalog.mem_of_units hus c hc
    exact hchecks _ hn

theorem discreet_standard (host : Host) (project : Path) (A : Address) : (standard host project).Discreet A := by
  refine discreet_of_entries ?_ ?_ ?_ rfl
  · change ∀ x ∈ Catalogs.standard.stages.entries, _
    decide
  · change ∀ x ∈ Catalogs.standard.generators.entries, _
    decide
  · intro x hx w hroot
    have hfunction : ∀ x ∈ Check.standard, ∃ f, x.1.judge = .function f := by
      simp [Check.standard, Check.noCollisions, Check.dependenciesResolve, Check.inputsProduced,
        Check.acyclic, Check.fragmentsNonempty, Check.reading]
    obtain ⟨y, hy, rfl⟩ := List.mem_map.1 hx
    obtain ⟨f, hf⟩ := hfunction y hy
    exact Check.leaves_of_function hf _ w _

end Builder

end FlowPlan

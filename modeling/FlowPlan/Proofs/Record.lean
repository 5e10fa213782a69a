import FlowPlan.Build.Record
import FlowPlan.Proofs.Attempt
import FlowPlan.Proofs.Json.Sorted
import FlowPlan.Proofs.Json.Texts

/-!
# Records read back

A record is written with its keys in order and without the fields that say nothing. The records that
builds make are read back as they were written, all fields alike.

## Main definitions

* `Record.Plain` — what the record of a build holds.

## Main statements

* `Record.ofJson_toJson` — such a record is read back.
* `Record.plain_start`, `Record.Plain.finish`, `Record.Plain.addArtifact` — builds make no others.
-/

namespace FlowPlan

/-- The time is read back as it was written. -/
def Instant.Readable (t : Instant) : Prop := parse t.text = .ok t

instance (t : Instant) : Decidable t.Readable := inferInstanceAs (Decidable (_ = _))

theorem Instant.Readable.text_ne_empty {t : Instant} (h : t.Readable) : t.text ≠ "" := by
  intro hempty
  have hparse : parse "" = .ok t := hempty ▸ h
  exact absurd hparse (by simp [parse, shaped?, date?, digits?])

namespace Record

/-- The record of a build: texts where there should be texts, times that can be read, artifacts that are
all different, an error that says something if there is one, and an exit status that has no parts. -/
structure Plain (r : Record) : Prop where
  key : ∃ k, r.key = .str k
  status : ∃ t, r.status = .str t
  startedAt : r.startedAt.Readable
  endedAt : ∀ t, r.endedAt = some t → t.Readable
  artifacts : ∃ ns : List String, r.artifacts = ns.map .str ∧ ns.Nodup
  error : r.error = .null ∨ ∃ t, t ≠ "" ∧ r.error = .str t
  exitStatus : r.exitStatus.sortKeys = r.exitStatus

variable {r : Record}

/-! ## Reading back -/

/-- The fields of a record on disk. Those that say nothing are absent. -/
theorem find?_toJson (r : Record) :
    ∃ fs, r.toJson.sortKeys = .obj fs ∧
      Assoc.find? fs "key" = some r.key.sortKeys ∧
      Assoc.find? fs "status" = some r.status.sortKeys ∧
      Assoc.find? fs "started_at" = some (.str r.startedAt.text) ∧
      Assoc.find? fs "artifacts" = some (.arr (r.artifacts.map Json.sortKeys)) ∧
      Assoc.find? fs "ended_at" = r.endedAt.map (fun t => .str t.text) ∧
      Assoc.find? fs "error" = (if r.error.truthy then some r.error.sortKeys else none) ∧
      Assoc.find? fs "exit_status" = r.exitStatus.toOption.map Json.sortKeys := by
  refine ⟨_, rfl, ?_⟩
  simp only [Json.find?_sortKeysFields]
  cases r.endedAt <;> cases r.error.truthy <;> cases r.exitStatus.toOption <;>
    simp [Assoc.find?_cons, Json.sortKeys, Json.sortKeysList_eq_map]

theorem Plain.sortKeys_artifacts (h : r.Plain) : r.artifacts.map Json.sortKeys = r.artifacts := by
  obtain ⟨ns, hns, -⟩ := h.artifacts
  rw [hns, List.map_map]
  rfl

/-- An error that says nothing is none. -/
theorem Plain.error_getD (h : r.Plain) :
    (if r.error.truthy then some r.error.sortKeys else none).getD .null = r.error := by
  rcases h.error with hnull | ⟨t, ht, htext⟩
  · rw [hnull]
    rfl
  · rw [htext, if_pos (by simpa [Json.truthy] using ht)]
    rfl

theorem Plain.exitStatus_getD (h : r.Plain) :
    (r.exitStatus.toOption.map Json.sortKeys).getD .null = r.exitStatus := by
  by_cases hnull : r.exitStatus = .null
  · rw [hnull]
    rfl
  · rw [Json.toOption_of_ne_null hnull]
    exact h.exitStatus

/-- A record is read back as it was written. -/
theorem ofJson_toJson (h : r.Plain) : ofJson r.toJson.sortKeys = .ok r := by
  obtain ⟨fs, hfs, hkey, hstatus, hstarted, hartifacts, hended, herror, hexit⟩ := find?_toJson r
  obtain ⟨k, hk⟩ := h.key
  obtain ⟨t, ht⟩ := h.status
  have hstart : timeOf (.str r.startedAt.text) = .ok r.startedAt := h.startedAt
  have hrest : ∀ endedAt, (do
      let key ← (Json.obj fs).field "key"
      let status ← (Json.obj fs).getD "status" (.str running)
      let startedAt ← timeOf (← (Json.obj fs).field "started_at")
      let artifacts ← (← (Json.obj fs).getD "artifacts" (.arr [])).elements
      let error ← (Json.obj fs).getD "error" .null
      let exitStatus ← (Json.obj fs).getD "exit_status" .null
      return ⟨key, status, startedAt, endedAt, artifacts, error, exitStatus⟩ : Attempt Record) =
        .ok { r with endedAt := endedAt } := fun endedAt => by
    rw [Json.field_obj hkey, Attempt.ok_bind, Json.getD_obj, Attempt.ok_bind, hstatus, Json.field_obj hstarted,
      Attempt.ok_bind, hstart, Attempt.ok_bind, Json.getD_obj, Attempt.ok_bind, hartifacts, Option.getD_some,
      Json.elements_arr, Attempt.ok_bind, Json.getD_obj, Attempt.ok_bind, herror, h.error_getD, Json.getD_obj,
      Attempt.ok_bind, hexit, h.exitStatus_getD, h.sortKeys_artifacts, Option.getD_some, hk, ht]
    rfl
  rw [hfs]
  unfold ofJson
  rw [Json.getD_obj, Attempt.ok_bind, hended]
  cases hend : r.endedAt with
  | none => exact (hrest none).trans (by rw [← hend])
  | some e =>
    have he := h.endedAt e hend
    have htime : (timeOf (.str e.text)).map some = .ok (some e) := congrArg (Except.map some) he
    rw [Option.map_some, Option.getD_some, if_pos (by simpa [Json.truthy] using he.text_ne_empty), htime]
    exact (hrest (some e)).trans (by rw [← hend])

/-- An error that says nothing is not read back. -/
theorem error_of_ofJson_toJson {r' : Record} (h : ofJson r.toJson.sortKeys = .ok r') :
    r'.error = (if r.error.truthy then some r.error.sortKeys else none).getD .null := by
  obtain ⟨fs, hfs, -, -, -, -, -, herror, -⟩ := find?_toJson r
  rw [hfs, ofJson, Attempt.bind_eq_ok] at h
  obtain ⟨ended, -, h⟩ := h
  -- Whether there is an end or not, the rest is read alike.
  split at h
  all_goals
    simp only [Attempt.bind_eq_ok] at h
    obtain ⟨_, -, _, -, _, -, _, -, _, -, _, -, _, -, error, hread, _, -, hr⟩ := h
    cases hr
    rw [Json.getD_obj, herror] at hread
    exact (Except.ok.inj hread).symm

/-! ## The records of builds -/

theorem plain_start (key : String) {now : Instant} (hnow : now.Readable) : (start key now).Plain where
  key := ⟨key, rfl⟩
  status := ⟨running, rfl⟩
  startedAt := hnow
  endedAt := nofun
  artifacts := ⟨[], rfl, List.nodup_nil⟩
  error := .inl rfl
  exitStatus := rfl

theorem Plain.finish (h : r.Plain) {now : Instant} (hnow : now.Readable) (status : String) {exitStatus error : Json}
    (hexit : exitStatus.sortKeys = exitStatus) (herror : error = .null ∨ ∃ t, t ≠ "" ∧ error = .str t) :
    (r.finish now (.str status) exitStatus error).Plain where
  key := h.key
  status := ⟨status, rfl⟩
  startedAt := h.startedAt
  endedAt t ht := by
    cases ht
    exact hnow
  artifacts := h.artifacts
  error := herror
  exitStatus := hexit

/-- An artifact that is listed already is not listed again. -/
theorem Plain.artifacts_add (h : r.Plain) (n : String) :
    (r.addArtifact n).artifacts = if .str n ∈ r.artifacts then r.artifacts else r.artifacts ++ [.str n] := by
  obtain ⟨ns, hns, -⟩ := h.artifacts
  unfold Record.addArtifact
  rw [hns]
  by_cases hn : n ∈ ns
  · rw [if_pos (Json.listed_texts.2 hn), if_pos (Json.mem_map_str.2 hn), hns]
  · rw [if_neg (mt Json.listed_texts.1 hn), if_neg (mt Json.mem_map_str.1 hn)]

theorem addArtifact_prefix (r : Record) (n : String) : r.artifacts <+: (r.addArtifact n).artifacts := by
  unfold addArtifact
  split
  · exact List.prefix_rfl
  · exact List.prefix_append _ _

theorem Plain.addArtifact (h : r.Plain) (n : String) : (r.addArtifact n).Plain := by
  by_cases hlisted : Json.listed r.artifacts (.str n) = true
  · rwa [Record.addArtifact, if_pos hlisted]
  · obtain ⟨ns, hns, hnodup⟩ := h.artifacts
    have hn : n ∉ ns := fun hmem => hlisted (hns ▸ Json.listed_texts.2 hmem)
    rw [Record.addArtifact, if_neg hlisted]
    refine ⟨h.key, h.status, h.startedAt, h.endedAt, ⟨ns ++ [n], ?_, ?_⟩, h.error, h.exitStatus⟩
    · rw [hns, List.map_append, List.map_singleton]
    · exact List.nodup_append.2 ⟨hnodup, by simp, fun m hm k hk => by
        rintro rfl
        exact hn (List.mem_singleton.1 hk ▸ hm)⟩

end Record

end FlowPlan

import FlowPlan.Build.Compile
import FlowPlan.Proofs.Pipeline

/-!
# The generators on disk

A generator leaves its fragment under a name of its own, which is neither that of the plan nor that of
another generator. Fragments are read back with their keys in order.

## Main definitions

* `Fanout.IsFragmentName` — the artifact of a generator.
* `Fanout.Fragment` — a generator has left its fragment.

## Main statements

* `Fanout.isArtifactName_artifact` — the names of fragments.
* `Fanout.holds_of_edits` — the plan stays as it is.
* `Builder.fragments_run` — what is read back.
-/

namespace FlowPlan.Fanout

open FlowPlan.Action Site Session Workspace Pipeline

/-- The artifact holds a fragment. -/
def IsFragmentName (n : String) : Prop := "code-".toList <+: n.toList

instance (n : String) : Decidable (IsFragmentName n) := inferInstanceAs (Decidable (_ <+: _))

/-- What a generator reports, and the fragment that it has left. -/
structure Fragment (w : Workspace) (A : Address) (plan : Json) (d : Disk) (g : Generator) (r : Generated) :
    Prop where
  generator : r.generator = g.name
  artifact : r.artifact = g.artifact
  file : ∃ f fs, g.generate plan = .ok (.obj (f :: fs)) ∧
    d.find? (A ++ [w.key] ++ [g.artifact]) = some (.file (.json (Json.obj (f :: fs)).sortKeys))

variable {w : Workspace} {A : Address} {σ σ' : Site} {plan : Json} {g : Generator}

/-- A name that can be part of the name of a file makes an artifact. -/
theorem isArtifactName_artifact (hplain : PlainName g.name) (hnul : Path.NulFree g.name) :
    IsArtifactName g.artifact ∧ IsFragmentName g.artifact :=
  ⟨isArtifactName_named g.artifact_named (by decide) (by decide) hplain hnul, g.artifact_named.starts⟩

/-- Fragments leave the plan as it is. -/
theorem holds_of_edits (h : Holds w A σ.disk plan) (hedits : Edits w A IsFragmentName σ σ') :
    Holds w A σ'.disk plan := by
  refine h.of_edits hedits fun n hn => ⟨fun hstep => ?_, ?_⟩
  · obtain ⟨cs, hcs⟩ := hn
    obtain ⟨cs', hcs'⟩ := hstep
    rw [← hcs] at hcs'
    simp at hcs'
  · rintro rfl
    exact absurd hn (by decide)

end FlowPlan.Fanout

namespace FlowPlan.Builder

open FlowPlan.Action Site Session Workspace Fanout

variable {w : Workspace} {A : Address} {σ : Site}

/-- The fragments are read back as they were written, and none of them is empty. -/
theorem fragments_run (h : Workable w A σ) (plan : Json) {rs : List Generated}
    (hrs : ∀ r ∈ rs, ∃ g, IsArtifactName g.artifact ∧ Fragment w A plan σ.disk g r) :
    ∃ fields : Fields, (fragments w rs).run σ = (.ok (.obj fields), σ) ∧
      ∀ e ∈ fields, ∃ f fs, e.2 = .obj (f :: fs) := by
  obtain ⟨read, hread⟩ : ∃ read : Generated → Session (String × Json), read = fun r => do
      return (r.generator, ← w.readArtifact r.artifact) := ⟨_, rfl⟩
  have hall : ∃ fields : Fields, (rs.mapM read).run σ = (.ok fields, σ) ∧
      ∀ e ∈ fields, ∃ f fs, e.2 = .obj (f :: fs) := by
    induction rs with
    | nil => exact ⟨[], by rw [List.mapM_nil]; rfl, by simp⟩
    | cons r rs ih =>
      obtain ⟨g, hname, hfragment⟩ := hrs r List.mem_cons_self
      obtain ⟨f, fs, -, hfile⟩ := hfragment.file
      obtain ⟨fields, hrun, hfull⟩ := ih fun r' hr' => hrs r' (List.mem_cons_of_mem r hr')
      have hstep : (read r).run σ = (.ok (r.generator, (Json.obj (f :: fs)).sortKeys), σ) := by
        rw [hread]
        dsimp only
        rw [hfragment.artifact]
        exact run_read_ok (f := (·.readJson (w.artifactPath g.artifact))) (h.readJson hname hfile) _
      refine ⟨(r.generator, (Json.obj (f :: fs)).sortKeys) :: fields, ?_, List.forall_mem_cons.2 ⟨?_, hfull⟩⟩
      · rw [List.mapM_cons, run_bind_ok hstep, run_bind_ok hrun]
        rfl
      · exact Json.exists_sortKeys_cons f fs
  obtain ⟨fields, hrun, hfull⟩ := hall
  refine ⟨fields, ?_, hfull⟩
  unfold fragments
  rw [← hread, run_bind_ok hrun]
  rfl

end FlowPlan.Builder

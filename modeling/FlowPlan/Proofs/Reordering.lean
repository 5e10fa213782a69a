import FlowPlan.Proofs.Pipeline
import FlowPlan.Proofs.Plan.KeyOrder
import FlowPlan.Unit.Catalog

/-!
# The pipeline and the order of keys

A document whose keys have been reordered goes through the standard stages like the document that it
was, and what is compiled is the same up to the order of keys, unless two definitions share a name.

## Main statements

* `Pipeline.order_standard` — the standard stages stand in the order in which they run.
* `Document.compile_reordered` — what the stages make of the two documents.
* `Pipeline.run_reordered` — what two runs of the pipeline leave.
-/

namespace FlowPlan

open FlowPlan.Action Document Workspace

/-- A document is compiled like the one that it was before its keys were reordered. -/
theorem Document.compile_reordered {document document' : Fields} {v : Json}
    (hdistinct : (Json.obj document).Distinct)
    (hreordered : (Json.obj document).Reordered (.obj document'))
    (hcompile : compile (.obj document) = .ok v) :
    ∃ d d', v = .obj d ∧ compile (.obj document') = .ok (.obj d') ∧
      (collisionsOf d).map Json.sortKeys = (collisionsOf d').map Json.sortKeys ∧
      (collisionsOf d = none → (Json.obj d).Alike (.obj d') ∧ (Json.obj d).Distinct ∧
        check (.obj d) .qualified = .ok ()) := by
  have halike := hreordered.alike hdistinct
  have hdistinct' := hreordered.distinct hdistinct
  obtain ⟨d, d', es, es', fa, fa', rfl, hcompile', hmakes, hmakes', hcheck, hcheck', hrecorded,
    hcollisions⟩ := compile_alike halike hdistinct hdistinct' hcompile
  refine ⟨d, d', rfl, hcompile', hcollisions, fun hnone => ?_⟩
  rw [hnone] at hrecorded
  have hcollided := (foldlM_recorded_none.1 hrecorded).2
  have hnames := (collided_eq_nil (Json.distinct_obj.1 (once_entries hdistinct _ _)).1).1 hcollided
  rw [collided_alike halike] at hcollided
  have hnames' := (collided_eq_nil (Json.distinct_obj.1 (once_entries hdistinct' _ _)).1).1 hcollided
  refine ⟨makes_alike halike hdistinct hdistinct' hmakes hmakes' hcheck hcheck' hcollisions hnames hnames'
    (hmakes.changes.once (once_of_distinct hdistinct)) (hmakes'.changes.once (once_of_distinct hdistinct')),
    distinct_of_makes hmakes hcheck hdistinct (hrecorded.trans (congrArg _ hnone.symm)), hcheck⟩

namespace Pipeline

/-- The standard stages stand in the order in which they run. -/
theorem order_standard : order (Stage.standard.map (·.1)) = .ok (Stage.standard.map (·.1)) := by
  have hsorted : Text.sortOn Stage.name (Stage.standard.map (·.1)) = Stage.standard.map (·.1) :=
    Text.sortOn_of_pairwise (by decide +kernel)
  unfold order
  rw [hsorted]
  rfl

theorem plain_standard : ∀ s ∈ Stage.standard.map (·.1), PlainName s.name ∧ Path.NulFree s.name := by
  decide

variable {w w' : Workspace} {A A' : Address} {s s' t : Site} {document document' : Json}
  {finished : List Finished}

/-- The standard stages, run on disk, end as they do on the document alone. -/
theorem run_standard (h : Workable w A s) (document : Json) :
    Session.Mirrors (fun _ v s' => Edits w A (fun _ => True) s s' ∧ Holds w A s'.disk v.sortKeys)
      (run w (Stage.standard.map (·.1)) document) (compile document) s :=
  run_mirrors h (by simp [Stage.standard]) plain_standard document

/-- If the standard stages succeed on a document they succeed on every one with its keys in another order,
and both record the same collisions. If there are none, what is compiled is the same up to the order of
keys; and whatever that order, the checks of the plan and the generators come to the same result. -/
theorem run_reordered (hw : Workable w A s) (hw' : Workable w' A' s') (hdistinct : document.Distinct)
    (hreordered : document.Reordered document')
    (hrun : (run w (Stage.standard.map (·.1)) document).run s = (.ok finished, t)) :
    ∃ finished' t' c c', (run w' (Stage.standard.map (·.1)) document').run s' = (.ok finished', t') ∧
      t.disk.readJson (compiledPath w) = .ok (.obj c) ∧
      t'.disk.readJson (compiledPath w') = .ok (.obj c') ∧
      (collisionsOf c).map Json.sortKeys = (collisionsOf c').map Json.sortKeys ∧
      (collisionsOf c = none → (Json.obj c).Alike (.obj c') ∧
        ∀ x x', (Json.obj c).Reordered x → (Json.obj c').Reordered x' →
          (∀ check ∈ Check.standard, check.1.phase = .str planPhase →
            ∀ examine, check.1.judge = .function examine → (examine x).1 = (examine x').1) ∧
          ∀ g ∈ Generator.standard, g.1.generate x = g.1.generate x') := by
  obtain ⟨v, hcompile, hedits, hholds⟩ := (run_standard hw document).left hrun
  obtain ⟨D, rfl⟩ := obj_of_check (Attempt.check_bind_eq_ok.1 hcompile).1
  obtain ⟨D', rfl⟩ : ∃ D', document' = .obj D' := by
    cases hreordered with
    | refl => exact ⟨D, rfl⟩
    | obj parts order => exact ⟨_, rfl⟩
  obtain ⟨d, d', rfl, hcompile', hcollisions, hnone⟩ := compile_reordered hdistinct hreordered hcompile
  obtain ⟨finished', t', hrun', hedits', hholds'⟩ := (run_standard hw' _).right hcompile'
  have hread := hholds.readJson (hedits.workable hw)
  have hread' := hholds'.readJson (hedits'.workable hw')
  rw [sortKeys_obj] at hread hread'
  refine ⟨finished', t', sorted d, sorted d', hrun', hread, hread', ?_, fun habsent => ?_⟩
  · rw [collisionsOf_sorted, collisionsOf_sorted, hcollisions]
  · rw [collisionsOf_sorted, Option.map_eq_none_iff] at habsent
    obtain ⟨halike, hdistinct', hcheck⟩ := hnone habsent
    have hsorted : (Json.obj (sorted d)).Alike (.obj d) := sortKeys_obj d ▸ Json.alike_sortKeys (.obj d)
    have hsame : sorted d = sorted d' := alike_iff.1 halike
    have hdistinct₁ : (Json.obj (sorted d)).Distinct :=
      sortKeys_obj d ▸ (Json.reordered_sortKeys (.obj d)).distinct hdistinct'
    rw [← hsame]
    -- Both are alike to the compiled document, so neither differs from it for a check or a generator.
    have hjudged : ∀ x, (Json.obj (sorted d)).Reordered x →
        (∀ c ∈ Check.standard, c.1.phase = .str planPhase → ∀ examine, c.1.judge = .function examine →
          (examine (.obj d)).1 = (examine x).1) ∧
        ∀ g ∈ Generator.standard, g.1.generate (.obj d) = g.1.generate x := by
      intro x hx
      obtain ⟨X, rfl⟩ : ∃ X, x = .obj X := by
        cases hx with
        | refl => exact ⟨_, rfl⟩
        | obj parts order => exact ⟨_, rfl⟩
      exact judged_alike (hsorted.symm.trans (hx.alike hdistinct₁)) hcheck
        (Json.distinct_obj.1 (once_entries hdistinct' _ _)).1 habsent
    refine ⟨rfl, fun x x' hx hx' => ⟨fun c hc hphase examine hjudge => ?_, fun g hg => ?_⟩⟩
    · rw [← (hjudged x hx).1 c hc hphase examine hjudge, (hjudged x' hx').1 c hc hphase examine hjudge]
    · rw [← (hjudged x hx).2 g hg, (hjudged x' hx').2 g hg]

theorem run_reordered_pair :
    let w : Workspace := ⟨⟨"/", ["r"]⟩, "k"⟩
    let s : Site := .ofDisk ⟨[(["/"], .dir), (["/", "r"], .dir), (["/", "r", "k"], .dir)], []⟩
      ⟨2024, 3, 1, 10, 0, 0, 0, none⟩
    let document (extractors : Fields) : Fields := [("extraction", .obj [("extractors", .obj extractors)])]
    ∃ finished t finished' t' c c',
      (run w (Stage.standard.map (·.1)) (.obj (document
        [("b", .obj []), ("a", .obj [("dependencies", .arr [.str "b"])])]))).run s = (.ok finished, t) ∧
      (run w (Stage.standard.map (·.1)) (.obj (document
        [("a", .obj [("dependencies", .arr [.str "b"])]), ("b", .obj [])]))).run s = (.ok finished', t') ∧
      t.disk.readJson (compiledPath w) = .ok (.obj c) ∧
      t'.disk.readJson (compiledPath w) = .ok (.obj c') ∧ (Json.obj c).Alike (.obj c') := by
  intro w s document
  have hrooted : Disk.Rooted (Disk.maxLinks - 1) s.disk ⟨"/", ["r"]⟩ ["/", "r"] :=
    .of_dirs _ (by unfold Path.Clean; decide +kernel) rfl (by decide +kernel) (by decide +kernel)
  have hnone : ∀ k n, s.disk.find? (["/", "r"] ++ [k] ++ [n]) = none := by
    intro k n
    simp [s, Site.ofDisk, Disk.find?, Assoc.find?_cons]
  have hw : Workable w ["/", "r"] s := by
    refine ⟨⟨⟨hrooted.add 1, ?_⟩, by decide, by decide +kernel, by rw [hnone]; simp⟩, fun k n _ => hnone k n,
      hrooted, fun n => by rw [hnone]; simp⟩
    rintro a ⟨style, hfile⟩
    cases hfile
  -- The document is compiled without a collision.
  obtain ⟨D, hD⟩ : ∃ D, D = document [("b", .obj []), ("a", .obj [("dependencies", .arr [.str "b"])])] :=
    ⟨_, rfl⟩
  have hcompilable : Compilable D := by
    subst hD
    refine ⟨by simp [document, IsSection, Document.IsOpen, Assoc.find?_cons], rfl, ?_⟩
    simp [document, entriesIn, part?, Assoc.find?_cons, fieldsOf]
  have honce : (Assoc.keys (entriesIn D "execution" "processes")).Nodup := by
    subst hD
    decide
  have hcollided : (collided D).foldlM recorded (collisionsOf D) = .ok none :=
    foldlM_recorded_none.2 ⟨by subst hD; rfl, (collided_eq_nil honce).2 (by subst hD; decide)⟩
  obtain ⟨-, hcompile, d, -, -, rfl, hnone, -⟩ := (compile_both hcompilable honce).right hcollided
  obtain ⟨finished, t, hrun, hedits, hholds⟩ := (run_standard hw _).right hcompile
  have hread := hholds.readJson (hedits.workable hw)
  rw [hD] at hrun
  obtain ⟨finished', t', c, c', hrun', hread', hread'', -, hnone'⟩ :=
    run_reordered hw hw (by simp [Json.Distinct, Json.DistinctFields, Json.DistinctList, Assoc.keys])
      (.obj (.cons (.obj (.cons (.obj (.cons (.refl _) (.cons (.refl _) .nil)) (.swap _ _ _)) .nil) (.refl _))
        .nil) (.refl _)) hrun
  rw [hread, sortKeys_obj] at hread'
  obtain rfl : sorted d = c := Json.obj.inj (Except.ok.inj hread')
  refine ⟨finished, t, finished', t', sorted d, c', hrun, hrun', sortKeys_obj d ▸ hread, hread'', ?_⟩
  exact (hnone' (by rw [collisionsOf_sorted, hnone, Option.map_none])).1

end Pipeline

end FlowPlan

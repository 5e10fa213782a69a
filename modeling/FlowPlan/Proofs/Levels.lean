import FlowPlan.Proofs.Json.Reordering
import FlowPlan.Proofs.StageFailure

/-!
# The levels of stages

Before any stage runs it is decided by their names and levels alone whether names are qualified before they
are needed. The decision does not depend on the order in which the stages are given. Where stages that take
qualified names hand on qualified names, a pipeline whose stages were accepted never gives one a document that
is not qualified, whatever the stages do.

## Main definitions

* `Pipeline.Premature` — a stage needs qualified names before any stage has made them.
* `Pipeline.Lasting` — names that are qualified stay so.
* `Pipeline.Reached` — what a stage is given.

## Main statements

* `Pipeline.order_eq_ok_iff`, `Pipeline.order_eq_error_iff` — which stages are accepted, and which one is
  blamed.
* `Pipeline.run_halts` — how a pipeline fails.
* `Pipeline.order_sound` — accepted stages find qualified names where they need them.
-/

namespace FlowPlan.Pipeline

open FlowPlan.Action Site Workspace

/-! ## Which stages are accepted -/

/-- The stage needs qualified names, and no stage whose name comes before its own makes them. -/
def Premature (stages : List Stage) (s : Stage) : Prop :=
  s ∈ stages ∧ s.requires = .qualified ∧
    ∀ t ∈ stages, Text.lt t.name s.name = true → t.produces ≠ .qualified

/-- The fault of stages of which this one is premature. -/
def tooEarly (s : Stage) : Fault :=
  .structural s!"Stage {s.name} requires qualified names but no earlier stage produces them" none

variable {stages ordered ys done rest : List Stage} {s t : Stage}

/-- The stage that is found is the first that needs what no earlier stage makes. -/
theorem early?_eq_some : early? stages = some s ↔ ∃ done rest, stages = done ++ s :: rest ∧
    s.requires = .qualified ∧ ∀ t ∈ done, t.requires ≠ .qualified ∧ t.produces ≠ .qualified := by
  fun_induction early? stages with
  | case1 => simp
  | case2 u rest hrequires =>
    constructor
    · rintro ⟨⟩
      exact ⟨[], rest, rfl, hrequires, by simp⟩
    · rintro ⟨done, rest', hsplit, -, hdone⟩
      cases done with
      | nil =>
        cases hsplit
        rfl
      | cons v done =>
        cases hsplit
        exact absurd hrequires (hdone u List.mem_cons_self).1
  | case3 u rest hrequires hproduces =>
    simp only [reduceCtorEq, false_iff]
    rintro ⟨done, rest', hsplit, hs, hdone⟩
    cases done with
    | nil =>
      cases hsplit
      exact hrequires hs
    | cons v done =>
      cases hsplit
      exact (hdone u List.mem_cons_self).2 hproduces
  | case4 u rest hrequires hproduces ih =>
    rw [ih]
    constructor
    · rintro ⟨done, rest', rfl, hs, hdone⟩
      exact ⟨u :: done, rest', rfl, hs, List.forall_mem_cons.2 ⟨⟨hrequires, hproduces⟩, hdone⟩⟩
    · rintro ⟨done, rest', hsplit, hs, hdone⟩
      cases done with
      | nil =>
        cases hsplit
        exact absurd hs hrequires
      | cons v done =>
        cases hsplit
        exact ⟨done, rest', rfl, hs, (List.forall_mem_cons.1 hdone).2⟩

/-- Among stages in order those before a stage are those with lesser names. -/
theorem mem_done_iff (hincreasing : ((done ++ s :: rest).map (·.name)).Pairwise (Text.lt · · = true)) :
    t ∈ done ↔ t ∈ done ++ s :: rest ∧ Text.lt t.name s.name = true := by
  rw [List.map_append, List.map_cons, List.pairwise_append, List.pairwise_cons] at hincreasing
  obtain ⟨-, ⟨hrest, -⟩, hdone⟩ := hincreasing
  constructor
  · intro ht
    exact ⟨List.mem_append_left _ ht, hdone _ (List.mem_map_of_mem ht) _ List.mem_cons_self⟩
  · rintro ⟨ht, hlt⟩
    rcases List.mem_append.1 ht with ht | ht
    · exact ht
    · rcases List.mem_cons.1 ht with rfl | ht
      · rw [Text.lt_irrefl] at hlt
        cases hlt
      · have hback := Text.lt_trans hlt (hrest _ (List.mem_map_of_mem ht))
        rw [Text.lt_irrefl] at hback
        cases hback

theorem premature_perm (hperm : ys.Perm stages) : Premature ys s ↔ Premature stages s := by
  simp only [Premature, hperm.mem_iff]

/-- What is found among stages in order is the premature stage whose name comes first. -/
theorem early?_eq_some_iff (hincreasing : (ordered.map (·.name)).Pairwise (Text.lt · · = true)) :
    early? ordered = some s ↔
      Premature ordered s ∧ ∀ t, Premature ordered t → Text.le s.name t.name = true := by
  rw [early?_eq_some]
  constructor
  · rintro ⟨done, rest, rfl, hs, hdone⟩
    refine ⟨⟨by simp, hs, fun t ht hlt => (hdone t ((mem_done_iff hincreasing).2 ⟨ht, hlt⟩)).2⟩, ?_⟩
    rintro t ⟨ht, hrequires, -⟩
    by_contra hle
    exact (hdone t ((mem_done_iff hincreasing).2 ⟨ht, by simpa [Text.lt] using hle⟩)).1 hrequires
  · rintro ⟨⟨hmem, hs, hearlier⟩, hleast⟩
    obtain ⟨done, rest, rfl⟩ := List.append_of_mem hmem
    refine ⟨done, rest, rfl, hs, fun t ht => ?_⟩
    obtain ⟨htmem, hlt⟩ := (mem_done_iff hincreasing).1 ht
    refine ⟨fun hrequires => ?_, hearlier t htmem hlt⟩
    -- A stage before it that needs qualified names would be premature as well.
    have hle := hleast t ⟨htmem, hrequires, fun u hu hut => hearlier u hu (Text.lt_trans hut hlt)⟩
    simp [Text.lt, hle] at hlt

/-- Where no stage is found, each that needs qualified names has one before it that makes them. -/
theorem exists_of_early?_eq_none (h : early? (done ++ s :: rest) = none) (hs : s.requires = .qualified) :
    ∃ t ∈ done, t.produces = .qualified := by
  induction done with
  | nil => simp [early?, hs] at h
  | cons u done ih =>
    rw [List.cons_append, early?] at h
    split_ifs at h with hrequires hproduces
    · exact ⟨u, List.mem_cons_self, hproduces⟩
    · obtain ⟨t, ht, hproduces⟩ := ih h
      exact ⟨t, List.mem_cons_of_mem u ht, hproduces⟩

theorem early?_eq_none_iff (hincreasing : (ordered.map (·.name)).Pairwise (Text.lt · · = true)) :
    early? ordered = none ↔ ∀ s, ¬ Premature ordered s := by
  constructor
  · rintro hnone s ⟨hmem, hs, hearlier⟩
    obtain ⟨done, rest, rfl⟩ := List.append_of_mem hmem
    obtain ⟨t, ht, hproduces⟩ := exists_of_early?_eq_none hnone hs
    obtain ⟨htmem, hlt⟩ := (mem_done_iff hincreasing).1 ht
    exact hearlier t htmem hlt hproduces
  · intro hnone
    refine Option.eq_none_iff_forall_ne_some.2 fun s hs => ?_
    exact hnone s ((early?_eq_some_iff hincreasing).1 hs).1

section Distinct

variable (hnodup : (stages.map (·.name)).Nodup)
include hnodup

/-- Stages are accepted if none is premature, and then they are put in the order of their names. -/
theorem order_eq_ok_iff : order stages = .ok ordered ↔ (∀ s, ¬ Premature stages s) ∧
    ordered.Perm stages ∧ (ordered.map (·.name)).Pairwise (Text.lt · · = true) := by
  have hsorted := Text.increasing_sortOn hnodup
  have hperm := Text.sortOn_perm Stage.name stages
  have hnone := early?_eq_none_iff hsorted
  simp only [premature_perm hperm] at hnone
  unfold order
  dsimp only
  rw [← hnone]
  cases hearly : early? (Text.sortOn Stage.name stages) with
  | some s => simp
  | none =>
    simp only [Except.ok.injEq, true_and]
    constructor
    · rintro rfl
      exact ⟨hperm, hsorted⟩
    · rintro ⟨hperm', hincreasing⟩
      rw [Text.sortOn_eq_of_perm hperm'.symm hnodup]
      exact Text.sortOn_of_pairwise (List.pairwise_map.1 (hincreasing.imp Text.le_of_lt))

/-- Of several premature stages the one whose name comes first is blamed. -/
theorem order_eq_error_iff {f : Fault} : order stages = .error f ↔ ∃ s, Premature stages s ∧
    (∀ t, Premature stages t → Text.le s.name t.name = true) ∧ f = tooEarly s := by
  have hsome := fun s => early?_eq_some_iff (s := s) (Text.increasing_sortOn hnodup)
  simp only [premature_perm (Text.sortOn_perm Stage.name stages)] at hsome
  unfold order
  dsimp only
  simp only [← and_assoc, ← hsome]
  cases early? (Text.sortOn Stage.name stages) with
  | none => simp
  | some s => simp [tooEarly, eq_comm]

/-- The order in which stages are given does not matter. -/
theorem order_perm (hperm : ys.Perm stages) : order ys = order stages := by
  unfold order
  rw [Text.sortOn_eq_of_perm hperm.symm hnodup]

end Distinct

/-! ## What stages are given -/

/-- Behind a stage that makes qualified names each stage makes qualified names. -/
def Lasting (ordered : List Stage) : Prop :=
  ordered.Pairwise fun s t => s.produces = .qualified → t.produces = .qualified

instance (ordered : List Stage) : Decidable (Lasting ordered) := inferInstanceAs (Decidable (List.Pairwise _ _))

/-- The stage is given this document if the stages before it do not fail. -/
def Reached (ordered : List Stage) (document : Json) (s : Stage) (given : Json) : Prop :=
  ∃ done rest, ordered = done ++ s :: rest ∧ Stage.applyAll done document = .ok given

variable {document given : Json} {w : Workspace} {σ σ' : Site} {f : Fault}

theorem Reached.cons {u : Stage} {output : Json} (hu : u.apply document = .ok output)
    (h : Reached ordered output s given) : Reached (u :: ordered) document s given := by
  obtain ⟨done, rest, rfl, happly⟩ := h
  refine ⟨u :: done, rest, rfl, ?_⟩
  rw [Stage.applyAll, List.foldlM_cons, hu]
  exact happly

/-- What stages make together is of the level that the last one promises. -/
theorem check_applyAll (h : Stage.applyAll (done ++ [s]) document = .ok given) :
    Document.check given s.produces = .ok () := by
  rw [Stage.applyAll, List.foldlM_append, Attempt.bind_eq_ok] at h
  obtain ⟨input, -, hlast⟩ := h
  rw [List.foldlM_cons, Attempt.bind_eq_ok] at hlast
  obtain ⟨output, hlast, hnil⟩ := hlast
  cases hnil
  exact (Stage.apply_eq_ok.1 hlast).2.2

/-- A stage that needs qualified names is given them. -/
theorem Reached.qualified (h : Reached ordered document s given) (hnone : early? ordered = none)
    (hlasting : Lasting ordered) (hs : s.requires = .qualified) : Document.check given .qualified = .ok () := by
  obtain ⟨done, rest, rfl, happly⟩ := h
  obtain ⟨t, ht, hproduces⟩ := exists_of_early?_eq_none hnone hs
  obtain rfl | ⟨init, last, rfl⟩ := List.eq_nil_or_concat done
  · cases ht
  rw [List.concat_eq_append] at happly hlasting ht
  suffices hlast : last.produces = .qualified from hlast ▸ check_applyAll happly
  -- The stage just before it makes qualified names, or comes behind one that does.
  rcases List.mem_append.1 ht with hinit | hlast
  · rw [Lasting, List.append_assoc, List.pairwise_append] at hlasting
    exact hlasting.2.2 t hinit last (by simp) hproduces
  · rwa [← List.mem_singleton.1 hlast]

/-! ## How a pipeline fails -/

/-- Stages in a row fail in one of them, or because something cannot be kept. -/
theorem runStages_halts (hrun : (runStages w document stages).run σ = (.error f, σ')) :
    Refused w f ∨ ∃ s given, Reached stages document s given ∧ s.attempt given = .error f := by
  induction stages generalizing document σ with
  | nil => cases hrun
  | cons u stages ih =>
    unfold runStages at hrun
    rcases of_run_bind_error hrun with hstage | ⟨⟨output, finished⟩, σ₁, hstage, hrest⟩
    · obtain ⟨g, ⟨⟩, hattempt⟩ | ⟨output, -, ⟨_, ⟨⟩⟩ | ⟨g, ⟨⟩, hrefused⟩⟩ := of_runStage hstage
      · exact .inr ⟨u, document, ⟨[], stages, rfl, rfl⟩, hattempt⟩
      · exact .inl hrefused
    · obtain ⟨g, ⟨⟩, -⟩ | ⟨output, happly, ⟨finished, ⟨⟩⟩ | ⟨g, ⟨⟩, -⟩⟩ := of_runStage hstage
      rcases of_run_bind_error hrest with hrest | ⟨_, _, -, hdone⟩
      · rcases ih hrest with hrefused | ⟨s, given, hreached, hattempt⟩
        · exact .inl hrefused
        · exact .inr ⟨s, given, hreached.cons happly, hattempt⟩
      · cases hdone

/-- A pipeline fails because there are no stages, the document is not of the raw level, something cannot be
kept, or one of the stages fails on what it is given. -/
theorem run_halts (hrun : (run w ordered document).run σ = (.error f, σ')) :
    (ordered = [] ∨ Document.check document .raw = .error f ∨ Refused w f) ∨
      ∃ s given, Reached ordered document s given ∧ s.attempt given = .error f := by
  by_cases hnil : ordered = []
  · exact .inl (.inl hnil)
  unfold run at hrun
  rw [if_neg (by simpa using hnil)] at hrun
  cases hraw : Document.check document .raw with
  | error g =>
    rw [hraw] at hrun
    cases hrun
    exact .inl (.inr (.inl rfl))
  | ok _ =>
    rw [hraw, Action.lift_ok_bind] at hrun
    rcases of_run_bind_error hrun with hinput | ⟨_, σ₁, -, hrest⟩
    · exact .inl (.inr (.inr ⟨σ, inputArtifact, .inl ⟨document, by rw [of_run_discard_error hinput]⟩⟩))
    rcases of_run_bind_error hrest with hstages | ⟨finished, σ₂, -, hrest⟩
    · exact (runStages_halts hstages).imp_left fun hrefused => .inr (.inr hrefused)
    rcases of_run_bind_error hrest with hlink | ⟨_, _, -, hrest⟩
    · exact .inl (.inr (.inr ⟨σ₂, _, .inr (by rw [of_run_discard_error hlink])⟩))
    · cases hrest

/-! ## Both together -/

theorem expect_of_check {role : String} {level : Level} (h : Document.check given level = .ok ()) :
    expect s role level given = .ok () := by
  rw [expect, h]

/-- Stages with different names are accepted or refused whatever order they are given in: they are put in the
order of their names if none is premature, and else the premature one whose name comes first is blamed. Where
qualified names last, a pipeline of stages that were accepted gives each stage that needs qualified names a
document with qualified names, so that no run fails for the lack of them. -/
theorem order_sound (stages : List Stage) :
    ((stages.map (·.name)).Nodup → ∀ ys : List Stage, ys.Perm stages → order ys = order stages ∧
      (∀ ordered, order ys = .ok ordered ↔ (∀ s, ¬ Premature stages s) ∧
        ordered.Perm stages ∧ (ordered.map (·.name)).Pairwise (Text.lt · · = true)) ∧
      ∀ f, order ys = .error f ↔ ∃ s, Premature stages s ∧
        (∀ t, Premature stages t → Text.le s.name t.name = true) ∧ f = tooEarly s) ∧
    ∀ ordered, order stages = .ok ordered → Lasting ordered → ∀ document,
      (∀ s given, Reached ordered document s given → s.requires = .qualified →
        Document.check given .qualified = .ok ()) ∧
      ∀ (w : Workspace) (σ σ' : Site) (f : Fault), (run w ordered document).run σ = (.error f, σ') →
        (ordered = [] ∨ Document.check document .raw = .error f ∨ Refused w f) ∨
          ∃ s given, Reached ordered document s given ∧ s.attempt given = .error f ∧
            (s.requires = .qualified → expect s "input" s.requires given = .ok ()) := by
  refine ⟨fun hnodup ys hperm => ?_, fun ordered horder hlasting document => ?_⟩
  · rw [order_perm hnodup hperm]
    exact ⟨rfl, fun _ => order_eq_ok_iff hnodup, fun _ => order_eq_error_iff hnodup⟩
  · have hnone : early? ordered = none := by
      have hsorted := order_eq_ok horder
      unfold order at horder
      dsimp only at horder
      split at horder
      · cases horder
      · rwa [hsorted]
    have hqualified : ∀ s given, Reached ordered document s given → s.requires = .qualified →
        Document.check given .qualified = .ok () := fun s given hreached hs =>
      hreached.qualified hnone hlasting hs
    refine ⟨hqualified, fun w σ σ' f hrun => (run_halts hrun).imp_right ?_⟩
    rintro ⟨s, given, hreached, hattempt⟩
    exact ⟨s, given, hreached, hattempt, fun hs => expect_of_check (hs ▸ hqualified s given hreached hs)⟩

/-- A stage that makes a plan of no processes whatever it is given. -/
def clearing : Stage where
  name := "a"
  form := "FunctionStage"
  requires := .raw
  produces := .qualified
  description := ""
  transform _ := .ok (.obj [("extraction", .obj [("extractors", .obj [])]),
    ("inference", .obj [("factors", .obj [])]), ("execution", .obj [("processes", .obj [])])])

/-- A stage that needs qualified names and refuses every plan. -/
def refusing : Stage where
  name := "b"
  form := "FunctionStage"
  requires := .qualified
  produces := .qualified
  description := ""
  transform _ := .error (.raised "ValueError" [.str "no"])

theorem order_sound_refusing : ∃ w σ σ', ([refusing, clearing].map (·.name)).Nodup ∧
    order [clearing, refusing] = order [refusing, clearing] ∧
    order [refusing, clearing] = .ok [clearing, refusing] ∧ Lasting [clearing, refusing] ∧
    (run w [clearing, refusing] (.obj [])).run σ = (.error (.stageFailed "b" "no"), σ') ∧
    ([clearing, refusing] = [] ∨ Document.check (.obj []) .raw = .error (.stageFailed "b" "no") ∨
        Refused w (.stageFailed "b" "no") ∨
      ∃ s given, Reached [clearing, refusing] (.obj []) s given ∧
        s.attempt given = .error (.stageFailed "b" "no") ∧
        (s.requires = .qualified → expect s "input" s.requires given = .ok ())) := by
  obtain ⟨σ, hσ⟩ : ∃ σ : Site, σ = .ofDisk ⟨[(["/"], .dir)], []⟩ ⟨2024, 3, 1, 10, 0, 0, 0, none⟩ := ⟨_, rfl⟩
  have hnodup : ([refusing, clearing].map (·.name)).Nodup := by decide
  have hperm : [clearing, refusing].Perm [refusing, clearing] := .swap ..
  have horder : order [refusing, clearing] = .ok [clearing, refusing] := by
    rw [← order_perm hnodup hperm, order, Text.sortOn_of_pairwise (by decide)]
    rfl
  have hrun : ((run ⟨⟨"/", []⟩, "k"⟩ [clearing, refusing] (.obj [])).run σ).1 =
      .error (.stageFailed "b" "no") := by
    rw [hσ]
    decide +kernel
  obtain ⟨hgiven, haccepted⟩ := order_sound [refusing, clearing]
  obtain ⟨-, hfails⟩ := haccepted _ horder (by decide) (.obj [])
  refine ⟨⟨⟨"/", []⟩, "k"⟩, σ, _, hnodup, (hgiven hnodup _ hperm).1, horder, by decide, Prod.ext hrun rfl, ?_⟩
  simpa only [or_assoc] using hfails _ _ _ _ (Prod.ext hrun rfl)

end FlowPlan.Pipeline

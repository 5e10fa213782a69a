import FlowPlan.Proofs.Worker
import Mathlib

/-!
# Generators at the same time

However the workers of the fan-out take turns, it ends in the same way: the fragments are those that the
generators make by themselves, they are listed in the order of the names, and the failures are those of the
generators that fail by themselves.

## Main definitions

* `Fanout.threads`, `Fanout.lineup` — the workers of a fan-out.
* `Fanout.Ends` — how the fan-out may end, with its workers taking turns in some way.
* `Fanout.Concluded` — the workspace and the result are what the generators come to by themselves.

## Main statements

* `Fanout.ends_run` — one generator after another is one way to take turns.
* `Fanout.concluded_of_ends` — all ways end alike.
* `Fanout.run_ok` — generators that make a mapping all succeed.
* `Fanout.run_scheduled` — all together.
-/

namespace FlowPlan

theorem Misuse.label_ne_empty (m : Misuse) : m.label ≠ "" := by
  cases m <;> simp [label]

theorem DiskCause.label_ne_empty (c : DiskCause) : c.label ≠ "" := by
  cases c <;> decide

theorem DiskCause.labelOf_ne_empty (number : Json) : labelOf number ≠ "" := by
  unfold labelOf
  split
  · exact label_ne_empty _
  · decide

/-- Only a failure whose class has no name goes without a description. -/
theorem Fault.describe_ne_empty {f : Fault} (h : ∀ arguments, f ≠ .raised "" arguments) :
    f.describe ≠ "" := by
  unfold describe
  split
  · cases f with
    | misuse m => exact m.label_ne_empty
    | disk cause path second => exact cause.label_ne_empty
    | raised category arguments =>
      unfold label
      split <;> simp_all [DiskCause.labelOf_ne_empty]
    | _ => simp [label]
  · rename_i hmessage
    simpa using hmessage

theorem Fault.describe_ne_empty_of_label {f : Fault} (h : f.label ≠ "") : f.describe ≠ "" :=
  f.describe_ne_empty fun arguments => by
    rintro rfl
    exact h (by simp [label])

namespace Fanout

open FlowPlan.Action Site Session Workspace Pipeline

/-! ## The fan-out in parts -/

/-- How many workers there are: one for each generator, unless fewer are allowed. -/
def threads (limit : Json) (n : Nat) : Nat :=
  match limit with
  | .int k => min k.toNat n
  | _ => n

/-- What comes before the generators. -/
def announce (gs : List Generator) (limit : Json) : Session Unit := do
  let ordered := Text.sortOn Generator.name gs
  Session.info logger s!"Starting {ordered.length} generators" "codegen_started" none
    (some (.obj [("generators", .arr (ordered.map fun g => .str g.name))]))
  Action.lift (checkLimit limit)

/-- What comes after the generators. -/
def conclude (w : Workspace) (outcomes : Assoc String (Attempt Generated)) : Session (List Generated) := do
  let outcomes := Text.sortOn (·.1) outcomes
  outcomes.forM fun e => settle w e.1 e.2
  let failures := failuresOf outcomes
  if failures.isEmpty then return generatedOf outcomes
  else Action.fail (.generatorsFailed failures)

/-- The workers of the generators, in the order of the names. -/
def jobs (compiled : Path) (w : Workspace) (leaves : Generator → Json → Json) (gs : List Generator) :
    List (String × Action Bench Fault Generated) :=
  gs.map fun g => (g.name, worker compiled w leaves g)

/-- The workers before the first of them has begun. -/
def lineup (compiled : Path) (w : Workspace) (leaves : Generator → Json → Json) (gs : List Generator)
    (σ : Site) : Pool String Bench Fault Generated :=
  .start ⟨σ, []⟩ (jobs compiled w leaves (Text.sortOn Generator.name gs))

/-- With its workers taking turns in some way, the fan-out ends so. -/
def Ends (w : Workspace) (gs : List Generator) (limit : Json) (compiled : Path)
    (leaves : Generator → Json → Json) (σ : Site) (r : Attempt (List Generated)) (σ' : Site) : Prop :=
  ∃ σ₁ p, (announce gs limit).run σ = (.ok (), σ₁) ∧
    Pool.Runs (threads limit gs.length) (lineup compiled w leaves gs σ₁) p ∧ p.Final ∧
    (conclude w p.ended).run p.state.site = (r, σ')

variable {w : Workspace} {A : Address} {σ σ' : Site} {plan limit : Json} {g : Generator}
  {gs : List Generator} {compiled : Path} {leaves : Generator → Json → Json} {b : Bench}

theorem run_eq (hne : gs ≠ []) : run w gs limit compiled = announce gs limit >>= fun _ =>
    launch compiled w [] (Text.sortOn Generator.name gs) >>= conclude w := by
  unfold run announce
  rw [if_neg (by simpa using hne)]
  dsimp only
  rw [bind_assoc]
  rfl

/-- Whatever is a limit lets one worker begin. -/
theorem threads_pos (hne : gs ≠ []) (hlimit : checkLimit limit = .ok ()) : 0 < threads limit gs.length := by
  have hlength := List.length_pos_iff.2 hne
  unfold threads
  split
  · rename_i k
    have hk : 0 < k := by
      by_contra hk
      have hle : Json.leNumber (.int k) (.int 0) = true := by
        simp [Json.leNumber, Json.fraction?]
        omega
      simp [checkLimit, Json.isNumber, hle, Json.misuse] at hlimit
    rw [lt_min_iff]
    omega
  · exact hlength

theorem announce_ok (hlimit : checkLimit limit = .ok ()) (gs : List Generator) (σ : Site) :
    ∃ σ₁, (announce gs limit).run σ = (.ok (), σ₁) := by
  obtain ⟨σ₁, hrun, -⟩ := info_run logger
    s!"Starting {(Text.sortOn Generator.name gs).length} generators" "codegen_started" none
    (some (.obj [("generators", .arr ((Text.sortOn Generator.name gs).map fun g => .str g.name))])) σ
  refine ⟨σ₁, (run_bind_ok hrun).trans ?_⟩
  rw [hlimit, run_lift]

/-! ## One generator after another -/

/-- The generators one after another do what their workers do one after another. -/
theorem launch_inTurn (compiled : Path) (w : Workspace) (leaves : Generator → Json → Json)
    (outcomes : Assoc String (Attempt Generated))
    (hnodup : (Assoc.keys outcomes ++ gs.map (·.name)).Nodup) (b : Bench) :
    (launch compiled w outcomes gs).run b.site =
      (.ok (outcomes ++ (Pool.inTurn (jobs compiled w leaves gs) b).1),
        (Pool.inTurn (jobs compiled w leaves gs) b).2.site) := by
  induction gs generalizing outcomes b with
  | nil => simp [launch, jobs, Pool.inTurn]
  | cons g gs ih =>
    obtain ⟨hresult, hsite⟩ := worker_run compiled w leaves g b
    have hset : Assoc.set outcomes g.name ((worker compiled w leaves g).run b).1 =
        outcomes ++ [(g.name, ((worker compiled w leaves g).run b).1)] :=
      Assoc.set_of_not_mem (fun hmem =>
        (List.nodup_append.1 hnodup).2.2 _ hmem _ List.mem_cons_self rfl) _
    have houtcome : (Action.outcome (work compiled w g)).run b.site =
        (.ok ((worker compiled w leaves g).run b).1, ((worker compiled w leaves g).run b).2.site) := by
      rw [run_outcome, hresult, hsite]
    unfold launch
    rw [run_bind_ok houtcome, hset, ih _ ?_ ((worker compiled w leaves g).run b).2, List.append_assoc]
    · rfl
    · rw [Assoc.keys, List.map_append, List.append_assoc, ← Assoc.keys]
      exact hnodup

/-- One generator after another is one of the ways in which the workers may take turns. -/
theorem ends_run (leaves : Generator → Json → Json) (hne : gs ≠ []) (hnodup : (gs.map (·.name)).Nodup)
    (hlimit : checkLimit limit = .ok ()) (σ : Site) :
    Ends w gs limit compiled leaves σ ((run w gs limit compiled).run σ).1
      ((run w gs limit compiled).run σ).2 := by
  obtain ⟨σ₁, hannounce⟩ := announce_ok hlimit gs σ
  have hnodup' : ((Text.sortOn Generator.name gs).map (·.name)).Nodup :=
    ((Text.sortOn_perm _ gs).map _).nodup_iff.2 hnodup
  have hlaunch := launch_inTurn compiled w leaves [] hnodup' ⟨σ₁, []⟩
  refine ⟨σ₁, _, hannounce, Pool.runs_inTurn (threads_pos hne hlimit) _ _ _, ⟨rfl, rfl⟩, ?_⟩
  rw [run_eq hne, run_bind_ok hannounce, run_bind_ok hlaunch]

/-! ## What the generators come to -/

/-- The failure of a generator, if it fails. -/
def failure? (plan : Json) (g : Generator) : Option (String × String) :=
  match verdict plan g with
  | .ok _ => none
  | .error f => some (g.name, f.describe)

/-- The generators that do not fail, in the order of the names. -/
def succeeding (plan : Json) (gs : List Generator) : List Generator :=
  (Text.sortOn Generator.name gs).filter fun g => (failure? plan g).isNone

/-- The failures of the others, in the order of the names. -/
def failing (plan : Json) (gs : List Generator) : Assoc String String :=
  (Text.sortOn Generator.name gs).filterMap (failure? plan)

/-- The workspace has got the fragments and has listed them in order, and the result is that there are all
fragments, or which generators have failed. -/
structure Concluded (w : Workspace) (A : Address) (plan : Json) (gs : List Generator) (σ : Site)
    (r : Attempt (List Generated)) (σ' : Site) : Prop where
  edits : Edits w A (IsWritten plan gs) σ σ'
  files : ∀ g ∈ gs, ∀ v, verdict plan g = .ok v →
    σ'.disk.find? (A ++ [w.key] ++ [g.artifact]) = some (.file (.json v.sortKeys))
  adds : Adds w A ((succeeding plan gs).map (·.artifact)) σ σ'
  complete : failing plan gs = [] → ∃ rs, r = .ok rs ∧ rs.map (fun r => (r.generator, r.artifact)) =
    (Text.sortOn Generator.name gs).map fun g => (g.name, g.artifact)
  incomplete : failing plan gs ≠ [] → r = .error (.generatorsFailed (failing plan gs))

theorem failuresOf_cons (e : String × Attempt Generated) (outcomes : Assoc String (Attempt Generated)) :
    failuresOf (e :: outcomes) = failuresOf [e] ++ failuresOf outcomes := by
  rw [failuresOf, ← List.singleton_append, List.filterMap_append]
  rfl

theorem generatedOf_cons (e : String × Attempt Generated) (outcomes : Assoc String (Attempt Generated)) :
    generatedOf (e :: outcomes) = generatedOf [e] ++ generatedOf outcomes := by
  rw [generatedOf, ← List.singleton_append, List.filterMap_append]
  rfl

/-- An outcome is reported, and listed if it is a fragment. -/
theorem settle_run (h : Workable w A σ) (name : String) (r : Attempt Generated) :
    ∃ σ', (settle w name r).run σ = (.ok (), σ') ∧ Edits w A (fun _ => False) σ σ' ∧
      Adds w A ((generatedOf [(name, r)]).map (·.artifact)) σ σ' := by
  cases r with
  | ok r =>
    obtain ⟨σ₁, hrun₁, hedits₁, hadds₁⟩ := addArtifact_adds h r.artifact
    have h₁ := hedits₁.workable h
    obtain ⟨σ₂, hrun₂, hdiff₂⟩ := info_run logger s!"Generator {name} completed" "generator_completed"
      (some name) (some (.obj [("artifact", .str r.artifact)])) σ₁
    exact ⟨σ₂, (run_bind_ok hrun₁).trans hrun₂, hedits₁.trans (h₁.edits_log hdiff₂ _),
      hadds₁.trans (adds_of_differs h₁.stands hdiff₂ id)⟩
  | error f =>
    obtain ⟨σ₁, hrun₁, hdiff₁⟩ := error_run logger s!"Generator {name} failed: {f.message}"
      "generator_failed" (some name) none (some f) σ
    exact ⟨σ₁, hrun₁, h.edits_log hdiff₁ _, adds_of_differs h.stands hdiff₁ id⟩

theorem forM_settle_run (h : Workable w A σ) (outcomes : Assoc String (Attempt Generated)) :
    ∃ σ', (outcomes.forM fun e => settle w e.1 e.2).run σ = (.ok (), σ') ∧
      Edits w A (fun _ => False) σ σ' ∧ Adds w A ((generatedOf outcomes).map (·.artifact)) σ σ' := by
  induction outcomes generalizing σ with
  | nil => exact ⟨σ, rfl, h.edits_refl _, .refl w A σ⟩
  | cons e outcomes ih =>
    obtain ⟨σ₁, hrun₁, hedits₁, hadds₁⟩ := settle_run h e.1 e.2
    obtain ⟨σ₂, hrun₂, hedits₂, hadds₂⟩ := ih (hedits₁.workable h)
    refine ⟨σ₂, ?_, hedits₁.trans hedits₂, ?_⟩
    · rw [Action.forM_cons]
      exact (run_bind_ok hrun₁).trans hrun₂
    · rw [generatedOf_cons, List.map_append]
      exact hadds₁.trans hadds₂

/-- Of the outcomes, those that are failures are those of the generators that fail by themselves. -/
theorem outcomes_reported {out : String → Attempt Generated} {d : Disk}
    (h : ∀ g ∈ gs, Reports w A plan g (out g.name) d) :
    failuresOf (gs.map fun g => (g.name, out g.name)) = gs.filterMap (failure? plan) ∧
      (generatedOf (gs.map fun g => (g.name, out g.name))).map (fun r => (r.generator, r.artifact)) =
        (gs.filter fun g => (failure? plan g).isNone).map fun g => (g.name, g.artifact) := by
  induction gs with
  | nil => exact ⟨rfl, rfl⟩
  | cons g gs ih =>
    obtain ⟨hfailures, hgenerated⟩ := ih fun g' hg' => h g' (List.mem_cons_of_mem g hg')
    have hg := h g List.mem_cons_self
    rw [List.map_cons, failuresOf_cons, generatedOf_cons, List.map_append, hfailures, hgenerated]
    cases hverdict : verdict plan g with
    | ok v =>
      obtain ⟨⟨seconds, hout⟩, -⟩ := hg.success v hverdict
      have hnone : failure? plan g = none := by rw [failure?, hverdict]
      rw [hout, List.filterMap_cons_none hnone, List.filter_cons_of_pos (by simp [hnone])]
      exact ⟨rfl, rfl⟩
    | error f =>
      have hout := hg.failure f hverdict
      have hsome : failure? plan g = some (g.name, f.describe) := by rw [failure?, hverdict]
      rw [hout, List.filterMap_cons_some hsome, List.filter_cons_of_neg (by simp [hsome])]
      exact ⟨rfl, rfl⟩

/-- Outcomes by different names are in one order only. -/
theorem sortOn_outcomes {outcomes : Assoc String (Attempt Generated)} (hnodup : (gs.map (·.name)).Nodup)
    (hnames : (outcomes.map (·.1)).Perm ((Text.sortOn Generator.name gs).map (·.name))) :
    ∃ out : String → Attempt Generated, Text.sortOn (·.1) outcomes =
        ((Text.sortOn Generator.name gs).map fun g => (g.name, out g.name)) ∧
      ∀ g ∈ gs, (g.name, out g.name) ∈ outcomes := by
  obtain ⟨out, hout⟩ : ∃ out : String → Attempt Generated, out = fun n =>
    (Assoc.find? outcomes n).getD (.error .endless) := ⟨_, rfl⟩
  have hnodup' : (outcomes.map (·.1)).Nodup :=
    (hnames.trans ((Text.sortOn_perm _ gs).map _)).nodup_iff.2 hnodup
  have hvalue : ∀ e ∈ outcomes, (e.1, out e.1) = e := by
    intro e he
    rw [hout]
    dsimp only
    rw [Assoc.find?_of_mem hnodup' he]
    rfl
  have hself : outcomes = (outcomes.map (·.1)).map fun n => (n, out n) := by
    rw [List.map_map]
    exact (List.map_id outcomes).symm.trans (List.map_congr_left fun e he => (hvalue e he).symm)
  have hperm : outcomes.Perm ((Text.sortOn Generator.name gs).map fun g => (g.name, out g.name)) := by
    have hmap := hnames.map fun n => (n, out n)
    rw [← hself, List.map_map] at hmap
    exact hmap
  refine ⟨out, ?_, fun g hg => ?_⟩
  · rw [Text.sortOn_eq_of_perm hperm hnodup']
    refine Text.sortOn_of_pairwise (List.pairwise_map.2 ?_)
    exact Text.pairwise_sortOn Generator.name gs
  · exact hperm.mem_iff.2 (List.mem_map_of_mem (Text.mem_sortOn.2 hg))

/-- Without failures there is a fragment of every generator. -/
theorem succeeding_of_failing (h : failing plan gs = []) :
    succeeding plan gs = Text.sortOn Generator.name gs := by
  refine List.filter_eq_self.2 fun g hg => ?_
  rw [List.filterMap_eq_nil_iff.1 h g hg, Option.isNone_none]

/-- Outcomes that the generators have come to by themselves are listed and reported in the order of the
names. -/
theorem conclude_run (h : Workable w A σ) (hnodup : (gs.map (·.name)).Nodup)
    {outcomes : Assoc String (Attempt Generated)}
    (hnames : (outcomes.map (·.1)).Perm ((Text.sortOn Generator.name gs).map (·.name)))
    (hreports : ∀ e ∈ outcomes, ∀ g ∈ gs, g.name = e.1 → Reports w A plan g e.2 σ.disk) :
    ∃ r σ', (conclude w outcomes).run σ = (r, σ') ∧ Edits w A (fun _ => False) σ σ' ∧
      Adds w A ((succeeding plan gs).map (·.artifact)) σ σ' ∧
      (failing plan gs = [] → ∃ rs, r = .ok rs ∧ rs.map (fun r => (r.generator, r.artifact)) =
        (Text.sortOn Generator.name gs).map fun g => (g.name, g.artifact)) ∧
      (failing plan gs ≠ [] → r = .error (.generatorsFailed (failing plan gs))) := by
  obtain ⟨out, hsorted, hout⟩ := sortOn_outcomes hnodup hnames
  obtain ⟨σ', hrun, hedits, hadds⟩ := forM_settle_run h (Text.sortOn (·.1) outcomes)
  have hall : ∀ g ∈ Text.sortOn Generator.name gs, Reports w A plan g (out g.name) σ.disk := fun g hg =>
    hreports _ (hout g (Text.mem_sortOn.1 hg)) g (Text.mem_sortOn.1 hg) rfl
  obtain ⟨hfailures, hgenerated⟩ := outcomes_reported hall
  rw [← hsorted] at hfailures hgenerated
  have hlisted : (generatedOf (Text.sortOn (·.1) outcomes)).map (·.artifact) =
      (succeeding plan gs).map (·.artifact) := by
    have hsecond := congrArg (List.map Prod.snd) hgenerated
    rwa [List.map_map, List.map_map] at hsecond
  rw [hlisted] at hadds
  have hconclude : (conclude w outcomes).run σ = ((if (failing plan gs).isEmpty then
      .ok (generatedOf (Text.sortOn (·.1) outcomes)) else .error (.generatorsFailed (failing plan gs))), σ') := by
    unfold conclude
    dsimp only
    rw [run_bind_ok hrun, hfailures, ← failing]
    split <;> rfl
  refine ⟨_, σ', hconclude, hedits, hadds, fun hnone => ?_, fun hsome => ?_⟩
  · rw [hnone, List.isEmpty_nil, if_pos rfl]
    refine ⟨_, rfl, ?_⟩
    rw [hgenerated, ← succeeding, succeeding_of_failing hnone]
  · rw [if_neg (by simpa using hsome)]

/-! ## All ways end alike -/

theorem announce_run {σ₁ : Site} (h : (announce gs limit).run σ = (.ok (), σ₁)) :
    Differs (fun _ => False) σ σ₁ := by
  obtain ⟨_, σ₂, hinfo, hlift⟩ := of_run_bind_ok h
  obtain rfl : σ₂ = σ₁ := congrArg Prod.snd hlift
  obtain ⟨σ₃, hrun, hdiff⟩ := info_run logger _ _ _ _ σ
  obtain rfl : σ₃ = σ₂ := congrArg Prod.snd (hrun.symm.trans hinfo)
  exact hdiff

/-- However the workers take turns, the fan-out ends with what the generators come to by themselves. -/
theorem concluded_of_ends (h : Workable w A σ) (hplan : Held w A σ.disk plan)
    (hplain : ∀ g ∈ gs, PlainName g.name) (hnodup : (gs.map (·.name)).Nodup) {r : Attempt (List Generated)}
    (hends : Ends w gs limit (compiledPath w) leaves σ r σ') : Concluded w A plan gs σ r σ' := by
  obtain ⟨σ₁, p, hannounce, hruns, hfinal, hconclude⟩ := hends
  have hdiff := announce_run hannounce
  have hlog : ∀ X, Edits w A X σ σ₁ := h.edits_log hdiff
  have hadds₁ : Adds w A [] σ σ₁ := adds_of_differs h.stands hdiff id
  have hstocked : Stocked w A plan ⟨σ₁, []⟩ := ⟨(hlog IsFragmentName).workable h, hplan.of_edits (hlog _)⟩
  have hjobs : (jobs (compiledPath w) w leaves (Text.sortOn Generator.name gs)).map (·.1) =
      (Text.sortOn Generator.name gs).map (·.name) := by
    rw [jobs, List.map_map]
    rfl
  have hnodup' : ((Text.sortOn Generator.name gs).map (·.name)).Nodup :=
    ((Text.sortOn_perm _ gs).map _).nodup_iff.2 hnodup
  have hsecure : ∀ j ∈ jobs (compiledPath w) w leaves (Text.sortOn Generator.name gs),
      j.2.Secure (apart w A plan gs) j.1
        (fun r b => ∀ g ∈ gs, g.name = j.1 → Reports w A plan g r b.site.disk) ⟨σ₁, []⟩ := by
    intro j hj
    obtain ⟨g, hg, rfl⟩ := List.mem_map.1 hj
    have hg := Text.mem_sortOn.1 hg
    refine (worker_secure leaves hstocked hg hplain).imp fun r b hreports g' hg' hname => ?_
    exact List.inj_on_of_nodup_map hnodup hg' hg hname ▸ hreports
  obtain ⟨hnames, hallows, hended⟩ := Pool.ended_of_runs (Q := fun k r b =>
    ∀ g ∈ gs, g.name = k → Reports w A plan g r b.site.disk) (hjobs ▸ hnodup') hsecure hruns hfinal
  obtain ⟨hedits₂, hadds₂, -⟩ := hallows hstocked.workable
  have hworkable₂ : Workable w A p.state.site := hedits₂.workable hstocked.workable
  obtain ⟨r', σ₃, hrun, hedits₃, hadds₃, hcomplete, hincomplete⟩ :=
    conclude_run hworkable₂ hnodup (hjobs ▸ hnames) hended
  obtain ⟨rfl, rfl⟩ := Prod.mk.inj (hconclude.symm.trans hrun)
  refine ⟨?_, fun g hg v hv => ?_, (hadds₁.trans hadds₂).trans hadds₃, hcomplete, hincomplete⟩
  · refine ((hlog _).trans (hedits₂.mono fun n hn _ => hn.1)).trans (hedits₃.mono ?_)
    exact fun _ hfalse _ => hfalse.elim
  · obtain ⟨r, hr⟩ : ∃ r, (g.name, r) ∈ p.ended := by
      have hmem : g.name ∈ p.ended.map (·.1) := hnames.mem_iff.2 (hjobs ▸
        List.mem_map_of_mem (Text.mem_sortOn.2 hg))
      obtain ⟨e, he, heq⟩ := List.mem_map.1 hmem
      exact ⟨e.2, heq ▸ he⟩
    have hname := (isArtifactName_artifact (hplain g hg) (nulFree_of_verdict hv)).1
    rw [hedits₃.find? hname id, ((hended _ hr g hg rfl).success v hv).2]

/-- Without generators nothing is done. -/
theorem concluded_nil (h : Workable w A σ) (plan limit : Json) (compiled : Path) :
    Concluded w A plan [] σ ((run w [] limit compiled).run σ).1 ((run w [] limit compiled).run σ).2 := by
  obtain ⟨σ₁, hrun, hdiff⟩ := Session.report_run
    { severity := .warning, logger := logger, message := "No code generators registered" } σ
  have hrun' : (run w [] limit compiled).run σ = (.ok [], σ₁) := run_bind_ok hrun
  have hordered : Text.sortOn Generator.name ([] : List Generator) = [] := Text.sortOn_eq_nil.2 rfl
  have hsucceeding : succeeding plan [] = [] := by rw [succeeding, hordered, List.filter_nil]
  have hfailing : failing plan [] = [] := by rw [failing, hordered, List.filterMap_nil]
  rw [hrun']
  refine ⟨h.edits_log hdiff _, nofun, ?_, fun _ => ⟨[], rfl, by rw [hordered]; rfl⟩, fun hne => absurd hfailing hne⟩
  rw [hsucceeding]
  exact adds_of_differs h.stands hdiff id

/-- Generators that make a mapping all succeed, and leave their fragments. -/
theorem run_ok (h : Workable w A σ) (hplan : Holds w A σ.disk plan) (hne : gs ≠ [])
    (hplain : ∀ g ∈ gs, PlainName g.name ∧ Path.NulFree g.name) (hnodup : (gs.map (·.name)).Nodup)
    (hgenerate : ∀ g ∈ gs, ∃ f fs, g.generate plan = .ok (.obj (f :: fs))) (limit : Json)
    (hlimit : checkLimit limit = .ok ()) :
    ∃ rs σ', (run w gs limit (compiledPath w)).run σ = (.ok rs, σ') ∧ Edits w A IsFragmentName σ σ' ∧
      ∀ r ∈ rs, ∃ g ∈ gs, Fragment w A plan σ'.disk g r := by
  have hverdict : ∀ g ∈ gs, ∃ f fs, g.generate plan = .ok (.obj (f :: fs)) ∧
      verdict plan g = .ok (.obj (f :: fs)) := by
    intro g hg
    obtain ⟨f, fs, hfragment⟩ := hgenerate g hg
    refine ⟨f, fs, hfragment, ?_⟩
    rw [verdict_of_mapping hfragment rfl, Disk.checkName_of_nulFree (hplain g hg).2, Attempt.ok_bind]
  have hfailing : failing plan gs = [] := by
    refine List.filterMap_eq_nil_iff.2 fun g hg => ?_
    obtain ⟨f, fs, -, hok⟩ := hverdict g (Text.mem_sortOn.1 hg)
    rw [failure?, hok]
  have hconcluded := concluded_of_ends h (.inl hplan) (fun g hg => (hplain g hg).1) hnodup
    (ends_run (fun _ plan => plan) hne hnodup hlimit σ)
  obtain ⟨rs, hrs, hnames⟩ := hconcluded.complete hfailing
  refine ⟨rs, _, Prod.ext hrs rfl, hconcluded.edits.mono fun n hn _ =>
    (hn.names fun g hg => (hplain g hg).1).2, fun r hr => ?_⟩
  obtain ⟨g, hg, heq⟩ := List.mem_map.1 (hnames ▸ List.mem_map_of_mem hr)
  have hg := Text.mem_sortOn.1 hg
  obtain ⟨hgenerator, hartifact⟩ := Prod.mk.inj heq
  obtain ⟨f, fs, hfragment, hok⟩ := hverdict g hg
  exact ⟨g, hg, hgenerator.symm, hartifact.symm, f, fs, hfragment, hconcluded.files g hg _ hok⟩

/-- A generator that fails by itself has a text that says so, if the class of its failure has a name. -/
theorem failing_ne_empty (hnamed : ∀ g ∈ gs, ∀ arguments, g.generate plan ≠ .error (.raised "" arguments)) :
    ∀ e ∈ failing plan gs, e.2 ≠ "" := by
  intro e he
  obtain ⟨g, hg, hsome⟩ := List.mem_filterMap.1 he
  unfold failure? at hsome
  split at hsome
  · cases hsome
  · rename_i f hverdict
    cases hsome
    refine Fault.describe_ne_empty ?_
    rintro arguments rfl
    refine hnamed g (Text.mem_sortOn.1 hg) arguments ?_
    unfold verdict expectMapping Disk.checkName Json.misuse at hverdict
    cases hgenerate : g.generate plan with
    | error f =>
      rw [hgenerate] at hverdict
      exact hverdict
    | ok fragment =>
      rw [hgenerate, Attempt.ok_bind] at hverdict
      split at hverdict
      · split at hverdict <;> cases hverdict
      · cases hverdict

/-- Generators whose names can be parts of the names of files come to what they come to by themselves,
whether they work one after another or at the same time. However their workers take turns, they come to an
end. -/
theorem run_scheduled (leaves : Generator → Json → Json) (h : Workable w A σ)
    (hplan : Held w A σ.disk plan) (hplain : ∀ g ∈ gs, PlainName g.name)
    (hnodup : (gs.map (·.name)).Nodup) (hlimit : limit = .null ∨ ∃ k : Int, 1 ≤ k ∧ limit = .int k) :
    Concluded w A plan gs σ ((run w gs limit (compiledPath w)).run σ).1
      ((run w gs limit (compiledPath w)).run σ).2 ∧
    (gs ≠ [] → (∀ r σ', Ends w gs limit (compiledPath w) leaves σ r σ' → Concluded w A plan gs σ r σ') ∧
      ∃ σ₁, (announce gs limit).run σ = (.ok (), σ₁) ∧
        Acc (fun p' p => Pool.Step (threads limit gs.length) p p')
          (lineup (compiledPath w) w leaves gs σ₁) ∧
        ∀ p, Pool.Runs (threads limit gs.length) (lineup (compiledPath w) w leaves gs σ₁) p →
          p.Final ∨ ∃ p', Pool.Step (threads limit gs.length) p p') ∧
    ((∀ g ∈ gs, ∀ arguments, g.generate plan ≠ .error (.raised "" arguments)) →
      ∀ e ∈ failing plan gs, e.2 ≠ "") := by
  have hcheck : checkLimit limit = .ok () := by
    rcases hlimit with rfl | ⟨k, hk, rfl⟩
    · rfl
    · have hle : Json.leNumber (.int k) (.int 0) = false := by
        simp [Json.leNumber, Json.fraction?]
        omega
      simp [checkLimit, Json.isNumber, hle]
  refine ⟨?_, fun hne => ⟨fun r σ' => concluded_of_ends h hplan hplain hnodup, ?_⟩, failing_ne_empty⟩
  · by_cases hne : gs = []
    · subst hne
      exact concluded_nil h plan limit _
    · exact concluded_of_ends h hplan hplain hnodup (ends_run leaves hne hnodup hcheck σ)
  · obtain ⟨σ₁, hrun⟩ := announce_ok hcheck gs σ
    exact ⟨σ₁, hrun, (Pool.wellFounded_step _).apply _, fun p _ => Pool.progress (threads_pos hne hcheck) p⟩

/-- The site of a new workspace that has got a plan. -/
def plannedSite (plan : Json) : Site := ((specimen.writeArtifact compiledArtifact plan).run specimenSite).2

theorem planned_site (plan : Json) : Workable specimen ["/"] (plannedSite plan) ∧
    Held specimen ["/"] (plannedSite plan).disk plan.sortKeys := by
  obtain ⟨σ, hrun, hedits, hfile⟩ :=
    writeArtifact_run new_specimen.toWorkable isArtifactName_compiled.1 plan
  have hsite : plannedSite plan = σ := congrArg Prod.snd hrun
  rw [hsite]
  exact ⟨hedits.workable new_specimen.toWorkable, .inr hfile⟩

/-- A plan with one process. -/
def smallPlan : Json := .obj [("execution", .obj [("processes", .obj [("process/p", .obj [])])])]

/-- A generator under the name that asks for the processes of the plan. -/
def asking (name : String) : Generator := ⟨name, "FunctionGenerator", "", fun plan => do
  let execution ← plan.field "execution"
  return .obj [("found", ← execution.field "processes")]⟩

/-- A generator under the name that fails. -/
def refusing (name : String) : Generator :=
  ⟨name, "FunctionGenerator", "", fun _ => .error (.raised "ValueError" [.str "no"])⟩

/-- A generator under the name that makes an empty fragment. -/
def emptying (name : String) : Generator := ⟨name, "FunctionGenerator", "", fun _ => .ok (.obj [])⟩

theorem run_scheduled_pair :
    Workable specimen ["/"] (plannedSite smallPlan) ∧
      Held specimen ["/"] (plannedSite smallPlan).disk smallPlan.sortKeys ∧
      (∀ g ∈ [asking "b", refusing "a"], PlainName g.name) ∧
      ([asking "b", refusing "a"].map (·.name)).Nodup ∧
      Concluded specimen ["/"] smallPlan.sortKeys [asking "b", refusing "a"] (plannedSite smallPlan)
        ((run specimen [asking "b", refusing "a"] (.int 2) (compiledPath specimen)).run
          (plannedSite smallPlan)).1
        ((run specimen [asking "b", refusing "a"] (.int 2) (compiledPath specimen)).run
          (plannedSite smallPlan)).2 ∧
      ∀ r σ', Ends specimen [asking "b", refusing "a"] (.int 2) (compiledPath specimen) (fun _ _ => .null)
        (plannedSite smallPlan) r σ' →
        Concluded specimen ["/"] smallPlan.sortKeys [asking "b", refusing "a"] (plannedSite smallPlan) r σ' := by
  obtain ⟨hworkable, hheld⟩ := planned_site smallPlan
  have hplain : ∀ g ∈ [asking "b", refusing "a"], PlainName g.name :=
    List.forall_mem_cons.2 ⟨by decide, List.forall_mem_singleton.2 (by decide)⟩
  have hnodup : ([asking "b", refusing "a"].map (·.name)).Nodup := by decide
  obtain ⟨hrun, hends, -⟩ := run_scheduled (fun _ _ => .null) hworkable hheld hplain hnodup
    (.inr ⟨2, by decide, rfl⟩)
  exact ⟨hworkable, hheld, hplain, hnodup, hrun, (hends (by simp)).1⟩

/-- A generator under the name that fails with nothing to say, and the class of its failure has no name. -/
def unnamed (name : String) : Generator :=
  ⟨name, "FunctionGenerator", "", fun _ => .error (.raised "" [])⟩

/-- Generators that are in order as they stand fail with what has become of them in turn. -/
theorem run_of_ordered (outcomes : Assoc String (Attempt Generated)) {f : String × String}
    {fs : Assoc String String} (hne : gs ≠ [])
    (hordered : gs.Pairwise fun a b => Text.le a.name b.name = true)
    (hsorted : outcomes.Pairwise fun a b => Text.le a.1 b.1 = true)
    (hannounce : ((announce gs limit).run σ).1 = .ok ())
    (hlaunch : ((launch compiled w [] gs).run ((announce gs limit).run σ).2).1 = .ok outcomes)
    (hsettle : ((outcomes.forM fun e => settle w e.1 e.2).run
      ((launch compiled w [] gs).run ((announce gs limit).run σ).2).2).1 = .ok ())
    (hfailures : failuresOf outcomes = f :: fs) :
    ((run w gs limit compiled).run σ).1 = .error (.generatorsFailed (f :: fs)) := by
  rw [run_eq hne, run_bind_of_fst hannounce, Text.sortOn_of_pairwise hordered, run_bind_of_fst hlaunch]
  unfold conclude
  dsimp only
  rw [Text.sortOn_of_pairwise hsorted, run_bind_of_fst hsettle, hfailures, if_neg (by simp)]
  rfl

/-- A name with slashes leads to the plan, which its generator replaces before the next one reads it. Under
a name with a null character nothing is written, and a failure with neither a text nor a name is listed
with an empty text. -/
theorem run_overwrites_plan :
    Workable specimen ["/"] (plannedSite smallPlan) ∧
      Held specimen ["/"] (plannedSite smallPlan).disk smallPlan.sortKeys ∧
      ([emptying "a/../config", asking "b"].map (·.name)).Nodup ∧
      (∀ g ∈ [emptying "a/../config", asking "b"], ∃ fs, g.generate smallPlan.sortKeys = .ok (.obj fs)) ∧
      ((run specimen [asking "b"] (.int 1) (compiledPath specimen)).run (plannedSite smallPlan)).1.isOk = true ∧
      ((run specimen [emptying "a/../config", asking "b"] (.int 1) (compiledPath specimen)).run
        (plannedSite smallPlan)).1 = .error (.generatorsFailed [("b", "'execution'")]) ∧
      ((run specimen [emptying "a\x00"] (.int 1) (compiledPath specimen)).run
        (plannedSite smallPlan)).1 = .error (.generatorsFailed [("a\x00", "embedded null byte")]) ∧
      ((run specimen [unnamed "a"] (.int 1) (compiledPath specimen)).run
        (plannedSite smallPlan)).1 = .error (.generatorsFailed [("a", "")]) := by
  have hplan : smallPlan.sortKeys = smallPlan := by decide +kernel
  refine ⟨(planned_site smallPlan).1, (planned_site smallPlan).2, by decide, ?_, by decide +kernel, ?_, ?_, ?_⟩
  · rw [hplan]
    exact List.forall_mem_cons.2 ⟨⟨_, rfl⟩, List.forall_mem_singleton.2 ⟨_, rfl⟩⟩
  · exact run_of_ordered [("a/../config", .ok ⟨"a/../config", "code-a/../config.json",
        specimenSite.clock.secondsSince specimenSite.clock⟩),
      ("b", .error (.misuse (.missingKey (.str "execution"))))]
      (by simp) (by decide) (by decide) (by decide +kernel) (by decide +kernel) (by decide +kernel)
      (by decide +kernel)
  · exact run_of_ordered [("a\x00", .error (.misuse (.outOfBounds "embedded null byte")))]
      (by simp) (by decide) (by decide) (by decide +kernel) (by decide +kernel) (by decide +kernel) (by decide)
  · exact run_of_ordered [("a", .error (.raised "" []))]
      (by simp) (by decide) (by decide) (by decide +kernel) (by decide +kernel) (by decide +kernel) (by decide)

end Fanout

end FlowPlan

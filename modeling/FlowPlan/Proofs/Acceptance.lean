import FlowPlan.Proofs.Gate
import FlowPlan.Proofs.History
import FlowPlan.Proofs.Plan.Generation
import FlowPlan.Proofs.Reordering
import FlowPlan.Proofs.Scheduling
import Mathlib

/-!
# Which documents are accepted

The standard build accepts a document exactly if its definitions have their shapes and names of their
own, and what they wait for and read is there. Then every phase succeeds, and the build is promoted.

## Main definitions

* `Document.Acceptable` — what is asked of a document.
* `Builder.Fresh` — a build root in which nothing has been built.

## Main statements

* `Document.passed_iff` — when the compiled plan passes its gate.
* `Builder.acceptable_of_judged`, `Builder.judged_of_acceptable` — what comes up to the promotion.
* `Builder.run_returns_iff` — which builds return.
-/

namespace FlowPlan

open FlowPlan.Action Document Pointers Workspace

namespace Document

/-- Every definition has its shape and a name of its own. It depends on definitions of the document and
reads what these write or the document declares, and it waits for itself neither directly nor through
others. -/
structure Acceptable (document : Fields) : Prop extends Shaped document where
  resolved : ∀ d ∈ definitions document, ∀ b ∈ d.dependencies, ∃ d' ∈ definitions document, d'.name = b
  produced : ∀ d ∈ definitions document, ∀ r ∈ d.inputs,
    (∃ d' ∈ definitions document, d'.output = some r) ∨ r ∈ declaredIn document
  acyclic : ¬ ∃ n, Relation.TransGen (Definition.Upstream (definitions document)) n n

variable {document document' : Fields} {ds : List Definition}

/-- The plan of a compiled document, as it is read back. -/
theorem plan_of_compiled (h : Compiled document ds document') :
    ∃ p, Plan.ofDocument (.obj (sorted document')) = .ok p ∧ p.Consists ds := by
  obtain ⟨pr, hpr, hrepresents⟩ := h.sorted.processes
  exact Plan.ofDocument_run hpr hrepresents

/-- The gate of the plan looks for unknown names, for relations that come from nowhere and for cycles. -/
theorem passed_iff (h : Compiled document ds document') :
    (∀ c ∈ Check.standard, c.1.phase = .str planPhase →
        c.1.messages (.obj (sorted document')) = .ok []) ↔
      (∀ d ∈ ds, ∀ b ∈ d.dependencies, ∃ d' ∈ ds, d'.name = b) ∧
      (∀ d ∈ ds, ∀ r ∈ d.inputs, (∃ d' ∈ ds, d'.output = some r) ∨ r ∈ declaredIn document) ∧
      ¬ ∃ n, Relation.TransGen (Definition.Upstream ds) n n := by
  obtain ⟨p, hplan, hconsists⟩ := plan_of_compiled h
  have hsorted := h.sorted
  have hproduced := Check.unproducedMessages_iff hplan hconsists hsorted.schema hsorted.relations
  simp only [hsorted.declared] at hproduced
  rw [← Check.unresolvedMessages_iff hplan hconsists, ← hproduced, ← Check.cycleMessages_iff hplan hconsists]
  have hcollisions := (Check.collisionMessages_iff hsorted.execution hsorted.collisions).2 rfl
  simp only [Check.standard, List.forall_mem_cons, List.not_mem_nil, false_implies, implies_true, and_true]
  constructor
  · rintro ⟨-, hresolved, hproduced, hacyclic, -⟩
    exact ⟨hresolved rfl, hproduced rfl, hacyclic rfl⟩
  · rintro ⟨hresolved, hproduced, hacyclic⟩
    exact ⟨fun _ => hcollisions, fun _ => hresolved, fun _ => hproduced, fun _ => hacyclic,
      fun hphase => absurd hphase (by decide)⟩

/-- The standard generators make something of a compiled plan that passes its gate. -/
theorem generate_compiled (h : Compiled document ds document') (hcheck : check (.obj document') .qualified = .ok ())
    (hresolved : ∀ d ∈ ds, ∀ b ∈ d.dependencies, ∃ d' ∈ ds, d'.name = b)
    (hacyclic : ¬ ∃ n, Relation.TransGen (Definition.Upstream ds) n n) :
    ∀ g ∈ Generator.standard.map (·.1), ∃ f fs, g.generate (.obj (sorted document')) = .ok (.obj (f :: fs)) := by
  obtain ⟨p, hplan, hconsists⟩ := plan_of_compiled h
  obtain ⟨order, horder⟩ := (Plan.topologicalOrder_iff hconsists false (.inr hresolved)).2 hacyclic
  obtain ⟨pr, hpr, hrepresents⟩ := h.sorted.processes
  have honce : (Assoc.keys (entriesIn (sorted document') "execution" "processes")).Nodup := by
    rw [entriesIn, hpr]
    exact hrepresents.nodup
  obtain ⟨p', hplan', hconsists', hkinds, hkinded⟩ := plan_of_qualified (check_sorted.2 hcheck) honce
  obtain rfl : p = p' := Except.ok.inj (hplan.symm.trans hplan')
  rintro g hg
  obtain ⟨x, hx, rfl⟩ := List.mem_map.1 hg
  exact Generator.generate_ok hplan hconsists' hkinds hkinded horder x hx

end Document

/-! ## The units of the standard build -/

/-- With none disabled the units are those of the catalog. -/
theorem Catalog.units_perm {α : Type} {c : Catalog α} (h : (Assoc.keys c.entries).Nodup) :
    ∃ us, c.units [] = .ok us ∧ us.Perm (c.entries.map (·.2)) := by
  have hskip : c.units [] = .ok (c.names.filterMap (Assoc.find? c.entries)) := by
    rw [Catalog.units_of_hashable (by simp), List.filter_eq_self.2 (by simp [Json.listed])]
  refine ⟨_, hskip, ?_⟩
  have hnames : c.names.Perm (Assoc.keys c.entries) := Text.sortOn_perm _ _
  refine (hnames.filterMap _).trans (List.Perm.of_eq ?_)
  have hfind : c.entries.filterMap (Assoc.find? c.entries ∘ (·.1)) =
      c.entries.filterMap (some ∘ (·.2)) := List.filterMap_congr fun e he => Assoc.find?_of_mem h he
  rw [Assoc.keys, List.filterMap_map, hfind, List.filterMap_eq_map]

namespace Builder

variable {host : Host} {project : Path}

theorem checks_standard (host : Host) (project : Path) :
    ∃ cs, (standard host project).checks = .ok cs ∧ cs.Perm (Check.standard.map (·.1)) := by
  obtain ⟨us, hus, hperm⟩ := Catalog.units_perm (c := Catalogs.standard.checks) (by decide)
  refine ⟨us, ?_, by simpa [Catalogs.standard, List.map_map, Function.comp_def] using hperm⟩
  have hcommands : (standard host project).commandChecks = .ok [] := by
    simp [commandChecks, standard, ofSettings, Settings.standard, Text.sortOn]
  unfold checks
  rw [hcommands]
  change Catalogs.standard.checks.units [] >>= _ = _
  rw [hus, Attempt.ok_bind, Attempt.ok_bind, List.append_nil]
  rfl

theorem stages_standard : ((standard host project).catalogs.stages.units
    (standard host project).settings.disabledStages).bind Pipeline.order = .ok (Stage.standard.map (·.1)) := by
  obtain ⟨us, hus, hperm⟩ := Catalog.units_perm (c := Catalogs.standard.stages) (by decide)
  have hperm' : us.Perm (Stage.standard.map (·.1)) := by
    simpa [Catalogs.standard, List.map_map, Function.comp_def] using hperm
  have horder : Pipeline.order us = Pipeline.order (Stage.standard.map (·.1)) := by
    unfold Pipeline.order
    rw [Text.sortOn_eq_of_perm hperm' ((hperm'.map _).nodup_iff.2 (by decide))]
  change (Catalogs.standard.stages.units []).bind Pipeline.order = _
  rw [hus, ← Pipeline.order_standard, ← horder]
  rfl

theorem generators_standard (host : Host) (project : Path) : ∃ gs, (standard host project).catalogs.generators.units
    (standard host project).settings.disabledGenerators = .ok gs ∧ gs.Perm (Generator.standard.map (·.1)) := by
  obtain ⟨us, hus, hperm⟩ := Catalog.units_perm (c := Catalogs.standard.generators) (by decide)
  exact ⟨us, hus, by simpa [Catalogs.standard, List.map_map, Function.comp_def] using hperm⟩

/-! ## Up to the promotion -/

variable {w : Workspace} {A : Address} {s s' : Site} {document : Fields}

/-- The gate of a phase, with the checks of the standard build. -/
theorem gate_standard {cs : List Check} (hcs : cs.Perm (Check.standard.map (·.1))) (host : Host)
    (phase subject : Json) (artifact : Option Path) (s : Site) :
    ∃ r s', (discard (Gate.run host cs phase subject artifact) : Session Unit).run s = (r, s') ∧
      Site.Differs (fun _ => False) s s' ∧
      (r = .ok () ↔ ∀ c ∈ Check.standard, c.1.phase = phase → c.1.messages subject = .ok []) := by
  have hreads : ∀ c ∈ cs, c.Reads := by
    intro c hc
    obtain ⟨x, hx, rfl⟩ := List.mem_map.1 (hcs.mem_iff.1 hc)
    exact Check.reads_standard x hx
  obtain ⟨r, s', hrun, hdiff, hok⟩ := Gate.run_reads hreads host phase subject artifact s
  have hall : (∀ c ∈ cs, c.phase = phase → c.messages subject = .ok []) ↔
      ∀ c ∈ Check.standard, c.1.phase = phase → c.1.messages subject = .ok [] := by
    simp only [hcs.mem_iff, List.forall_mem_map]
  rw [← hall, ← hok]
  cases r with
  | error e => exact ⟨_, s', run_bind_error hrun, hdiff, by simp⟩
  | ok vs => exact ⟨_, s', run_bind_ok hrun, hdiff, by simp⟩

/-- The gate of the code looks for empty fragments. -/
theorem passed_of_full {fields : Fields} (h : ∀ e ∈ fields, ∃ f fs, e.2 = .obj (f :: fs)) :
    ∀ c ∈ Check.standard, c.1.phase = .str codePhase → c.1.messages (.obj fields) = .ok [] := by
  simp only [Check.standard, List.forall_mem_cons, List.not_mem_nil, false_implies, implies_true, and_true]
  exact ⟨fun hphase => absurd hphase (by decide), fun hphase => absurd hphase (by decide),
    fun hphase => absurd hphase (by decide), fun hphase => absurd hphase (by decide),
    fun _ => Check.emptyFragmentMessages_run h⟩

/-- Only an acceptable document comes up to the promotion. -/
theorem acceptable_of_judged (h : Workable w A s) (hproper : Proper document) {j : Judged}
    (hrun : ((standard host project).judged (.obj document) w).run s = (.ok j, s')) : Acceptable document := by
  obtain ⟨cs, hchecks, hcs⟩ := checks_standard host project
  unfold judged at hrun
  rw [run_bind_ok (Session.run_now s), hchecks, lift_ok_bind, stages_standard, lift_ok_bind] at hrun
  obtain ⟨finished, s₁, hpipeline, hrun⟩ := of_run_bind_ok hrun
  obtain ⟨v, hcompile, hedits, hholds⟩ := (Pipeline.run_standard h _).left hpipeline
  rw [Session.run_read_ok (f := (·.readJson (Pipeline.compiledPath w)))
    (hholds.readJson (hedits.workable h))] at hrun
  obtain ⟨u, s₂, hgate, -⟩ := of_run_bind_ok hrun
  obtain ⟨r, s₂', hgate', -, hpassed⟩ := gate_standard hcs (standard host project).host (.str planPhase) v.sortKeys
    (some (Pipeline.compiledPath w)) s₁
  rw [hgate] at hgate'
  cases hgate'
  have hpassed := hpassed.1 rfl
  have hshaped := shaped_of_compile hproper hcompile
    (hpassed (Check.noCollisions, "") (by simp [Check.standard]) rfl)
  obtain ⟨document', hcompile', hcompiled⟩ := compile_of_shaped hproper hshaped
  obtain rfl : v = .obj document' := Except.ok.inj (hcompile.symm.trans hcompile')
  rw [sortKeys_obj] at hpassed
  obtain ⟨hresolved, hproduced, hacyclic⟩ := (passed_iff hcompiled).1 hpassed
  exact ⟨hshaped, hresolved, hproduced, hacyclic⟩

/-- Every acceptable document does. -/
theorem judged_of_acceptable (h : Workable w A s) (hproper : Proper document)
    (hacceptable : Acceptable document) :
    ∃ j s', ((standard host project).judged (.obj document) w).run s = (.ok j, s') := by
  obtain ⟨cs, hchecks, hcs⟩ := checks_standard host project
  obtain ⟨gs, hgenerators, hgs⟩ := generators_standard host project
  have hgs' : ∀ g ∈ gs, g ∈ Generator.standard.map (·.1) := fun g hg => hgs.mem_iff.1 hg
  have hplain : ∀ g ∈ gs, PlainName g.name ∧ Path.NulFree g.name := fun g hg =>
    (by decide : ∀ g ∈ Generator.standard.map (·.1), PlainName g.name ∧ Path.NulFree g.name) g (hgs' g hg)
  obtain ⟨document', hcompile, hcompiled⟩ := compile_of_shaped hproper hacceptable.toShaped
  have hcheck : check (.obj document') .qualified = .ok () := by
    obtain ⟨-, _, -, -, _, -, -, _, -, -, -, hcheck⟩ := compile_eq_ok.1 hcompile
    exact hcheck
  -- The compiled plan.
  obtain ⟨finished, s₁, hpipeline, hedits₁, hholds₁⟩ := (Pipeline.run_standard h _).right hcompile
  have h₁ := hedits₁.workable h
  obtain ⟨r₂, s₂, hgate₂, hdiff₂, hpassed₂⟩ := gate_standard hcs (standard host project).host (.str planPhase)
    (Json.obj document').sortKeys (some (Pipeline.compiledPath w)) s₁
  obtain rfl : r₂ = .ok () := hpassed₂.2 <| by
    rw [sortKeys_obj]
    exact (passed_iff hcompiled).2 ⟨hacceptable.resolved, hacceptable.produced, hacceptable.acyclic⟩
  have hedits₂ := h₁.edits_log hdiff₂ fun _ => False
  have h₂ := hedits₂.workable h₁
  -- The fragments.
  obtain ⟨rs, s₃, hfanout, hedits₃, hfragments⟩ := Fanout.run_ok h₂
    (hholds₁.of_edits hedits₂ fun _ hfalse => hfalse.elim)
    (fun hnil => by simp [hnil, Generator.standard] at hgs)
    hplain ((hgs.map _).nodup_iff.2 (by decide))
    (fun g hg => sortKeys_obj document' ▸
      generate_compiled hcompiled hcheck hacceptable.resolved hacceptable.acyclic g (hgs' g hg))
    (standard host project).settings.maxWorkers rfl
  have h₃ := hedits₃.workable h₂
  have hkept : ∀ r ∈ rs, ∃ g, IsArtifactName g.artifact ∧
      Fanout.Fragment w A (Json.obj document').sortKeys s₃.disk g r := by
    intro r hr
    obtain ⟨g, hg, hfragment⟩ := hfragments r hr
    exact ⟨g, (Fanout.isArtifactName_artifact (hplain g hg).1 (hplain g hg).2).1, hfragment⟩
  obtain ⟨fields, hfields, hfull⟩ := fragments_run h₃ (Json.obj document').sortKeys hkept
  obtain ⟨r₄, s₄, hgate₄, -, hpassed₄⟩ := gate_standard hcs (standard host project).host (.str codePhase)
    (.obj fields) (some w.path) s₃
  obtain rfl : r₄ = .ok () := hpassed₄.2 (passed_of_full hfull)
  refine ⟨⟨s.clock, Pipeline.compiledPath w, finished, rs⟩, s₄, ?_⟩
  unfold judged
  rw [run_bind_ok (Session.run_now s), hchecks, lift_ok_bind, stages_standard, lift_ok_bind,
    run_bind_ok hpipeline]
  dsimp only
  rw [Session.run_read_ok (f := (·.readJson (Pipeline.compiledPath w))) (hholds₁.readJson h₁),
    run_bind_ok hgate₂, hgenerators, lift_ok_bind, run_bind_ok hfanout, run_bind_ok hfields,
    run_bind_ok hgate₄]
  rfl

/-! ## The whole build -/

/-- A vacant build root on whose path one more link may be followed, because the compiled plan is a
link. -/
structure Fresh (root : Path) (A : Address) (s : Site) : Prop extends Vacant root A s where
  spare : ∀ d, s.disk.makeDirs root = .ok d → Disk.Rooted (Disk.maxLinks - 1) d root A

variable {b : Builder} {key : String} {s₁ s₂ s₃ s₄ : Site} {j : Judged} {r : Except Fault Built}
  {subject : Json}

/-- Once a build has entered its new workspace, nothing is in the way of an artifact. -/
theorem workable_of_enter {a : Address}
    (hspare : Disk.Rooted (Disk.maxLinks - 1) s.disk b.settings.root A)
    (hacq : Lock.Acquired b.settings.root s (.ok a) s₁) (hlocked : Locked b A s s₁)
    (hallocated : b.directory.Allocated A key s₁ s₂) (hopened : Opened (b.directory.workspace key) A s₂ s₃)
    (hp : Prepared b A (b.directory.workspace key) s s₃) {B : Bindings}
    (hload : b.pointers.load s.disk = .ok B)
    (henter : (b.supervision (b.directory.workspace key)).enter.run s₃ = (.ok (), s₄)) :
    Workable (b.directory.workspace key) A s₄ := by
  obtain ⟨r, s₄', henter', hpoints, -, -, -, -⟩ := enter_run hp.root.symm hp.stands (hp.load.trans hload)
  rw [henter] at henter'
  cases henter'
  have hpass := passes_of_repoints hpoints hp.stands hp.closed
  refine ⟨hpass.stands hp.stands, hpass.closed, ?_, fun n hdir => ?_⟩
  · have hlock : Disk.KeepsWays A s.disk s₁.disk := by
      rcases hacq.disk with hdisk | ⟨_, -, hwrote⟩
      · exact hdisk ▸ .refl A _
      · exact hwrote.grows.keepsWays A
    have hallocate : Disk.KeepsWays A s₁.disk s₂.disk := by
      refine ⟨hallocated.home, fun c e hc he _ => (hallocated.kept c ?_ ?_).trans he⟩
      · exact fun heq => hc (heq ▸ Disk.below_child A key)
      · exact fun heq => hc (heq ▸ below_grandchild A key recordName)
    have hopen : Disk.KeepsWays A s₂.disk s₃.disk := by
      refine ⟨hopened.home, fun c e hc he _ => (hopened.kept c ?_).trans he⟩
      exact fun heq => hc (heq ▸ below_grandchild A key logName)
    exact hpass.rooted _ (((hspare.of_keepsWays hlock).of_keepsWays hallocate).of_keepsWays hopen)
  · -- In the new directory there is only the record.
    rw [hpoints.sameDirs, hopened.sameDirs] at hdir
    change s₂.disk.find? (A ++ [key] ++ [n]) = some .dir at hdir
    by_cases hn : n = recordName
    · rw [hn, hallocated.record] at hdir
      cases hdir
    · rw [hallocated.kept _ (by simp) (by simp [hn]),
        hlocked.closed key n (by simp [hallocated.free])] at hdir
      cases hdir

/-- Where nothing is compiled yet and no link is in the way, an attempt ends as its judgement does. -/
theorem Course.decided (hc : Course b A w subject s r s') (hpass : Passes w A s s')
    (hkey : Key.IsKeyName w.key) (hclear : ∀ n ∈ aliases, s.disk.Clear A n)
    (hnone : b.pointers.bound s.disk compiled = none) :
    ∃ s₁, (b.supervision w).enter.run s = (.ok (), s₁) ∧
      ((∃ f s₂ g, (b.judged subject w).run s₁ = (.error f, s₂) ∧ r = .error g ∧
          b.pointers.bound s'.disk compiled = none) ∨
        ∃ j s₂ built, (b.judged subject w).run s₁ = (.ok j, s₂) ∧ r = .ok built ∧
          b.pointers.bound s'.disk compiled = some (.str built.key)) := by
  have hunblocked : ∀ n ∈ aliases, ¬ b.pointers.Blocked s.disk A (n, .str w.key) := fun n hn hb =>
    ((blocked_key hkey n).1 hb).2 (hclear n hn)
  have hentered : ∀ {t : Site},
      b.pointers.bound t.disk = Supervision.entered (b.pointers.bound s.disk) w.key →
      b.pointers.bound t.disk compiled = none := fun hbound => by
    rw [hbound, entered_compiled _ (by simp), hnone]
  have hfirst : ∀ {t : Site},
      b.pointers.bound t.disk = Supervision.entered (b.pointers.bound s.disk) w.key →
      ¬ b.pointers.Supersedes t.disk w.key := fun hbound hsup =>
    hsup.1 (by simp [previous, hentered hbound])
  cases hc with
  | unentered blocked =>
    rcases blocked with hb | hb
    · exact absurd hb (hunblocked _ (by simp [aliases]))
    · exact absurd hb (hunblocked _ (by simp [aliases]))
  | rejected s₁ s₂ f _ enter judged error bound failed =>
    obtain ⟨g, rfl⟩ := error
    refine ⟨s₁, enter, .inl ⟨f, s₂, g, judged, rfl, ?_⟩⟩
    rw [failed_compiled failed _ (by simp), hentered bound]
  | unpromoted s₁ s₂ s₃ j f _ _ _ _ bound promoted failed =>
    obtain ⟨x, hx⟩ := promoted.ok.2 ⟨fun hsup => absurd hsup (hfirst bound), fun hb =>
      hunblocked compiled (by simp [aliases])
        ((blocked_of_passes hpass failed.passes promoted.sameDirs _ (by simp [aliases])).1 hb)⟩
    cases hx
  | completed s₁ s₂ s₃ j built _ enter judged ok key bound₂ promoted _ bound =>
    refine ⟨s₁, enter, .inr ⟨j, s₂, built, judged, ok, ?_⟩⟩
    rw [bound, rebound_of_ne _ (by decide), promoted.first (hfirst bound₂), rebound_str, key]

/-- The first build is given the key of its time. -/
theorem Orderly.nextKey_first {root : Path} (h : Orderly root A s [])
    (hchild : ∀ n, n ≠ ".lock" → s.disk.find? (A ++ [n]) = none) (links : Bool) {B : Bindings}
    (hload : Pointers.load ⟨root, links⟩ s.disk = .ok B) :
    BuildDir.latestKey ((Assoc.find? B latest).getD .null) = .ok none ∧
      (BuildDir.mk root links).nextKey s none = some s.clock.key := by
  have hname := Key.isKeyName_key s.clock
  have hbound : (Assoc.find? B latest).map Json.sortKeys = none :=
    (bound_of_load hload latest).symm.trans h.bound.latest
  refine ⟨by rw [Option.map_eq_none_iff.1 hbound]; rfl, Key.first?_none ?_⟩
  rw [h.rooted.lookup?_child hname.isName.1 (by simp), hchild _ (hname.ne (by decide))]
  rfl

/-- In a fresh build root the standard build of a document returns exactly if the document is acceptable.
What it returns is then the compiled key, and otherwise nothing is. -/
theorem run_returns_iff (h : Fresh (standard host project).settings.root A s) (hproper : Proper document) :
    ∃ r s', ((standard host project).run (.obj document)).run s = (r, s') ∧
      ((∃ built, r = .ok built) ↔ Acceptable document) ∧
      (∀ built, r = .ok built →
        (standard host project).pointers.bound s'.disk compiled = some (.str built.key)) ∧
      ∀ f, r = .error f → (standard host project).pointers.bound s'.disk compiled = none := by
  obtain ⟨b, hb⟩ : ∃ b, b = standard host project := ⟨_, rfl⟩
  have hdiscreet : b.Discreet A := hb ▸ discreet_standard host project A
  have hcheck : b.settings.check = .ok () := hb ▸ rfl
  obtain ⟨⟨⟨d, hmade, hd, hnone⟩, hjournal, hfree⟩, hspare⟩ := h
  rw [← hb] at hmade hd hspare ⊢
  -- The site with the build root in place.
  rw [Call.run_made hmade hd]
  obtain ⟨s₀, hs₀⟩ : ∃ s₀ : Site, s₀ = { s with disk := d } := ⟨_, rfl⟩
  have h₀ : Orderly b.settings.root A s₀ [] := hs₀ ▸ Call.orderly_vacant hd hnone hjournal
  rw [← hs₀]
  obtain ⟨s₁, hlock, hacq⟩ := Lock.acquire_free h₀.rooted h₀.lock (by rw [hs₀]; exact hfree) b.wait
  obtain ⟨r₁, s₁', hlock', -, hlocked⟩ := acquire_standing h₀.standing
  rw [hlock] at hlock'
  cases hlock'
  have h₁ := h₀.of_locked rfl hacq hlocked
  have hchild : ∀ n, n ≠ ".lock" → s₁.disk.find? (A ++ [n]) = none := by
    intro n hn
    have hnone := hnone _ (Disk.below_child A n)
    rcases hacq.disk with hdisk | ⟨a, hlocate, hwrote⟩
    · rw [hdisk, hs₀, hnone]
    · rw [h₀.sound.locate_lock] at hlocate
      cases hlocate
      rw [hwrote.kept _ (by simpa using hn), hs₀, hnone]
  obtain ⟨B, hload⟩ := h₁.sound.load b.settings.links
  obtain ⟨hlatest, hnext⟩ := h₁.nextKey_first hchild b.settings.links hload
  rcases BuildDir.allocate_run (b := b.directory) hlocked.ready h₁.closed h₁.journal hload with
    ⟨f, -, hnokey⟩ | ⟨key, l, s₂, hallocate, hallocated, -, -⟩
  · have := hnokey none hlatest
    rw [show b.directory.nextKey s₁ none = _ from hnext] at this
    cases this
  rcases allocated_run hdiscreet h₀.standing hlock hlocked h₀.apart hallocate hallocated
    (.obj document) with ⟨f, hunknown, -⟩ | ⟨r, s₃, s₄, -, hopened, hp, hpasses, -, hcourse, hrun⟩
  · exact absurd hunknown (threshold_of_check hcheck f)
  obtain ⟨B₀, hload₀⟩ := h₀.sound.load b.settings.links
  have hclear : ∀ n ∈ aliases, s₃.disk.Clear A n := fun n hn => (hp.clear hn).2 (h₀.clear n hn)
  have hcompiled : b.pointers.bound s₃.disk compiled = none := by
    rw [hp.bound]
    exact h₀.bound.compiled
  obtain ⟨t, henter, hdecided⟩ := hcourse.decided hpasses hp.name hclear hcompiled
  have hwork := workable_of_enter (hs₀ ▸ hspare d hmade) hacq hlocked hallocated hopened hp hload₀ henter
  refine ⟨r, _, hrun, ?_⟩
  rcases hdecided with ⟨f, t', g, hjudged, rfl, hbound⟩ | ⟨j, t', built, hjudged, rfl, hbound⟩
  · refine ⟨⟨by simp, fun hacceptable => ?_⟩, by simp, fun _ _ => hbound⟩
    subst hb
    obtain ⟨j, t'', hjudged'⟩ := judged_of_acceptable hwork hproper hacceptable
    rw [hjudged] at hjudged'
    cases hjudged'
  · refine ⟨⟨fun _ => ?_, fun _ => ⟨built, rfl⟩⟩, ?_, by simp⟩
    · subst hb
      exact acceptable_of_judged hwork hproper hjudged
    · rintro built' ⟨⟩
      exact hbound

theorem run_returns_iff_pair :
    let document (declared : Fields) : Fields :=
      [("extraction", .obj [("extractors", .obj [("a", .obj [("output_relation", .str "r")])])]),
        ("inference", .obj [("factors", .obj [("b", .obj [("dependencies", .arr [.str "a"]),
          ("input_relations", .arr [.str "r", .str "s"])])])]),
        ("schema", .obj [("relations", .obj declared)])]
    let b := standard Shell.host ⟨"/", ["p"]⟩
    Fresh b.settings.root ["/", "p", "run"] Call.bare ∧ (∀ declared, Proper (document declared)) ∧
      (∃ built s', (b.run (.obj (document [("s", .obj [])]))).run Call.bare = (.ok built, s') ∧
        b.pointers.bound s'.disk compiled = some (.str built.key)) ∧
      ∃ f s', (b.run (.obj (document []))).run Call.bare = (.error f, s') ∧
        b.pointers.bound s'.disk compiled = none := by
  intro document b
  have hfresh : Fresh b.settings.root ["/", "p", "run"] Call.bare := by
    rw [show b.settings.root = ⟨"/", ["p", "run"]⟩ by decide +kernel]
    refine ⟨Call.vacant_bare, fun d hd => ?_⟩
    rw [show Call.bare.disk.makeDirs ⟨"/", ["p", "run"]⟩ =
      .ok (Call.bare.disk.set ["/", "p", "run"] .dir) from rfl] at hd
    cases hd
    exact .of_dirs _ (by unfold Path.Clean; decide +kernel) rfl (by decide +kernel) (by decide +kernel)
  have hproper : ∀ declared, Proper (document declared) := fun declared => by
    refine ⟨by simp [document, IsSection, Document.IsOpen, Assoc.find?_cons], .inr ⟨declared, rfl⟩, ⟨[], rfl⟩, ?_⟩
    simp [document, entriesIn, part?, Assoc.find?_cons, fieldsOf, Assoc.keys]
  have hds : ∀ declared, definitions (document declared) =
      [⟨"process/a", [], [], some "data/r"⟩, ⟨"factor/b", ["process/a"], ["data/r", "data/s"], none⟩] := by
    intro declared
    rfl
  -- Only the factor waits, for the extractor.
  have hwaits : ∀ {n m}, Definition.Upstream [⟨"process/a", [], [], some "data/r"⟩,
      ⟨"factor/b", ["process/a"], ["data/r", "data/s"], none⟩] n m → n = "factor/b" ∧ m = "process/a" := by
    rintro n m ⟨d, hd, rfl, hm⟩
    simp only [List.mem_cons, List.not_mem_nil, or_false] at hd
    rcases hd with rfl | rfl
    · simp at hm
    · have hm : m = "process/a" ∨ "process/a" = m ∧ ¬ m = "factor/b" := by simpa using hm
      exact ⟨rfl, hm.elim id fun h => h.1.symm⟩
  refine ⟨hfresh, hproper, ?_, ?_⟩
  · obtain ⟨r, s', hrun, hiff, hok, -⟩ := run_returns_iff hfresh (hproper [("s", .obj [])])
    obtain ⟨built, rfl⟩ := hiff.2 <| by
      refine ⟨⟨rfl, by simp [document, entriesIn, part?, Assoc.find?_cons, fieldsOf], rfl, by rw [hds]; decide⟩,
        by rw [hds]; decide, by rw [hds]; decide, ?_⟩
      rw [hds]
      rintro ⟨n, hcycle⟩
      obtain ⟨m, hfirst, -⟩ := Relation.TransGen.head'_iff.1 hcycle
      obtain ⟨m', -, hlast⟩ := Relation.TransGen.tail'_iff.1 hcycle
      obtain ⟨rfl, -⟩ := hwaits hfirst
      obtain ⟨-, hname⟩ := hwaits hlast
      exact absurd hname (by decide)
    exact ⟨built, s', hrun, hok built rfl⟩
  · obtain ⟨r, s', hrun, hiff, -, herror⟩ := run_returns_iff hfresh (hproper [])
    cases r with
    | error f => exact ⟨f, s', hrun, herror f rfl⟩
    | ok built =>
      have hproduced := (hiff.1 ⟨built, rfl⟩).produced
      rw [hds] at hproduced
      exact absurd hproduced (by decide)

end Builder

end FlowPlan

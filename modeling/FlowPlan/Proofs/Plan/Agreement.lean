import FlowPlan.Proofs.Plan.Generation

/-!
# All views of a plan describe one graph

The producers of every relation, its producers and consumers together, what every process waits for,
the graph of processes and relations, and what is written down for the run: these are made one by one,
and tell of the same graph.

## Main definitions

* `Plan.Agree` — what the views tell of one another.

## Main statements

* `Plan.views_agree` — the views of a qualified document agree.
-/

namespace FlowPlan

open Document Generator

/-- The tables of a plan and the graph of its processes and relations agree: on who writes and who
reads each relation, on what each process waits for, and on what there is. -/
structure Plan.Agree (p : Plan) (document : Json) (producers : Table (List String))
    (usages : Table Usage) (awaited : List (String × List Json)) (fragment : Json)
    (nodes : List (String × Kind)) : Prop where
  same_producers : ∀ r, (usageOf usages r).producers = (producers.find? r).getD []
  written : ∀ r v, v ∈ (usageOf usages r).producers.map Json.str ↔ HasEdge fragment v r "output"
  read : ∀ r v, v ∈ (usageOf usages r).consumers.map Json.str ↔ HasEdge fragment r v "input"
  processes : awaited.map (·.1) = p.sorted.map (·.name)
  upstream : ∀ e ∈ awaited, ∀ v, v ∈ e.2 ↔ HasEdge fragment v (.str e.1) "dependency" ∨
    v ≠ .str e.1 ∧ ∃ r, HasEdge fragment v r "output" ∧ HasEdge fragment r (.str e.1) "input"
  own : ∀ e ∈ awaited, Json.str e.1 ∈ e.2 →
    ∃ n ∈ p.nodes, n.name = e.1 ∧ Json.str e.1 ∈ n.dependencies
  listed : fragment.field "nodes" = .ok (.arr (nodes.map nodeJson))
  increasing : (nodes.map (·.1)).Pairwise (Text.lt · · = true)
  kinds : ∀ x ∈ nodes, Kind.of? x.1 = some x.2
  ends : ∀ s t, HasEdge fragment s t "input" ∨ HasEdge fragment s t "output" →
    s ∈ nodes.map (Json.str ·.1) ∧ t ∈ nodes.map (Json.str ·.1)
  dependency_ends : Check.unresolvedMessages document = .ok [] →
    ∀ s t, HasEdge fragment s t "dependency" →
      s ∈ nodes.map (Json.str ·.1) ∧ t ∈ nodes.map (Json.str ·.1)

variable {document : Fields} {p : Plan} {ds : List Definition}

namespace Plan

/-! ## One graph -/

section Graph

variable {producers : Table (List String)} {usages : Table Usage} {nodes : Json}

/-- A relation that is no text has no processes. -/
theorem usageOf_of_no_text (htexts : usages.Texts) {r : Json} (hr : ∀ n, r ≠ .str n) :
    usageOf usages r = ⟨[], []⟩ := by
  rw [usageOf, htexts.find?_eq_none hr]
  rfl

theorem same_producers (hproducers : producers.Texts)
    (hwriters : ∀ r, (producers.find? (.str r)).getD [] = p.writers r) (husages : usages.Texts)
    (husage : ∀ r, usageOf usages (.str r) = ⟨p.writers r, p.readers r⟩) (r : Json) :
    (usageOf usages r).producers = (producers.find? r).getD [] := by
  by_cases hr : ∃ n, r = .str n
  · obtain ⟨n, rfl⟩ := hr
    rw [husage, hwriters]
  · have hr := not_exists.1 hr
    rw [usageOf_of_no_text husages hr, hproducers.find?_eq_none hr]
    rfl

theorem mem_producers_iff (h : p.Consists ds) (husages : usages.Texts)
    (husage : ∀ r, usageOf usages (.str r) = ⟨p.writers r, p.readers r⟩) (r v : Json) :
    v ∈ (usageOf usages r).producers.map Json.str ↔
      HasEdge (.obj [("nodes", nodes), ("edges", .arr (p.sorted.flatMap edgesOf))]) v r "output" := by
  rw [hasEdge_output h]
  by_cases hr : ∃ n, r = .str n
  · obtain ⟨n, rfl⟩ := hr
    rw [husage, List.mem_map]
    constructor
    · rintro ⟨b, hb, rfl⟩
      obtain ⟨d, hd, hout, rfl⟩ := (mem_writers h).1 hb
      exact ⟨d, hd, rfl, n, hout, rfl⟩
    · rintro ⟨d, hd, rfl, r, hout, heq⟩
      exact ⟨d.name, (mem_writers h).2 ⟨d, hd, Json.str_injective heq ▸ hout, rfl⟩, rfl⟩
  · rw [usageOf_of_no_text husages (not_exists.1 hr)]
    constructor
    · intro hv
      cases hv
    · rintro ⟨d, hd, -, n, -, heq⟩
      exact absurd ⟨n, heq⟩ hr

theorem mem_consumers_iff (h : p.Consists ds) (husages : usages.Texts)
    (husage : ∀ r, usageOf usages (.str r) = ⟨p.writers r, p.readers r⟩) (r v : Json) :
    v ∈ (usageOf usages r).consumers.map Json.str ↔
      HasEdge (.obj [("nodes", nodes), ("edges", .arr (p.sorted.flatMap edgesOf))]) r v "input" := by
  rw [hasEdge_input h]
  by_cases hr : ∃ n, r = .str n
  · obtain ⟨n, rfl⟩ := hr
    rw [husage, List.mem_map]
    constructor
    · rintro ⟨b, hb, rfl⟩
      obtain ⟨d, hd, hin, rfl⟩ := (mem_readers h).1 hb
      exact ⟨d, hd, rfl, n, hin, rfl⟩
    · rintro ⟨d, hd, rfl, r, hin, heq⟩
      exact ⟨d.name, (mem_readers h).2 ⟨d, hd, Json.str_injective heq ▸ hin, rfl⟩, rfl⟩
  · rw [usageOf_of_no_text husages (not_exists.1 hr)]
    constructor
    · intro hv
      cases hv
    · rintro ⟨d, hd, -, n, -, heq⟩
      exact absurd ⟨n, heq⟩ hr

/-- A process waits along a dependency, or along a relation from another process. -/
theorem mem_upstream_iff (h : p.Consists ds) {name : String} {ms : List String}
    (hms : ∀ b, b ∈ ms ↔ Definition.Upstream ds name b) (v : Json) :
    v ∈ ms.map Json.str ↔
      HasEdge (.obj [("nodes", nodes), ("edges", .arr (p.sorted.flatMap edgesOf))]) v (.str name)
          "dependency" ∨
        v ≠ .str name ∧ ∃ r,
          HasEdge (.obj [("nodes", nodes), ("edges", .arr (p.sorted.flatMap edgesOf))]) v r "output" ∧
          HasEdge (.obj [("nodes", nodes), ("edges", .arr (p.sorted.flatMap edgesOf))]) r (.str name)
            "input" := by
  rw [List.mem_map, hasEdge_dependency h]
  simp only [hasEdge_output h, hasEdge_input h, hms]
  constructor
  · rintro ⟨b, ⟨d, hd, rfl, hdep | ⟨r, hr, d', hd', hout, rfl, hne⟩⟩, rfl⟩
    · exact .inl ⟨d, hd, rfl, b, hdep, rfl⟩
    · exact .inr ⟨mt Json.str_injective hne, .str r, ⟨d', hd', rfl, r, hout, rfl⟩, d, hd, rfl, r, hr, rfl⟩
  · rintro (⟨d, hd, hname, b, hdep, rfl⟩ |
      ⟨hne, r, ⟨d', hd', rfl, w, hout, rfl⟩, d, hd, hname, w', hin, heq⟩)
    · exact ⟨b, ⟨d, hd, (Json.str_injective hname).symm, .inl hdep⟩, rfl⟩
    · obtain rfl := Json.str_injective heq
      exact ⟨d'.name, ⟨d, hd, (Json.str_injective hname).symm, .inr ⟨w, hin, d', hd', hout, rfl,
        fun hsame => hne (congrArg Json.str hsame)⟩⟩, rfl⟩

end Graph

/-- Reading what it writes itself does not make a process wait for itself. -/
theorem dependency_of_own (h : p.Consists ds) {name : String}
    (hown : Definition.Upstream ds name name) :
    ∃ n ∈ p.nodes, n.name = name ∧ Json.str name ∈ n.dependencies := by
  obtain ⟨d, hd, hname, hdep | ⟨-, -, -, -, -, -, hne⟩⟩ := hown
  · obtain ⟨n, hn, hnode⟩ := h.node d hd
    exact ⟨n, hn, hnode.name.trans hname, hnode.dependencies ▸ Json.mem_map_str.2 hdep⟩
  · exact absurd rfl hne

theorem agree_of_consists (hplan : ofDocument (.obj document) = .ok p) (h : p.Consists ds)
    (hkinds : ∀ d ∈ ds, (Kind.of? d.name).isSome) (hkinded : ∀ d ∈ ds, d.Kinded) :
    ∃ producers usages awaited fragment nodes, p.producers = .ok producers ∧
      p.relations = .ok usages ∧ p.allPrerequisites = .ok awaited ∧
      dataflowFragment (.obj document) = .ok fragment ∧
      p.Agree (.obj document) producers usages awaited fragment nodes := by
  obtain ⟨producers, hproducers, htexts, hwriters, -⟩ := producers_run h
  obtain ⟨usages, husages, htexts', husage⟩ := relations_run h
  obtain ⟨waits, hwaits, hnames, hupstream⟩ := allPrerequisites_run h
  obtain ⟨nodes, hfragment, hincreasing, hnodes, hmem⟩ := dataflowFragment_run hplan h hkinds hkinded
  have hlisted : ∀ {m : String}, (∃ d ∈ ds, m = d.name ∨ m ∈ d.inputs ∨ d.output = some m) →
      Json.str m ∈ nodes.map (Json.str ·.1) := by
    intro m hm
    obtain ⟨x, hx, rfl⟩ := List.mem_map.1 ((hmem m).2 hm)
    exact List.mem_map_of_mem hx
  refine ⟨producers, usages, waits.values, _, nodes, hproducers, husages, hwaits, hfragment,
    { same_producers := same_producers htexts hwriters htexts' husage
      written := mem_producers_iff h htexts' husage
      read := mem_consumers_iff h htexts' husage
      processes := waits.keys_values.trans hnames
      upstream := fun e he => ?_
      own := fun e he hown => ?_
      listed := Json.field_obj (by simp [Assoc.find?_cons])
      increasing := hincreasing
      kinds := hnodes
      ends := fun s t hedge => ?_
      dependency_ends := fun hresolved s t hedge => ?_ }⟩
  · obtain ⟨x, hx, rfl⟩ := List.mem_map.1 he
    exact mem_upstream_iff h (hupstream x hx).2
  · obtain ⟨x, hx, rfl⟩ := List.mem_map.1 he
    rw [Json.mem_map_str, (hupstream x hx).2] at hown
    exact dependency_of_own h hown
  · rcases hedge with hedge | hedge
    · obtain ⟨d, hd, rfl, r, hr, rfl⟩ := (hasEdge_input h).1 hedge
      exact ⟨hlisted ⟨d, hd, .inr (.inl hr)⟩, hlisted ⟨d, hd, .inl rfl⟩⟩
    · obtain ⟨d, hd, rfl, r, hr, rfl⟩ := (hasEdge_output h).1 hedge
      exact ⟨hlisted ⟨d, hd, .inl rfl⟩, hlisted ⟨d, hd, .inr (.inr hr)⟩⟩
  · obtain ⟨d, hd, rfl, b, hb, rfl⟩ := (hasEdge_dependency h).1 hedge
    obtain ⟨d', hd', rfl⟩ := (Check.unresolvedMessages_iff hplan h).1 hresolved d hd b hb
    exact ⟨hlisted ⟨d', hd', .inl rfl⟩, hlisted ⟨d, hd, .inl rfl⟩⟩

/-- All views of the plan of a qualified document exist and agree, and where there is an order of
execution the run specifications say what is written next to the processes. -/
theorem views_agree (hcheck : check (.obj document) .qualified = .ok ())
    (honce : (Assoc.keys (entriesIn document "execution" "processes")).Nodup) :
    ∃ p producers usages awaited fragment nodes, ofDocument (.obj document) = .ok p ∧
      p.producers = .ok producers ∧ p.relations = .ok usages ∧ p.allPrerequisites = .ok awaited ∧
      dataflowFragment (.obj document) = .ok fragment ∧
      p.Agree (.obj document) producers usages awaited fragment nodes ∧
      ∀ order, p.topologicalOrder false = .ok order →
        ∃ document' run specs dependencies, Stage.deriveDependencies (.obj document) = .ok document' ∧
          (document'.field "execution" >>= (·.field "dependencies")) = .ok (.obj dependencies) ∧
          processesFragment (.obj document) = .ok run ∧ processesFragment document' = .ok run ∧
          run.field "processes" = .ok (.obj specs) ∧
          (specs.mapM fun e => return (e.1, ← e.2.field "upstream")) = .ok dependencies := by
  obtain ⟨p, hplan, h, hkinds, hkinded⟩ := plan_of_qualified hcheck honce
  obtain ⟨producers, usages, awaited, fragment, nodes, hproducers, husages, hawaited, hfragment, hagree⟩ :=
    agree_of_consists hplan h hkinds hkinded
  refine ⟨p, producers, usages, awaited, fragment, nodes, hplan, hproducers, husages, hawaited, hfragment,
    hagree, fun order horder => ?_⟩
  have hopen : IsOpen document "execution" := by
    obtain ⟨hrequired, -⟩ | ⟨pr, hpr, -⟩ := (check_iff.1 hcheck).2
    · simp at hrequired
    · exact isOpen_of_part hpr
  obtain ⟨document', hderive, hputs⟩ := Stage.deriveDependencies_run hopen hplan hawaited
  have hplan' : ofDocument (.obj document') = .ok p := by
    rw [ofDocument_congr hputs.own hopen (hputs.changes.part _ _ (by decide)), hplan]
  have hdependencies : ((Json.obj document').field "execution" >>= (·.field "dependencies")) =
      .ok (.obj (awaited.map fun e => (e.1, .arr e.2))) := by
    obtain ⟨fs, hfs⟩ := hputs.own
    rw [Json.field_obj hfs, Attempt.ok_bind]
    exact Json.field_obj (part?_of_open hfs _ ▸ hputs.own_part)
  obtain ⟨specs, hrun, hupstream⟩ :=
    processesFragment_run hplan h hkinds hawaited hagree.processes horder
  refine ⟨.obj document', _, specs, _, hderive, hdependencies, hrun, ?_, ?_, hupstream⟩
  · rw [← hrun]
    unfold processesFragment
    rw [hplan, hplan']
  · exact Json.field_obj (by simp [Assoc.find?_cons])

/-- A process that depends on itself reads what it writes and what another process writes. -/
theorem views_agree_pair :
    let document : Fields := [("extraction", .obj [("extractors", .obj [])]),
      ("inference", .obj [("factors", .obj [])]),
      ("execution", .obj [("processes", .obj
        [("process/c", .obj [("dependencies_", .arr [.str "process/c"]),
            ("input_", .arr [.str "data/r", .str "data/s"]), ("output_", .arr [.str "data/s"])]),
          ("process/a", .obj [("output_", .arr [.str "data/r"])])])])]
    check (.obj document) .qualified = .ok () ∧
      (Assoc.keys (entriesIn document "execution" "processes")).Nodup ∧
      ∃ p producers usages awaited fragment nodes, ofDocument (.obj document) = .ok p ∧
        p.producers = .ok producers ∧ p.relations = .ok usages ∧ p.allPrerequisites = .ok awaited ∧
        dataflowFragment (.obj document) = .ok fragment ∧
        p.Agree (.obj document) producers usages awaited fragment nodes := by
  intro document
  have hcheck : check (.obj document) .qualified = .ok () := by rfl
  have honce : (Assoc.keys (entriesIn document "execution" "processes")).Nodup := by decide
  obtain ⟨p, producers, usages, awaited, fragment, nodes, hplan, hproducers, husages, hawaited, hfragment,
    hagree, -⟩ := views_agree hcheck honce
  exact ⟨hcheck, honce, p, producers, usages, awaited, fragment, nodes, hplan, hproducers, husages,
    hawaited, hfragment, hagree⟩

end Plan

end FlowPlan

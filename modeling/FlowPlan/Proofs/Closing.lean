import FlowPlan.Proofs.Verdicts

/-!
# How a gate ends

A gate tries every check of its phase once, in the order of the names. If all of them pass it returns the
verdicts, and otherwise validation has failed, with the exit status of the first check that failed. Only a
command that gets no verdict keeps the gate from its end.

## Main definitions

* `Gate.TriesAll` — the checks of a phase have been tried.
* `Gate.Finishes`, `Gate.Chokes` — a gate that comes to its end, and one that does not.

## Main statements

* `Gate.of_run_fails` — what a gate that closes has tried.
* `Gate.finishes_iff` — a gate comes to its end unless a command chokes.
* `Gate.status_of_closed` — with which exit status validation fails.
-/

namespace FlowPlan

open FlowPlan.Action

/-- A standard check does not end the program. -/
theorem Check.not_raises_standard : ∀ c ∈ standard, ∀ f, ¬ c.1.Raises f := by
  rintro c hc f ⟨examine, subject, hjudge, hf, hends⟩
  have hmessages : c.1.messages subject = .error f := by
    unfold messages
    rw [hjudge]
    exact hf
  obtain ⟨m, rfl⟩ := standard_misuse c hc subject f hmessages
  cases hends

namespace Gate

variable {host : Host} {checks : List Check} {phase subject : Json} {artifact : Option Path} {vs : List Verdict}
  {f : Fault} {s s' : Site} {ts : List Trial}

/-! ## All checks of a phase -/

theorem checksOf_perm (phase : Json) (checks : List Check) :
    (checksOf phase checks).Perm (checks.filter (·.phase = phase)) :=
  (Text.sortOn_perm Check.name checks).filter _

theorem pairwise_checksOf (phase : Json) (checks : List Check) :
    (checksOf phase checks).Pairwise fun a b => Text.le a.name b.name = true :=
  (Text.pairwise_sortOn Check.name checks).filter _

theorem mem_checksOf {c : Check} : c ∈ checksOf phase checks ↔ c ∈ checks ∧ c.phase = phase := by
  simp [checksOf, Text.mem_sortOn]

/-- Each check of the phase has been tried once, in the order of the names. -/
structure TriesAll (host : Host) (checks : List Check) (phase subject : Json) (artifact : Option Path) (s : Site)
    (ts : List Trial) (s' : Site) : Prop where
  once : (ts.map (·.check)).Perm (checks.filter (·.phase = phase))
  ordered : ts.Pairwise fun t u => Text.le t.check.name u.check.name = true
  tried : ∃ left, Trials host phase artifact subject s ts left s'

theorem triesAll_of_runChecks
    (h : (runChecks host phase artifact subject (checksOf phase checks)).run s = (.ok vs, s')) :
    ∃ ts, TriesAll host checks phase subject artifact s ts s' ∧ ts.map (·.verdict) = vs := by
  obtain ⟨ts, left, hts, rfl, htrials⟩ := runChecks_ok.1 h
  exact ⟨ts, ⟨hts ▸ checksOf_perm phase checks, List.pairwise_map.1 (hts ▸ pairwise_checksOf phase checks),
    left, htrials⟩, rfl⟩

/-- A verdict bears the name of its check. -/
theorem TriesAll.check (h : TriesAll host checks phase subject artifact s ts s') :
    ∀ t ∈ ts, t.verdict.check = t.check.name := by
  obtain ⟨left, htrials⟩ := h.tried
  intro t ht
  obtain ⟨after, s₁, hverdict⟩ := htrials.evaluate t ht
  exact Check.evaluate_check hverdict

/-! ## The end of a gate -/

/-- The messages of the checks that have failed, under their names. -/
def failuresOf (ts : List Trial) : Assoc String (List Json) :=
  Assoc.ofEntries ((ts.filter (·.Fails)).map fun t => (t.check.name, t.verdict.messages))

theorem filter_verdict (ts : List Trial) :
    (ts.map (·.verdict)).filter (!·.passed) = (ts.filter (·.Fails)).map (·.verdict) := by
  rw [List.filter_map]
  congr 1
  refine List.filter_congr fun t _ => ?_
  cases hpassed : t.verdict.passed <;> simp [Trial.Fails, hpassed]

/-- What a gate closes with, if a check has failed. -/
theorem fault?_of_trials (h : TriesAll host checks phase subject artifact s ts s') :
    fault? phase (ts.map (·.verdict)) =
      ((ts.filter (·.Fails)).head?.map fun t =>
        .validationFailed phase.display (failuresOf ts) t.verdict.exitStatus) := by
  unfold fault? failuresOf
  rw [filter_verdict]
  have hcheck : ∀ t ∈ ts.filter (·.Fails), t.verdict.check = t.check.name := fun t ht =>
    h.check t (List.mem_filter.1 ht).1
  cases hfailed : ts.filter (·.Fails) with
  | nil => rfl
  | cons t rest =>
    have hentries : ((t :: rest).map (·.verdict)).map (fun v => (v.check, v.messages)) =
        (t :: rest).map fun t => (t.check.name, t.verdict.messages) := by
      rw [List.map_map]
      refine List.map_congr_left fun u hu => ?_
      rw [Function.comp_apply, hcheck u (hfailed ▸ hu)]
    rw [List.head?_cons, Option.map_some, ← hentries]
    rfl

/-- The fault of a check that gets no verdict is not the one of a gate that closes. -/
theorem ne_validationFailed {c : Check} (h : ((c.evaluate host subject artifact).run s).1 = .error f) (text : String)
    (failures : Assoc String (List Json)) (status : Option Int) : f ≠ .validationFailed text failures status := by
  rintro rfl
  rcases Check.evaluate_error.1 h with ⟨_, _, -, -, hno⟩ | ⟨_, -, -, hends⟩
  · rcases hno with ⟨-, hno⟩ | ⟨_, _, _, -, -, hno⟩ <;> cases hno
  · cases hends

/-- A gate whose checks all get their verdicts returns them or closes, as the first check that fails has it. -/
theorem run_of_runChecks (h : (runChecks host phase artifact subject (checksOf phase checks)).run s = (.ok vs, s')) :
    ∃ ts, TriesAll host checks phase subject artifact s ts s' ∧ (run host checks phase subject artifact).run s =
      (match ts.filter (·.Fails) with
        | t :: _ => .error (.validationFailed phase.display (failuresOf ts) t.verdict.exitStatus)
        | [] => .ok (ts.map (·.verdict)), s') := by
  obtain ⟨ts, htries, rfl⟩ := triesAll_of_runChecks h
  refine ⟨ts, htries, ?_⟩
  unfold run
  rw [run_bind_ok h, fault?_of_trials htries]
  cases ts.filter (·.Fails) <;> rfl

/-- A gate that closes has tried all its checks, and the first that fails gives the status. -/
theorem of_run_fails {text : String} {failures : Assoc String (List Json)} {status : Option Int}
    (h : (run host checks phase subject artifact).run s = (.error (.validationFailed text failures status), s')) :
    ∃ ts first rest, TriesAll host checks phase subject artifact s ts s' ∧ ts.filter (·.Fails) = first :: rest ∧
      failures = failuresOf ts ∧ status = first.verdict.exitStatus := by
  cases hchecks : (runChecks host phase artifact subject (checksOf phase checks)).run s with
  | mk r s₁ =>
    cases r with
    | error f =>
      unfold run at h
      rw [run_bind_error hchecks] at h
      cases h
      obtain ⟨_, _, _, _, _, _, -, -, -, hlast⟩ := runChecks_error.1 hchecks
      exact absurd rfl (ne_validationFailed (congrArg Prod.fst hlast) _ _ _)
    | ok vs =>
      obtain ⟨ts, htries, hrun⟩ := run_of_runChecks hchecks
      rw [hrun] at h
      cases hfailed : ts.filter (·.Fails) with
      | nil =>
        rw [hfailed] at h
        cases h
      | cons first rest =>
        rw [hfailed] at h
        cases h
        exact ⟨ts, first, rest, htries, hfailed, rfl, rfl⟩

/-! ## Gates that come to their end -/

/-- The gate comes to its end: all checks have been tried. They all pass and the gate returns their verdicts,
or validation has failed. -/
def Finishes (host : Host) (checks : List Check) (phase subject : Json) (artifact : Option Path) (s : Site) : Prop :=
  ∃ ts s', TriesAll host checks phase subject artifact s ts s' ∧
    ((∀ t ∈ ts, ¬ t.Fails) ∧ (run host checks phase subject artifact).run s = (.ok (ts.map (·.verdict)), s') ∨
      (∃ t ∈ ts, t.Fails) ∧ ∃ failures status, (run host checks phase subject artifact).run s =
        (.error (.validationFailed phase.display failures status), s'))

/-- The gate comes to a check that chokes, after the checks that come before it have got their verdicts. -/
def Chokes (host : Host) (checks : List Check) (phase subject : Json) (artifact : Option Path) (s : Site) (f : Fault) :
    Prop :=
  ∃ ts c rest left s', checksOf phase checks = ts.map (·.check) ++ c :: rest ∧
    Trials host phase artifact subject s ts left s' ∧ c.Chokes host artifact s' f

theorem finishes_of_runChecks
    (h : (runChecks host phase artifact subject (checksOf phase checks)).run s = (.ok vs, s')) :
    Finishes host checks phase subject artifact s := by
  obtain ⟨ts, htries, hrun⟩ := run_of_runChecks h
  refine ⟨ts, s', htries, ?_⟩
  cases hfailed : ts.filter (·.Fails) with
  | nil =>
    rw [hfailed] at hrun
    exact .inl ⟨fun t ht hfails => List.filter_eq_nil_iff.1 hfailed t ht (decide_eq_true hfails), hrun⟩
  | cons first rest =>
    rw [hfailed] at hrun
    have hfirst : first ∈ ts.filter (·.Fails) := hfailed ▸ List.mem_cons_self
    exact .inr ⟨⟨first, (List.mem_filter.1 hfirst).1, of_decide_eq_true (List.mem_filter.1 hfirst).2⟩, _, _, hrun⟩

/-- A check that chokes is as far as the gate comes. -/
theorem Chokes.run (h : Chokes host checks phase subject artifact s f) :
    ((run host checks phase subject artifact).run s).1 = .error f := by
  obtain ⟨ts, c, rest, left, s', hchecks, htrials, hchokes⟩ := h
  have hlast : (c.evaluate host left artifact).run s' = (.error f, ((c.evaluate host left artifact).run s').2) :=
    Prod.ext (Check.evaluate_error.2 (.inl hchokes)) rfl
  have hrun := runChecks_error.2 ⟨_, c, rest, ts, left, s', hchecks, rfl, htrials, hlast⟩
  unfold Gate.run
  rw [run_bind_error hrun]

/-- A gate of standard checks, functions that do not end the program, and commands comes to its end, unless a
command chokes; then it ends with the fault of that one. -/
theorem finishes_iff {host : Host} {checks : List Check} {phase : Json}
    (hchecks : ∀ c ∈ checks, c.phase = phase → (∃ x ∈ Check.standard, c = x.1) ∨ ∀ f, ¬ c.Raises f)
    (subject : Json) (artifact : Option Path) (s : Site) :
    (Finishes host checks phase subject artifact s ↔ ∀ f, ¬ Chokes host checks phase subject artifact s f) ∧
      ∀ f, Chokes host checks phase subject artifact s f →
        ((run host checks phase subject artifact).run s).1 = .error f := by
  have hraises : ∀ c ∈ checksOf phase checks, ∀ f, ¬ c.Raises f := by
    intro c hc f
    rcases hchecks c (mem_checksOf.1 hc).1 (mem_checksOf.1 hc).2 with ⟨x, hx, rfl⟩ | hordinary
    · exact Check.not_raises_standard x hx f
    · exact hordinary f
  refine ⟨⟨?_, ?_⟩, fun f => Chokes.run⟩
  · -- A gate that comes to its end does not end with the fault of a check that chokes.
    rintro ⟨ts, s', -, ⟨-, hrun⟩ | ⟨-, failures, status, hrun⟩⟩ f hchokes
    · simpa [hrun] using hchokes.run
    · obtain ⟨_, c, _, left, s₁, -, -, hc⟩ := id hchokes
      have hf : Fault.validationFailed phase.display failures status = f := by simpa [hrun] using hchokes.run
      have hno : ((c.evaluate host left artifact).run s₁).1 = .error f := Check.evaluate_error.2 (.inl hc)
      exact ne_validationFailed hno _ _ _ hf.symm
  · intro hnone
    cases htried : (runChecks host phase artifact subject (checksOf phase checks)).run s with
    | mk r s' =>
      cases r with
      | ok vs => exact finishes_of_runChecks htried
      | error f =>
        obtain ⟨_, c, rest, ts, left, s₁, hsplit, rfl, htrials, hlast⟩ := runChecks_error.1 htried
        rcases Check.evaluate_error.1 (congrArg Prod.fst hlast) with hchokes | ⟨examine, hjudge, hf, hends⟩
        · exact absurd ⟨ts, c, rest, left, s₁, hsplit, htrials, hchokes⟩ (hnone f)
        · exact absurd ⟨examine, left, hjudge, hf, hends⟩ (hraises c (by simp [hsplit]) f)

/-- A command. -/
def calling (name : String) (words : List String) : Check :=
  ⟨name, "CommandCheck", .str planPhase, String.intercalate " " words, .command words⟩

/-- What a command leaves that writes an octet which begins no character. -/
def garbled : Process := ⟨[0xFF], [], .exited 0⟩

theorem finishes_iff_garbled :
    let c := calling "c" ["printf", "\\377"]
    let host := Host.uniform garbled
    (Finishes host [c] (.str planPhase) (.obj []) (some ⟨"/", ["x"]⟩) Workspace.specimenSite ↔
      ∀ f, ¬ Chokes host [c] (.str planPhase) (.obj []) (some ⟨"/", ["x"]⟩) Workspace.specimenSite f) ∧
    ((run host [c] (.str planPhase) (.obj []) (some ⟨"/", ["x"]⟩)).run Workspace.specimenSite).1 =
      .error (.undecodable "'utf-8' codec can't decode byte 0xff in position 0: invalid start byte") := by
  intro c host
  have hchecks : ∀ d ∈ [c], d.phase = .str planPhase → (∃ x ∈ Check.standard, d = x.1) ∨ ∀ f, ¬ d.Raises f := by
    simp [c, calling, Check.Raises]
  have htext : Text.decode [0xFF] = .error ⟨0, [0xFF], false⟩ := by
    simp [Text.decode, Text.decodeFrom, Text.lead?]
  have hgarbled : garbled.Garbled ⟨0, [0xFF], false⟩ := .inl htext
  have hordered : checksOf (.str planPhase) [c] = [c] := by
    simp [checksOf, c, calling, Text.sortOn]
  obtain ⟨s', hlaunch⟩ : ∃ s', (Check.launch host (["printf", "\\377"] ++ [(⟨"/", ["x"]⟩ : Path).text])).run
      Workspace.specimenSite = (.ok (.ok garbled), s') := ⟨_, rfl⟩
  exact ⟨(finishes_iff hchecks _ _ _).1, (finishes_iff hchecks _ _ _).2 _
    ⟨[], c, [], .obj [], _, hordered, .nil, _, _, rfl, rfl, .inr ⟨garbled, s', _, hlaunch, hgarbled, rfl⟩⟩⟩

/-! ## The exit status -/

/-- How a command that was started has ended is what its verdict carries. -/
def Trial.Carries (host : Host) (artifact : Option Path) (t : Trial) : Prop :=
  ∀ words path p s', t.check.judge = .command words → artifact = some path →
    (Check.launch host (words ++ [path.text])).run t.site = (.ok (.ok p), s') →
    (∀ signal, p.ending = .killed signal → t.verdict.exitStatus = some (128 + signal)) ∧
      ∀ status, p.ending = .exited status →
        t.verdict.exitStatus = if status = 0 then none else some (status : Int)

theorem TriesAll.carries (h : TriesAll host checks phase subject artifact s ts s') :
    ∀ t ∈ ts, t.Carries host artifact ∧ t.verdict.Tells := by
  obtain ⟨left, htrials⟩ := h.tried
  intro t ht
  obtain ⟨after, s₁, hverdict⟩ := htrials.evaluate t ht
  constructor
  · intro words path p s' hjudge hpath hlaunch
    have hstatus := Check.evaluate_status hverdict hjudge hpath hlaunch
    constructor
    · intro signal hending
      simpa [hending, Check.statusOf] using hstatus
    · intro status hending
      simpa [hending, Check.statusOf] using hstatus
  · have hyields := Check.evaluate_yields (F := fun _ => True) (fun _ _ => trivial) (c := t.check)
      (fun _ _ => trivial) host t.subject artifact
    exact hyields.run_ok hverdict

/-- The status that validation should fail with: that of the first failing check that carries one. -/
def statusIn (failed : List Trial) : Option Int := failed.findSome? (·.verdict.exitStatus)

/-- Validation fails with the status of the first check that fails, or else with 3. That is the first status
among the failing checks if the first of them carries one, or if none of them does. A status is never zero;
that of a command is its own, or 128 and its signal. -/
theorem status_of_closed {host : Host} {checks : List Check} {phase subject : Json} {artifact : Option Path}
    {s s' : Site} {text : String} {failures : Assoc String (List Json)} {status : Option Int}
    (h : (run host checks phase subject artifact).run s = (.error (.validationFailed text failures status), s')) :
    ∃ ts first rest, TriesAll host checks phase subject artifact s ts s' ∧ ts.filter (·.Fails) = first :: rest ∧
      (Fault.validationFailed text failures status).exitStatus = first.verdict.exitStatus.getD 3 ∧
      ((Fault.validationFailed text failures status).exitStatus = (statusIn (first :: rest)).getD 3 ↔
        first.verdict.exitStatus.isSome ∨ statusIn rest = none ∨ statusIn rest = some 3) ∧
      ∀ t ∈ ts, t.Carries host artifact ∧ t.verdict.exitStatus ≠ some 0 := by
  obtain ⟨ts, first, rest, htries, hfailed, rfl, rfl⟩ := of_run_fails h
  refine ⟨ts, first, rest, htries, hfailed, rfl, ?_, htries.carries⟩
  unfold statusIn
  rw [List.findSome?_cons]
  cases hfirst : first.verdict.exitStatus with
  | some n => simp [Fault.exitStatus]
  | none =>
    cases hrest : rest.findSome? (·.verdict.exitStatus) with
    | none => simp [Fault.exitStatus]
    | some n => simp [Fault.exitStatus, eq_comm]

/-- A plan in which a name is defined twice. -/
def colliding : Json := .obj [("execution", .obj [(Document.collisionsField, .arr [.str "process/a"])])]

/-- What a command leaves that fails without a word. -/
def silent (status : Nat) : Process := ⟨[], [], .exited status⟩

/-- All that is said of such a command is how it has ended. -/
def silenced (name command : String) (status : Nat) : Verdict :=
  ⟨name, [.str s!"{command} exited with status {(status : Int)}"], some status⟩

theorem commandVerdict_silent (name command : String) {status : Nat} (h : status ≠ 0) :
    Check.commandVerdict name command (silent status) = .ok (silenced name command status) := by
  have hempty : Text.decode [] = .ok [] := by simp [Text.decode, Text.decodeFrom]
  have hending : (silent status).ending ≠ .exited 0 := by simpa [silent] using h
  have hcommentary : Check.commentary [] [] = [] := by decide +kernel
  unfold Check.commandVerdict
  dsimp only [silent]
  rw [hempty]
  change (if (silent status).ending = .exited 0 then _ else _) = _
  rw [if_neg hending]
  dsimp only [Check.statusOf, silent]
  rw [hcommentary]
  rfl

theorem silent_evaluate (name : String) {command : String} {words : List String} (subject : Json) (s : Site)
    {status : Nat} (hstatus : status ≠ 0)
    (hnul : ∀ word ∈ (command :: words) ++ [(⟨"/", ["x"]⟩ : Path).text], Path.NulFree word) :
    ∃ s', ((calling name (command :: words)).evaluate (.uniform (silent status)) subject (some ⟨"/", ["x"]⟩)).run s =
      (.ok (silenced name command status, subject), s') := by
  obtain ⟨s', hlaunch⟩ := Check.launch_uniform (silent status) hnul s
  have hcommand : (Check.evaluateCommand (.uniform (silent status)) name (command :: words)
      (some ⟨"/", ["x"]⟩)).run s = (.ok (silenced name command status), s') := by
    rw [Check.evaluateCommand_some, run_bind_ok hlaunch]
    exact congrArg (·, s') (commandVerdict_silent name command hstatus)
  exact ⟨s', by rw [Check.evaluate_command rfl]; exact run_bind_ok hcommand⟩

/-- What the check for collisions finds there. -/
def collision : Json := .str "name defined more than once: process/a"

/-- A gate of both checks closes, and the first of them carries no status. -/
theorem run_silent {name command : String} {words : List String} {status : Nat} {checks : List Check}
    (hstatus : status ≠ 0) (hnul : ∀ word ∈ (command :: words) ++ [(⟨"/", ["x"]⟩ : Path).text], Path.NulFree word)
    (h : checksOf (.str planPhase) checks = [Check.noCollisions, calling name (command :: words)]) :
    ∃ s', (run (.uniform (silent status)) checks (.str planPhase) colliding (some ⟨"/", ["x"]⟩)).run
        Workspace.specimenSite = (.error (.validationFailed planPhase (Assoc.ofEntries
          [("no_collisions", [collision]), (name, (silenced name command status).messages)]) none), s') := by
  have hcollides : (Check.noCollisions.evaluate (.uniform (silent status)) colliding (some ⟨"/", ["x"]⟩)).run
      Workspace.specimenSite =
        (.ok (⟨"no_collisions", [collision], none⟩, colliding), Workspace.specimenSite) := rfl
  obtain ⟨s₁, htold, -⟩ := report_run (.str planPhase) ⟨"no_collisions", [collision], none⟩ Workspace.specimenSite
  obtain ⟨s₂, hfails⟩ := silent_evaluate name colliding s₁ hstatus hnul
  obtain ⟨s₃, htold', -⟩ := report_run (.str planPhase) (silenced name command status) s₂
  have hrest : (runChecks (.uniform (silent status)) (.str planPhase) (some ⟨"/", ["x"]⟩) colliding
      [calling name (command :: words)]).run s₁ = (.ok [silenced name command status], s₃) := by
    rw [runChecks_cons, run_bind_ok hfails, run_bind_ok htold']
    rfl
  have hall : (runChecks (.uniform (silent status)) (.str planPhase) (some ⟨"/", ["x"]⟩) colliding
      (checksOf (.str planPhase) checks)).run Workspace.specimenSite =
        (.ok [⟨"no_collisions", [collision], none⟩, silenced name command status], s₃) := by
    rw [h, runChecks_cons, run_bind_ok hcollides, run_bind_ok htold, run_bind_ok hrest]
    rfl
  unfold run
  rw [run_bind_ok hall]
  exact ⟨s₃, rfl⟩

/-- The command ends with the status 6, and the gate with 3. -/
theorem status_of_closed_silent :
    let command := calling "zz" ["python", "-c", "raise SystemExit(6)"]
    let host := Host.uniform (silent 6)
    ∃ failures s' ts first rest,
      (run host [Check.noCollisions, command] (.str planPhase) colliding (some ⟨"/", ["x"]⟩)).run
        Workspace.specimenSite = (.error (.validationFailed planPhase failures none), s') ∧
      TriesAll host [Check.noCollisions, command] (.str planPhase) colliding (some ⟨"/", ["x"]⟩)
        Workspace.specimenSite ts s' ∧ ts.filter (·.Fails) = first :: rest ∧
      first.verdict.exitStatus.getD 3 = 3 ∧ ∃ t ∈ ts, t.check = command ∧ t.verdict.exitStatus = some 6 := by
  intro command host
  have hnul : ∀ word ∈ ["python", "-c", "raise SystemExit(6)"] ++ [(⟨"/", ["x"]⟩ : Path).text], Path.NulFree word := by
    decide
  have hchecksOf : checksOf (.str planPhase) [Check.noCollisions, command] = [Check.noCollisions, command] := by
    unfold checksOf
    rw [Text.sortOn_of_pairwise (by decide)]
    rfl
  obtain ⟨s', hclosed⟩ := run_silent (by decide : 6 ≠ 0) hnul hchecksOf
  obtain ⟨ts, first, rest, htries, hfailed, hstatus, -, hcarries⟩ := status_of_closed hclosed
  obtain ⟨t, ht, htcheck⟩ : ∃ t ∈ ts, t.check = command := by
    have hmem : command ∈ ts.map (·.check) := htries.once.mem_iff.2 (by simp [command, calling, Check.noCollisions,
      Check.reading])
    simpa using hmem
  obtain ⟨t', hlaunch⟩ := Check.launch_uniform (silent 6) hnul t.site
  have hends := ((hcarries t ht).1 _ _ _ _ (by rw [htcheck]; rfl) rfl hlaunch).2 6 rfl
  exact ⟨_, s', ts, first, rest, hclosed, htries, hfailed, hstatus.symm, t, ht, htcheck, by simpa using hends⟩

end Gate

end FlowPlan

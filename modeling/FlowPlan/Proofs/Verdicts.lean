import FlowPlan.Proofs.Blame
import FlowPlan.Proofs.Plan.Misuse

/-!
# Verdicts

A check that is a function always gets a verdict, unless it ends the program. A command gets none if a null
character stands in its call or if what it writes is no text; one that cannot be started has failed. Checks
in a row are tried one after another, each on what the ones before have left, and the log is told of every
verdict.

## Main definitions

* `Check.launch` — a command is started.
* `Check.Chokes` — a command that gets no verdict.
* `Gate.Trial`, `Gate.Trials` — a check that has been tried, and checks that have been tried in a row.

## Main statements

* `Check.evaluate_error` — when a check gets no verdict.
* `Check.evaluate_status` — what the verdict on a command says.
* `Gate.runChecks_ok`, `Gate.runChecks_error` — checks in a row.
-/

namespace FlowPlan

open FlowPlan.Action Site

/-! ## Processes -/

/-- What the process writes is no text, on the output or else on the error output. -/
def Process.Garbled (p : Process) (broken : Text.Broken) : Prop :=
  Text.decode p.output = .error broken ∨
    (∃ cs, Text.decode p.output = .ok cs) ∧ Text.decode p.errors = .error broken

/-- The fault of a call with a null character. -/
def nulFault : Fault := .misuse (.outOfBounds "embedded null byte")

theorem checkNames_eq (call : List String) :
    call.forM Disk.checkName = if ∀ word ∈ call, Path.NulFree word then .ok () else .error nulFault := by
  induction call with
  | nil => rfl
  | cons word rest ih =>
    change (Disk.checkName word >>= fun _ => rest.forM Disk.checkName) = _
    by_cases hword : Path.NulFree word
    · rw [Disk.checkName_of_nulFree hword, Attempt.ok_bind, ih]
      simp [hword]
    · rw [Disk.checkName_of_nul hword]
      simp [hword, nulFault]

namespace Check

/-! ## Commands -/

/-- Tell the log of a command and start it. -/
def launch (host : Host) (call : List String) : Session (Except String Process) := do
  Session.debug logger ("Running check command: " ++ String.intercalate " " call)
  start host call

/-- A call gets no answer that can be judged: it holds a null character, or what the process writes is no
text. -/
def Unanswered (host : Host) (call : List String) (s : Site) (f : Fault) : Prop :=
  (∃ word ∈ call, ¬ Path.NulFree word) ∧ f = nulFault ∨
    ∃ p s' broken, (launch host call).run s = (.ok (.ok p), s') ∧ p.Garbled broken ∧ f = .undecodable broken.text

/-- The check is a command that gets no verdict. -/
def Chokes (c : Check) (host : Host) (artifact : Option Path) (s : Site) (f : Fault) : Prop :=
  ∃ words path, c.judge = .command words ∧ artifact = some path ∧ Unanswered host (words ++ [path.text]) s f

variable {host : Host} {c : Check} {name command : String} {words call : List String} {path : Path}
  {p : Process} {v : Verdict} {f : Fault} {s s' : Site}

/-- A call with a null character is refused before the host sees it; any other one the host answers. -/
theorem launch_run (host : Host) (call : List String) (s : Site) :
    (∃ word ∈ call, ¬ Path.NulFree word) ∧ (∃ s', (launch host call).run s = (.error nulFault, s')) ∨
      (∀ word ∈ call, Path.NulFree word) ∧ ∃ answer s', (launch host call).run s = (.ok answer, s') := by
  obtain ⟨s₁, htold, -⟩ := Session.debug_run logger ("Running check command: " ++ String.intercalate " " call)
    none none s
  have hrun : (launch host call).run s = (start host call).run s₁ := run_bind_ok htold
  rw [hrun]
  by_cases hnul : ∀ word ∈ call, Path.NulFree word
  · refine .inr ⟨hnul, ?_⟩
    have hnames : call.forM Disk.checkName = .ok () := by rw [checkNames_eq, if_pos hnul]
    unfold start
    cases hstart : host.start call ⟨s₁.disk, s₁.locked⟩ with
    | error text => exact ⟨.error text, s₁, by simp [hnames, hstart]⟩
    | ok x => exact ⟨.ok x.1, { s₁ with disk := x.2.disk, locked := x.2.locked }, by simp [hnames, hstart]⟩
  · have hnames : call.forM Disk.checkName = .error nulFault := by rw [checkNames_eq, if_neg hnul]
    push Not at hnul
    refine .inl ⟨hnul, s₁, ?_⟩
    simp [start, hnames]

theorem launch_uniform (p : Process) {call : List String} (hnul : ∀ word ∈ call, Path.NulFree word) (s : Site) :
    ∃ s', (launch (.uniform p) call).run s = (.ok (.ok p), s') := by
  obtain ⟨s₁, htold, -⟩ := Session.debug_run logger ("Running check command: " ++ String.intercalate " " call)
    none none s
  refine ⟨s₁, (run_bind_ok htold).trans ?_⟩
  have hnames : call.forM Disk.checkName = .ok () := by rw [checkNames_eq, if_pos hnul]
  simp [start, hnames, Host.uniform]

theorem commandVerdict_error :
    commandVerdict name command p = .error f ↔ ∃ broken, p.Garbled broken ∧ f = .undecodable broken.text := by
  unfold commandVerdict Process.Garbled
  cases houtput : Text.decode p.output with
  | error broken => simp [houtput, Except.mapError, eq_comm]
  | ok output =>
    cases herrors : Text.decode p.errors with
    | error broken => simp [houtput, herrors, Except.mapError, eq_comm]
    | ok errors => by_cases hended : p.ending = .exited 0 <;> simp [houtput, herrors, Except.mapError, hended]

/-- The verdict on a command says how the command has ended. -/
theorem commandVerdict_ok (h : commandVerdict name command p = .ok v) :
    v.check = name ∧ v.exitStatus = if p.ending = .exited 0 then none else some (statusOf p.ending).2 := by
  obtain ⟨output, -, h⟩ := Attempt.bind_eq_ok.1 h
  obtain ⟨errors, -, h⟩ := Attempt.bind_eq_ok.1 h
  split at h
  · rename_i hended
    cases h
    exact ⟨rfl, (if_pos hended).symm⟩
  · rename_i hended
    cases h
    exact ⟨rfl, (if_neg hended).symm⟩

/-- What a check makes of the answer of the host. -/
def settle (name command : String) : Except String Process → Session Verdict
  | .ok p => Action.lift (commandVerdict name command p)
  | .error text => return ⟨name, [.str s!"cannot run {command}: {text}"], none⟩

theorem evaluateCommand_some (host : Host) (name : String) (words : List String) (path : Path) :
    evaluateCommand host name words (some path) =
      launch host (words ++ [path.text]) >>= settle name ((words ++ [path.text]).headD "") := by
  unfold evaluateCommand
  rfl

/-- A command that the system refuses gets a verdict all the same. -/
theorem evaluateCommand_error {artifact : Option Path} :
    ((evaluateCommand host name words artifact).run s).1 = .error f ↔
      ∃ path, artifact = some path ∧ Unanswered host (words ++ [path.text]) s f := by
  cases artifact with
  | none => simp [evaluateCommand]
  | some path =>
    simp only [Option.some.injEq, exists_eq_left', evaluateCommand_some]
    unfold Unanswered
    obtain ⟨hnul, s', hrun⟩ | ⟨hnul, answer, s', hrun⟩ := launch_run host (words ++ [path.text]) s
    · rw [run_bind_error hrun, hrun, Except.error.injEq]
      constructor
      · rintro rfl
        exact .inl ⟨hnul, rfl⟩
      · rintro (⟨-, rfl⟩ | ⟨_, _, _, ⟨⟩, -⟩)
        rfl
    · rw [run_bind_ok hrun, hrun]
      cases answer with
      | error text =>
        constructor
        · rintro ⟨⟩
        · rintro (⟨⟨word, hword, hbroken⟩, -⟩ | ⟨_, _, _, ⟨⟩, -⟩)
          exact absurd (hnul word hword) hbroken
      | ok p =>
        have hsettle : ((settle name ((words ++ [path.text]).headD "") (.ok p)).run s').1 =
          commandVerdict name ((words ++ [path.text]).headD "") p := rfl
        rw [hsettle, commandVerdict_error]
        constructor
        · rintro ⟨broken, hgarbled, rfl⟩
          exact .inr ⟨p, s', broken, rfl, hgarbled, rfl⟩
        · rintro (⟨⟨word, hword, hbroken⟩, -⟩ | ⟨_, _, broken, ⟨⟩, hgarbled, rfl⟩)
          · exact absurd (hnul word hword) hbroken
          · exact ⟨broken, hgarbled, rfl⟩

theorem evaluateCommand_check {artifact : Option Path}
    (h : (evaluateCommand host name words artifact).run s = (.ok v, s')) : v.check = name := by
  cases artifact with
  | none =>
    cases h
    rfl
  | some path =>
    rw [evaluateCommand_some] at h
    obtain ⟨answer, _, -, h⟩ := of_run_bind_ok h
    cases answer with
    | ok p => exact (commandVerdict_ok (Prod.mk.inj h).1).1
    | error text =>
      cases h
      rfl

/-! ## Functions -/

theorem evaluateFunction_error {messages : Attempt (List Json)} :
    ((evaluateFunction name messages).run s).1 = .error f ↔ messages = .error f ∧ f.isOrdinary = false := by
  unfold evaluateFunction
  cases messages with
  | ok ms => simp
  | error g =>
    dsimp only
    cases hends : g.isOrdinary with
    | false =>
      rw [if_pos (by simp), fail_bind, run_fail]
      constructor
      · rintro ⟨⟩
        exact ⟨rfl, hends⟩
      · rintro ⟨⟨⟩, -⟩
        rfl
    | true =>
      obtain ⟨s', htold, -⟩ := Session.error_run logger s!"Check {name} raised: {g.message}" "check_error"
        (some name) none (some g) s
      rw [if_neg (by simp), run_bind_ok htold, run_pure]
      constructor
      · rintro ⟨⟩
      · rintro ⟨⟨⟩, hf⟩
        rw [hends] at hf
        cases hf

theorem evaluateFunction_check {messages : Attempt (List Json)}
    (h : (evaluateFunction name messages).run s = (.ok v, s')) : v.check = name := by
  unfold evaluateFunction at h
  split at h
  · cases h
    rfl
  · dsimp only at h
    split at h
    · cases h
    · obtain ⟨_, _, -, h⟩ := of_run_bind_ok h
      cases h
      rfl

/-! ## Checks -/

variable {subject after : Json} {artifact : Option Path} {examine : Json → Attempt (List Json) × Json}

theorem evaluate_function (h : c.judge = .function examine) (subject : Json) (artifact : Option Path) :
    c.evaluate host subject artifact =
      evaluateFunction c.name (examine subject).1 >>= fun v => pure (v, (examine subject).2) := by
  unfold evaluate
  rw [h]

theorem evaluate_command (h : c.judge = .command words) (subject : Json) (artifact : Option Path) :
    c.evaluate host subject artifact = evaluateCommand host c.name words artifact >>= fun v => pure (v, subject) := by
  unfold evaluate
  rw [h]

theorem run_bind_pure_error {α β : Type} {a : Session α} {g : α → β} :
    ((a >>= fun x => pure (g x)).run s).1 = .error f ↔ (a.run s).1 = .error f := by
  rw [run_bind]
  rcases a.run s with ⟨r | x, t⟩ <;> simp

/-- A check gets no verdict if it is a command that chokes, or a function that ends the program. -/
theorem evaluate_error :
    ((c.evaluate host subject artifact).run s).1 = .error f ↔
      c.Chokes host artifact s f ∨
        ∃ examine, c.judge = .function examine ∧ (examine subject).1 = .error f ∧ f.isOrdinary = false := by
  unfold Chokes
  cases hjudge : c.judge with
  | function examine =>
    rw [evaluate_function hjudge, run_bind_pure_error, evaluateFunction_error]
    simp
  | command words =>
    rw [evaluate_command hjudge, run_bind_pure_error, evaluateCommand_error]
    simp

/-- The verdict bears the name of its check. -/
theorem evaluate_check (h : (c.evaluate host subject artifact).run s = (.ok (v, after), s')) : v.check = c.name := by
  cases hjudge : c.judge with
  | function examine =>
    rw [evaluate_function hjudge] at h
    obtain ⟨_, _, h, hdone⟩ := of_run_bind_ok h
    cases hdone
    exact evaluateFunction_check h
  | command words =>
    rw [evaluate_command hjudge] at h
    obtain ⟨_, _, h, hdone⟩ := of_run_bind_ok h
    cases hdone
    exact evaluateCommand_check h

/-- The verdict on a command that was started says how it has ended. -/
theorem evaluate_status (h : (c.evaluate host subject artifact).run s = (.ok (v, after), s'))
    (hjudge : c.judge = .command words) (hpath : artifact = some path) {t : Site}
    (hlaunch : (launch host (words ++ [path.text])).run s = (.ok (.ok p), t)) :
    v.exitStatus = if p.ending = .exited 0 then none else some (statusOf p.ending).2 := by
  subst hpath
  rw [evaluate_command hjudge] at h
  obtain ⟨_, _, h, hdone⟩ := of_run_bind_ok h
  cases hdone
  rw [evaluateCommand_some, run_bind_ok hlaunch] at h
  exact (commandVerdict_ok (congrArg Prod.fst h)).2

end Check

namespace Gate

/-! ## Checks in a row -/

/-- A check that has been tried: on what, from where, and what came of it. -/
structure Trial where
  check : Check
  subject : Json
  site : Site
  verdict : Verdict

namespace Trial

/-- The check has something to say. -/
def Fails (t : Trial) : Prop := t.verdict.passed = false

instance (t : Trial) : Decidable t.Fails := inferInstanceAs (Decidable (_ = _))

end Trial

/-- Checks have been tried one after another. Each has got its verdict on what the ones before have left,
and the log has been told. -/
inductive Trials (host : Host) (phase : Json) (artifact : Option Path) :
    Json → Site → List Trial → Json → Site → Prop
  | nil {subject : Json} {s : Site} : Trials host phase artifact subject s [] subject s
  | cons {c : Check} {subject after left : Json} {v : Verdict} {s s₁ s₂ s' : Site} {ts : List Trial}
      (hverdict : (c.evaluate host subject artifact).run s = (.ok (v, after), s₁))
      (htold : (report phase v).run s₁ = (.ok (), s₂)) (hrest : Trials host phase artifact after s₂ ts left s') :
      Trials host phase artifact subject s (⟨c, subject, s, v⟩ :: ts) left s'

variable {host : Host} {checks : List Check} {phase subject : Json} {artifact : Option Path} {vs : List Verdict}
  {f : Fault} {s s' : Site}

/-- Every check has got the verdict that it has on its subject. -/
theorem Trials.evaluate {ts : List Trial} {left : Json} (h : Trials host phase artifact subject s ts left s') :
    ∀ t ∈ ts, ∃ after s₁, (t.check.evaluate host t.subject artifact).run t.site = (.ok (t.verdict, after), s₁) := by
  induction h with
  | nil => simp
  | cons hverdict _ _ ih => exact List.forall_mem_cons.2 ⟨⟨_, _, hverdict⟩, ih⟩

theorem runChecks_cons (c : Check) (rest : List Check) :
    runChecks host phase artifact subject (c :: rest) = c.evaluate host subject artifact >>= fun x =>
      report phase x.1 >>= fun _ => runChecks host phase artifact x.2 rest >>= fun vs => pure (x.1 :: vs) := rfl

theorem runChecks_ok :
    (runChecks host phase artifact subject checks).run s = (.ok vs, s') ↔
      ∃ ts left, ts.map (·.check) = checks ∧ ts.map (·.verdict) = vs ∧
        Trials host phase artifact subject s ts left s' := by
  constructor
  · intro h
    induction checks generalizing subject s vs with
    | nil =>
      cases h
      exact ⟨[], subject, rfl, rfl, .nil⟩
    | cons c rest ih =>
      rw [runChecks_cons] at h
      obtain ⟨⟨v, after⟩, s₁, hverdict, h⟩ := of_run_bind_ok h
      obtain ⟨_, s₂, htold, h⟩ := of_run_bind_ok h
      obtain ⟨vs', s₃, hrest, h⟩ := of_run_bind_ok h
      cases h
      obtain ⟨ts, left, rfl, rfl, htrials⟩ := ih hrest
      exact ⟨⟨c, subject, s, v⟩ :: ts, left, rfl, rfl, .cons hverdict htold htrials⟩
  · rintro ⟨ts, left, rfl, rfl, htrials⟩
    induction htrials with
    | nil => rfl
    | cons hverdict htold _ ih =>
      rw [List.map_cons, runChecks_cons, run_bind_ok hverdict, run_bind_ok htold, run_bind_ok ih]
      rfl

/-- Checks in a row stop at the first that gets no verdict. -/
theorem runChecks_error :
    (runChecks host phase artifact subject checks).run s = (.error f, s') ↔
      ∃ before c after ts left s₁, checks = before ++ c :: after ∧ ts.map (·.check) = before ∧
        Trials host phase artifact subject s ts left s₁ ∧ (c.evaluate host left artifact).run s₁ = (.error f, s') := by
  constructor
  · intro h
    induction checks generalizing subject s with
    | nil => cases h
    | cons c rest ih =>
      rw [runChecks_cons] at h
      rcases of_run_bind_error h with h | ⟨⟨v, next⟩, s₁, hverdict, h⟩
      · exact ⟨[], c, rest, [], subject, s, rfl, rfl, .nil, h⟩
      · obtain ⟨s₂, htold, -⟩ := report_run phase v s₁
        rw [run_bind_ok htold] at h
        rcases of_run_bind_error h with h | ⟨vs, s₃, -, h⟩
        · obtain ⟨before, d, after, ts, left, s₄, rfl, rfl, htrials, hlast⟩ := ih h
          exact ⟨c :: ts.map (·.check), d, after, ⟨c, subject, s, v⟩ :: ts, left, s₄, rfl, rfl,
            .cons hverdict htold htrials, hlast⟩
        · cases h
  · rintro ⟨before, c, after, ts, left, s₁, rfl, rfl, htrials, hlast⟩
    induction htrials with
    | nil => exact run_bind_error hlast
    | cons hverdict htold _ ih =>
      rw [List.map_cons, List.cons_append, runChecks_cons, run_bind_ok hverdict, run_bind_ok htold,
        run_bind_error (ih hlast)]

end Gate

end FlowPlan

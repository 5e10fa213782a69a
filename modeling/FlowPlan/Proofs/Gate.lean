import FlowPlan.Build.Gate
import FlowPlan.Proofs.Json.Sorted
import FlowPlan.Proofs.Site
import FlowPlan.Unit.Checks

/-!
# Gates of functions

Checks that are functions of the subject touch nothing but the log, and a gate of such checks opens
exactly if none of them has a message.

## Main definitions

* `Check.Reads` — the check is a function and leaves the subject as it is.
* `Check.messages` — what it has to say.

## Main statements

* `Check.reads_standard` — the standard checks only read.
* `Gate.run_reads` — when a gate opens.
-/

namespace FlowPlan

open FlowPlan.Action Site

namespace Check

/-- The check is a function of the subject, and leaves it as it is. -/
def Reads (c : Check) : Prop :=
  ∃ f : Json → Attempt (List Json), c.judge = .function fun subject => (f subject, subject)

/-- What a function has to say of a subject. -/
def messages (c : Check) (subject : Json) : Attempt (List Json) :=
  match c.judge with
  | .function examine => (examine subject).1
  | .command _ => .ok []

theorem reads_reading (name form phase description : String) (f : Json → Attempt (List Json)) :
    (reading name form phase description f).Reads := ⟨f, rfl⟩

theorem reads_standard : ∀ c ∈ standard, c.1.Reads := by
  simp only [standard, List.forall_mem_cons, List.not_mem_nil, false_implies, implies_true, and_true]
  exact ⟨reads_reading .., reads_reading .., reads_reading .., reads_reading .., reads_reading ..⟩

variable {s : Site}

/-- A failure counts as a message. -/
theorem evaluateFunction_run (name : String) (messages : Attempt (List Json)) (s : Site) :
    ∃ r s', (evaluateFunction name messages).run s = (r, s') ∧ Differs (fun _ => False) s s' ∧
      ((∃ v, r = .ok v ∧ v.passed = true) ↔ messages = .ok []) := by
  unfold evaluateFunction
  cases messages with
  | ok ms => exact ⟨_, _, rfl, .refl _ s, by simp [Verdict.passed]⟩
  | error f =>
    dsimp only
    split
    · exact ⟨_, _, rfl, .refl _ s, by simp⟩
    · obtain ⟨s', hrun, hdiff⟩ := Session.error_run logger s!"Check {name} raised: {f.message}"
        "check_error" (some name) none (some f) s
      exact ⟨_, s', run_bind_ok hrun, hdiff, by simp [Verdict.passed]⟩

theorem evaluate_run {c : Check} (h : c.Reads) (host : Host) (subject : Json) (artifact : Option Path) (s : Site) :
    ∃ r s', (c.evaluate host subject artifact).run s = (r, s') ∧ Differs (fun _ => False) s s' ∧
      (∀ x, r = .ok x → x.2 = subject) ∧
      ((∃ x, r = .ok x ∧ x.1.passed = true) ↔ c.messages subject = .ok []) := by
  obtain ⟨f, hf⟩ := h
  obtain ⟨r, s', hrun, hdiff, hpassed⟩ := evaluateFunction_run c.name (f subject) s
  unfold evaluate messages
  rw [hf]
  cases r with
  | error e => exact ⟨_, s', run_bind_error hrun, hdiff, by simp, by simpa using hpassed⟩
  | ok v => exact ⟨_, s', run_bind_ok hrun, hdiff, by rintro x ⟨⟩; rfl, by simpa using hpassed⟩

end Check

namespace Gate

/-- Verdicts are told to the log. -/
theorem report_run (phase : Json) (v : Verdict) (s : Site) :
    ∃ s', (report phase v).run s = (.ok (), s') ∧ Differs (fun _ => False) s s' := by
  unfold report
  split
  · exact Session.info_run _ _ _ _ _ s
  · obtain ⟨tell, htell⟩ : ∃ tell : Json → Session Unit, tell = fun message =>
        Session.error Check.logger s!"Check {v.check} failed: {message.display}" "check_failed"
          (some v.check) (some (.obj [("phase", phase)])) := ⟨_, rfl⟩
    rw [← htell]
    induction v.messages generalizing s with
    | nil => exact ⟨s, rfl, .refl _ s⟩
    | cons message rest ih =>
      obtain ⟨s₁, hrun₁, hdiff₁⟩ : ∃ s₁, (tell message).run s = (.ok (), s₁) ∧
          Differs (fun _ => False) s s₁ := htell ▸ Session.error_run _ _ _ _ _ _ s
      obtain ⟨s₂, hrun₂, hdiff₂⟩ := ih s₁
      exact ⟨s₂, (run_bind_ok hrun₁).trans hrun₂, hdiff₁.trans hdiff₂⟩

variable {checks : List Check}

theorem runChecks_reads (h : ∀ c ∈ checks, c.Reads) (host : Host) (phase subject : Json) (artifact : Option Path)
    (s : Site) :
    ∃ r s', (runChecks host phase artifact subject checks).run s = (r, s') ∧ Differs (fun _ => False) s s' ∧
      ((∃ vs, r = .ok vs ∧ ∀ v ∈ vs, v.passed = true) ↔ ∀ c ∈ checks, c.messages subject = .ok []) := by
  induction checks generalizing s with
  | nil => exact ⟨_, s, rfl, .refl _ s, by simp⟩
  | cons c rest ih =>
    obtain ⟨r₁, s₁, hrun₁, hdiff₁, hsubject, hpassed⟩ :=
      Check.evaluate_run (h c List.mem_cons_self) host subject artifact s
    unfold runChecks
    rw [List.forall_mem_cons, ← hpassed]
    cases r₁ with
    | error e => exact ⟨_, s₁, run_bind_error hrun₁, hdiff₁, by simp⟩
    | ok x =>
      obtain ⟨v, after⟩ := x
      obtain rfl : after = subject := hsubject _ rfl
      obtain ⟨s₂, hrun₂, hdiff₂⟩ := report_run phase v s₁
      obtain ⟨r₃, s₃, hrun₃, hdiff₃, hrest⟩ := ih (fun d hd => h d (List.mem_cons_of_mem c hd)) s₂
      rw [run_bind_ok hrun₁]
      dsimp only
      rw [run_bind_ok hrun₂, ← hrest]
      have hdiff := (hdiff₁.trans hdiff₂).trans hdiff₃
      cases r₃ with
      | error e => exact ⟨_, s₃, run_bind_error hrun₃, hdiff, by simp⟩
      | ok vs => exact ⟨_, s₃, run_bind_ok hrun₃, hdiff, by simp⟩

theorem fault?_eq_none (phase : Json) {verdicts : List Verdict} :
    fault? phase verdicts = none ↔ ∀ v ∈ verdicts, v.passed = true := by
  unfold fault?
  have hnone : verdicts.filter (!·.passed) = [] ↔ ∀ v ∈ verdicts, v.passed = true := by
    simp [List.filter_eq_nil_iff]
  rw [← hnone]
  split <;> simp_all

/-- A gate of checks that only read opens exactly if none of its phase has a message. -/
theorem run_reads (h : ∀ c ∈ checks, c.Reads) (host : Host) (phase subject : Json) (artifact : Option Path)
    (s : Site) :
    ∃ r s', (run host checks phase subject artifact).run s = (r, s') ∧ Differs (fun _ => False) s s' ∧
      ((∃ vs, r = .ok vs) ↔ ∀ c ∈ checks, c.phase = phase → c.messages subject = .ok []) := by
  have hmem : ∀ c, c ∈ checksOf phase checks ↔ c ∈ checks ∧ c.phase = phase := by
    simp [checksOf, Text.mem_sortOn]
  obtain ⟨r, s', hrun, hdiff, hpassed⟩ :=
    runChecks_reads (fun c hc => h c ((hmem c).1 hc).1) host phase subject artifact s
  have hall : (∀ c ∈ checksOf phase checks, c.messages subject = .ok []) ↔
      ∀ c ∈ checks, c.phase = phase → c.messages subject = .ok [] := by
    simp only [hmem, and_imp]
  unfold run
  rw [← hall, ← hpassed]
  cases r with
  | error e => exact ⟨_, s', run_bind_error hrun, hdiff, by simp⟩
  | ok vs =>
    rw [run_bind_ok hrun]
    cases hfault : fault? phase vs with
    | none => exact ⟨_, s', rfl, hdiff, by simpa using (fault?_eq_none phase).1 hfault⟩
    | some f =>
      have hfails : ¬ ∀ v ∈ vs, v.passed = true := by
        rw [← fault?_eq_none phase, hfault]
        simp
      exact ⟨_, s', rfl, hdiff, by simpa using hfails⟩

end Gate

end FlowPlan

import FlowPlan.Action

/-!
# Invariants of actions

An action keeps a predicate on states if every one of its steps does, whatever the steps before have
seen. What the steps keep, a whole run keeps; the combinators only put steps together, so it is
enough to look at single steps.

## Main statements

* `Action.run_bind_ok`, `Action.run_bind_error` — how the run of two actions goes.
* `Action.Keeps` — every step of the action keeps the predicate.
* `Action.Keeps.run` — so does the run.
* `Action.Keeps.bind`, `Action.Keeps.outcome`, `Action.keeps_forM` — actions put together.
* `Action.Yields` — with which values and faults the action may end, and `Action.Yields.bind`.
-/

namespace FlowPlan.Action

variable {σ ε α β : Type}

/-! ## Laws -/

theorem bind_eq (a : Action σ ε α) (f : α → Action σ ε β) : Action.bind a f = a >>= f := rfl

theorem discard_eq (a : Action σ ε α) : discard a = a >>= fun _ => (pure () : Action σ ε Unit) := rfl

@[simp] theorem lift_ok_bind (x : α) (f : α → Action σ ε β) : lift (.ok x) >>= f = f x := rfl

@[simp] theorem lift_error_bind (e : ε) (f : α → Action σ ε β) :
    lift (.error e) >>= f = fail e := rfl

@[simp] theorem fail_bind (e : ε) (f : α → Action σ ε β) : fail e >>= f = fail e := rfl

theorem forM_cons (f : β → Action σ ε PUnit) (x : β) (xs : List β) :
    (x :: xs).forM f = f x >>= fun _ => xs.forM f := rfl

instance : LawfulMonad (Action σ ε) := LawfulMonad.mk' _
  (by
    intro α a
    induction a with
    | done r => cases r <;> rfl
    | step change next ih => exact congrArg (step change) (funext ih))
  (fun _ _ => rfl)
  (by
    intro α β γ a f g
    induction a with
    | done r => cases r <;> rfl
    | step change next ih => exact congrArg (step change) (funext ih))

/-- What follows an action follows its outcome, if it ended well. -/
theorem bind_eq_outcome_bind (a : Action σ ε α) (f : α → Action σ ε β) :
    a >>= f = outcome a >>= fun | .ok x => f x | .error e => fail e := by
  induction a with
  | done r => cases r <;> rfl
  | step change next ih => exact congrArg (step change) (funext ih)

theorem outcome_bind_outcome (a : Action σ ε α) (f : Except ε α → Action σ ε β) :
    outcome (outcome a >>= f) = outcome a >>= fun r => outcome (f r) := by
  induction a with
  | done r => rfl
  | step change next ih => exact congrArg (step change) (funext ih)

theorem run_bind_ok {a : Action σ ε α} {f : α → Action σ ε β} {s s' : σ} {x : α}
    (h : run a s = (.ok x, s')) : run (a >>= f) s = run (f x) s' := by
  rw [run_bind, h]

theorem run_bind_of_fst {a : Action σ ε α} {f : α → Action σ ε β} {s : σ} {x : α}
    (h : (run a s).1 = .ok x) : run (a >>= f) s = run (f x) (run a s).2 :=
  run_bind_ok (Prod.ext h rfl)

theorem run_bind_error {a : Action σ ε α} {f : α → Action σ ε β} {s s' : σ} {e : ε}
    (h : run a s = (.error e, s')) : run (a >>= f) s = (.error e, s') := by
  rw [run_bind, h]

/-- A run of two actions that ends well is a run of the first that ends well and one of the second. -/
theorem of_run_bind_ok {a : Action σ ε α} {f : α → Action σ ε β} {s t : σ} {y : β}
    (h : run (a >>= f) s = (.ok y, t)) :
    ∃ x s', run a s = (.ok x, s') ∧ run (f x) s' = (.ok y, t) := by
  rw [run_bind] at h
  split at h
  · exact ⟨_, _, ‹_›, h⟩
  · cases h

/-- A run of two actions that fails is one whose first fails, or a run of the first that ends well and one of
the second that fails. -/
theorem of_run_bind_error {a : Action σ ε α} {f : α → Action σ ε β} {s t : σ} {e : ε}
    (h : run (a >>= f) s = (.error e, t)) :
    run a s = (.error e, t) ∨ ∃ x s', run a s = (.ok x, s') ∧ run (f x) s' = (.error e, t) := by
  rw [run_bind] at h
  split at h
  · exact .inr ⟨_, _, ‹_›, h⟩
  · cases h
    exact .inl ‹_›

theorem of_run_outcome {a : Action σ ε α} {s t : σ} {r : Except ε α} (h : run (outcome a) s = (.ok r, t)) :
    run a s = (r, t) := by
  rw [run_outcome] at h
  obtain ⟨hfst, hsnd⟩ := Prod.mk.inj h
  exact Prod.ext (Except.ok.inj hfst) hsnd

theorem of_run_discard_ok {a : Action σ ε α} {s t : σ}
    (h : run (discard a : Action σ ε PUnit) s = (.ok (), t)) : ∃ x, run a s = (.ok x, t) := by
  obtain ⟨x, _, ha, hdone⟩ := of_run_bind_ok h
  cases hdone
  exact ⟨x, ha⟩

theorem of_run_discard_error {a : Action σ ε α} {s t : σ} {e : ε}
    (h : run (discard a : Action σ ε PUnit) s = (.error e, t)) : run a s = (.error e, t) := by
  rcases of_run_bind_error h with ha | ⟨_, _, -, hdone⟩
  · exact ha
  · cases hdone

theorem run_ensuring (a : Action σ ε α) (after : Action σ ε Unit) (s : σ) :
    run (ensuring a after) s =
      match run after (run a s).2 with
      | (.ok _, t) => ((run a s).1, t)
      | (.error e, t) => (.error e, t) := by
  simp only [ensuring, bind_eq, run_bind, run_outcome]
  cases run after (run a s).2 with
  | mk r t => cases r <;> rfl

/-! ## What the steps keep -/

/-- Every step of the action keeps `P`, whatever the steps before have seen. -/
def Keeps (P : σ → Prop) : Action σ ε α → Prop
  | done _ => True
  | step change next => ∀ s, P s → P (change s) ∧ Keeps P (next s)

variable {P : σ → Prop}

/-- What every step keeps, the whole run keeps. -/
theorem Keeps.run {a : Action σ ε α} (h : Keeps P a) {s : σ} (hs : P s) : P (run a s).2 := by
  induction a generalizing s with
  | done r => exact hs
  | step change next ih => exact ih s (h s hs).2 (h s hs).1

theorem Keeps.of_run {a : Action σ ε α} (h : Keeps P a) {s s' : σ} {r : Except ε α} (hs : P s)
    (hrun : Action.run a s = (r, s')) : P s' := by
  have hkept := h.run hs
  rwa [hrun] at hkept

/-- What comes after may keep less. -/
theorem Keeps.run_bind {Q : σ → Prop} {a : Action σ ε α} {f : α → Action σ ε β} (ha : Keeps P a)
    (hPQ : ∀ s, P s → Q s) (hf : ∀ x, Keeps Q (f x)) {s : σ} (hs : P s) : Q (Action.run (a >>= f) s).2 := by
  rw [Action.run_bind]
  split
  · rename_i x s' hrun
    exact (hf x).run (hPQ s' (ha.of_run hs hrun))
  · rename_i e s' hrun
    exact hPQ s' (ha.of_run hs hrun)

theorem keeps_pure (x : α) : Keeps P (pure x : Action σ ε α) := trivial

theorem keeps_lift (r : Except ε α) : Keeps P (lift r : Action σ ε α) := trivial

theorem keeps_fail (e : ε) : Keeps P (fail e : Action σ ε α) := trivial

theorem keeps_look (f : σ → α) : Keeps P (look f : Action σ ε α) := fun _ hs => ⟨hs, trivial⟩

theorem keeps_modify {f : σ → σ} (h : ∀ s, P s → P (f s)) :
    Keeps P (modify f : Action σ ε Unit) := fun s hs => ⟨h s hs, trivial⟩

theorem keeps_atomic {f : σ → Except ε α × σ} (h : ∀ s, P s → P (f s).2) :
    Keeps P (atomic f) := fun s hs => ⟨h s hs, trivial⟩

theorem Keeps.bind {a : Action σ ε α} {f : α → Action σ ε β} (ha : Keeps P a)
    (hf : ∀ x, Keeps P (f x)) : Keeps P (a >>= f) := by
  change Keeps P (Action.bind a f)
  induction a with
  | done r =>
    cases r with
    | ok x => exact hf x
    | error e => trivial
  | step change next ih => exact fun s hs => ⟨(ha s hs).1, ih s (ha s hs).2⟩

/-- What follows a finished computation counts only if that ended well. -/
theorem keeps_lift_bind {r : Except ε α} {f : α → Action σ ε β} (h : ∀ x, r = .ok x → Keeps P (f x)) :
    Keeps P (lift r >>= f) := by
  cases r with
  | ok x => exact h x rfl
  | error e => trivial

theorem Keeps.discard {a : Action σ ε α} (ha : Keeps P a) :
    Keeps P (discard a : Action σ ε PUnit) :=
  ha.bind fun _ => keeps_pure _

theorem Keeps.outcome {a : Action σ ε α} (ha : Keeps P a) : Keeps P (outcome a) := by
  induction a with
  | done r => trivial
  | step change next ih => exact fun s hs => ⟨(ha s hs).1, ih s (ha s hs).2⟩

theorem keeps_ite {c : Prop} [Decidable c] {a b : Action σ ε α} (ha : c → Keeps P a)
    (hb : ¬ c → Keeps P b) : Keeps P (if c then a else b) := by
  split
  · exact ha ‹_›
  · exact hb ‹_›

theorem keeps_forM {xs : List β} {f : β → Action σ ε PUnit} (h : ∀ x ∈ xs, Keeps P (f x)) :
    Keeps P (xs.forM f) := by
  induction xs with
  | nil => exact keeps_pure _
  | cons x xs ih =>
    exact (h x List.mem_cons_self).bind fun _ => ih fun y hy => h y (List.mem_cons_of_mem x hy)

theorem keeps_mapM {xs : List β} {f : β → Action σ ε α} (h : ∀ x ∈ xs, Keeps P (f x)) :
    Keeps P (xs.mapM f) := by
  induction xs with
  | nil => rw [List.mapM_nil]; exact keeps_pure _
  | cons x xs ih =>
    rw [List.mapM_cons]
    exact (h x List.mem_cons_self).bind fun _ =>
      (ih fun y hy => h y (List.mem_cons_of_mem x hy)).bind fun _ => keeps_pure _

/-! ## What the ends are -/

/-- However the action ends, whatever its steps see, a value is one of `R` and a fault one of `F`. -/
inductive Yields (F : ε → Prop) (R : α → Prop) : Action σ ε α → Prop
  | value {x : α} (h : R x) : Yields F R (done (.ok x))
  | fault {e : ε} (h : F e) : Yields F R (done (.error e))
  | step {change : σ → σ} {next : σ → Action σ ε α} (h : ∀ s, Yields F R (next s)) :
      Yields F R (step change next)

variable {F : ε → Prop} {R : α → Prop} {S : β → Prop}

theorem Yields.run_ok {a : Action σ ε α} (h : Yields F R a) {s s' : σ} {x : α}
    (hrun : run a s = (.ok x, s')) : R x := by
  induction h generalizing s with
  | value h =>
    cases hrun
    exact h
  | fault => cases hrun
  | step _ ih => exact ih s hrun

theorem Yields.run_error {a : Action σ ε α} (h : Yields F R a) {s s' : σ} {e : ε}
    (hrun : run a s = (.error e, s')) : F e := by
  induction h generalizing s with
  | value => cases hrun
  | fault h =>
    cases hrun
    exact h
  | step _ ih => exact ih s hrun

theorem Yields.mono {a : Action σ ε α} {F' : ε → Prop} {R' : α → Prop} (h : Yields F R a)
    (hF : ∀ e, F e → F' e) (hR : ∀ x, R x → R' x) : Yields F' R' a := by
  induction h with
  | value h => exact .value (hR _ h)
  | fault h => exact .fault (hF _ h)
  | step _ ih => exact .step ih

theorem yields_true (a : Action σ ε α) : Yields (fun _ => True) (fun _ => True) a := by
  induction a with
  | done r => cases r with
    | ok x => exact .value trivial
    | error e => exact .fault trivial
  | step change next ih => exact .step ih

theorem yields_pure {x : α} (h : R x) : Yields F R (pure x : Action σ ε α) := .value h

theorem yields_fail {e : ε} (h : F e) : Yields F R (fail e : Action σ ε α) := .fault h

theorem yields_lift {r : Except ε α} (hF : ∀ e, r = .error e → F e) (hR : ∀ x, r = .ok x → R x) :
    Yields F R (lift r : Action σ ε α) := by
  cases r with
  | ok x => exact .value (hR x rfl)
  | error e => exact .fault (hF e rfl)

theorem yields_atomic {f : σ → Except ε α × σ} (hF : ∀ s e, (f s).1 = .error e → F e)
    (hR : ∀ s x, (f s).1 = .ok x → R x) : Yields F R (atomic f) :=
  .step fun s => yields_lift (hF s) (hR s)

theorem yields_look (f : σ → α) : Yields F (fun _ => True) (look f : Action σ ε α) :=
  .step fun _ => .value trivial

theorem yields_modify (f : σ → σ) : Yields F (fun _ => True) (modify f : Action σ ε Unit) :=
  .step fun _ => .value trivial

theorem Yields.bind {a : Action σ ε α} {f : α → Action σ ε β} (ha : Yields F R a)
    (hf : ∀ x, R x → Yields F S (f x)) : Yields F S (a >>= f) := by
  induction ha with
  | value h => exact hf _ h
  | fault h => exact .fault h
  | step _ ih => exact .step ih

/-- The fault that an action ends with is a value of its outcome. -/
theorem Yields.outcome {a : Action σ ε α} (ha : Yields F R a) {F' : ε → Prop} :
    Yields F' (fun r => (∀ x, r = .ok x → R x) ∧ ∀ e, r = .error e → F e) (outcome a) := by
  induction ha with
  | value h => exact .value ⟨by rintro _ ⟨⟩; exact h, nofun⟩
  | fault h => exact .value ⟨nofun, by rintro _ ⟨⟩; exact h⟩
  | step _ ih => exact .step ih

theorem yields_forM {xs : List β} {f : β → Action σ ε PUnit}
    (h : ∀ x ∈ xs, Yields F (fun _ => True) (f x)) : Yields F (fun _ => True) (xs.forM f) := by
  induction xs with
  | nil => exact yields_pure trivial
  | cons x xs ih =>
    exact (h x List.mem_cons_self).bind fun _ _ => ih fun y hy => h y (List.mem_cons_of_mem x hy)

end FlowPlan.Action

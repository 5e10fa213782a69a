/-!
# Actions on a shared state

An action is a computation on a state, cut into atomic steps. A step changes the state at once;
between two steps others may act on it, or the action may be killed. Run alone, an action is a
function of the state.

## Main definitions

* `Action` — computations that end with a value or a fault.
* `Action.run` — the action run alone.
* `Action.recover`, `Action.ensuring` — what happens after a fault, and what happens in any case.
-/

namespace FlowPlan

/-- A computation on states `σ` that ends with a value `α` or a fault `ε`. A step goes on with what
it saw of the state before the change. -/
inductive Action (σ ε α : Type) : Type where
  | done (outcome : Except ε α)
  | step (change : σ → σ) (next : σ → Action σ ε α)

namespace Action

variable {σ ε α β : Type}

/-- Run the action alone: its outcome and the state that it leaves. -/
def run : Action σ ε α → σ → Except ε α × σ
  | done outcome, s => (outcome, s)
  | step change next, s => run (next s) (change s)

protected def bind : Action σ ε α → (α → Action σ ε β) → Action σ ε β
  | done (.ok a), f => f a
  | done (.error e), _ => done (.error e)
  | step change next, f => step change fun s => Action.bind (next s) f

instance : Monad (Action σ ε) where
  pure a := done (.ok a)
  bind := Action.bind

/-- End with a fault. -/
def fail (e : ε) : Action σ ε α := done (.error e)

/-- Go on after a fault. -/
def recover : Action σ ε α → (ε → Action σ ε α) → Action σ ε α
  | done (.ok a), _ => done (.ok a)
  | done (.error e), handler => handler e
  | step change next, handler => step change fun s => recover (next s) handler

instance : MonadExcept ε (Action σ ε) where
  throw := fail
  tryCatch := recover

/-- The outcome as a value; no fault leaves the action. -/
def outcome : Action σ ε α → Action σ ε (Except ε α)
  | done r => done (.ok r)
  | step change next => step change fun s => outcome (next s)

/-- A finished computation. -/
def lift (r : Except ε α) : Action σ ε α := done r

/-- One atomic step: an outcome and a new state. -/
def atomic (f : σ → Except ε α × σ) : Action σ ε α :=
  step (fun s => (f s).2) fun s => done (f s).1

/-- Look at the state. -/
def look (f : σ → α) : Action σ ε α := step id fun s => done (.ok (f s))

/-- Change the state at once. -/
def modify (f : σ → σ) : Action σ ε Unit := step f fun _ => done (.ok ())

/-- Run the second action after the first one, whatever its outcome. A fault of the second replaces
that outcome. -/
def ensuring (a : Action σ ε α) (after : Action σ ε Unit) : Action σ ε α :=
  Action.bind (outcome a) fun r => Action.bind after fun _ => done r

/-! ## What a run does -/

@[simp] theorem run_done (r : Except ε α) (s : σ) : run (done r) s = (r, s) := rfl

@[simp] theorem run_step (change : σ → σ) (next : σ → Action σ ε α) (s : σ) :
    run (step change next) s = run (next s) (change s) := rfl

@[simp] theorem run_pure (a : α) (s : σ) : run (pure a : Action σ ε α) s = (.ok a, s) := rfl

@[simp] theorem run_lift (r : Except ε α) (s : σ) : run (lift r) s = (r, s) := rfl

@[simp] theorem run_fail (e : ε) (s : σ) : run (fail e : Action σ ε α) s = (.error e, s) := rfl

@[simp] theorem run_atomic (f : σ → Except ε α × σ) (s : σ) : run (atomic f) s = f s := rfl

@[simp] theorem run_look (f : σ → α) (s : σ) : run (look f : Action σ ε α) s = (.ok (f s), s) := rfl

@[simp] theorem run_modify (f : σ → σ) (s : σ) : run (modify f : Action σ ε Unit) s = (.ok (), f s) :=
  rfl

/-- The second action runs on the state that the first one leaves, unless that one failed. -/
theorem run_bind (a : Action σ ε α) (f : α → Action σ ε β) (s : σ) :
    run (a >>= f) s =
      match run a s with
      | (.ok x, s') => run (f x) s'
      | (.error e, s') => (.error e, s') := by
  change run (Action.bind a f) s = _
  induction a generalizing s with
  | done r => cases r <;> rfl
  | step change next ih => exact ih s (change s)

theorem run_outcome (a : Action σ ε α) (s : σ) :
    run (outcome a) s = (.ok (run a s).1, (run a s).2) := by
  induction a generalizing s with
  | done r => rfl
  | step change next ih => exact ih s (change s)

end Action

end FlowPlan

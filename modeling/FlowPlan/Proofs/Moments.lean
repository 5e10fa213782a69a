import FlowPlan.Proofs.Action

/-!
# The moments of an action

An action that is killed between two of its steps leaves the state of that moment. What holds at every
moment is put together from the parts of an action, as is the number of steps after which something
else begins to hold.

## Main definitions

* `Action.steps`, `Action.after` — how many steps there are, and the state after some of them.
* `Action.struck` — a failure strikes after so many steps.
* `Action.Always` — a predicate holds at every moment.
* `Action.Upholds` — a predicate that holds at the start holds at every moment.
* `Action.Trail` — the first steps of an action, and what is left of it then.
* `Action.Leads` — an action begins like another one.
* `Action.Turns` — one predicate holds for so many steps and another one from then on.

## Main statements

* `Action.always_iff` — the moments are the states after any number of steps.
* `Action.Trail.after_lt`, `Action.Trail.after_add` — the states on a trail and behind it.
-/

namespace FlowPlan.Action

variable {σ ε α β : Type}

/-- The number of steps of a run. -/
def steps : Action σ ε α → σ → Nat
  | done _, _ => 0
  | step change next, s => steps (next s) (change s) + 1

/-- The state after so many steps; an action that has ended leaves it as it is. -/
def after : Action σ ε α → Nat → σ → σ
  | done _, _, s => s
  | step _ _, 0, s => s
  | step change next, n + 1, s => after (next s) n (change s)

@[simp] theorem after_zero (a : Action σ ε α) (s : σ) : a.after 0 s = s := by cases a <;> rfl

theorem after_of_le {a : Action σ ε α} {s : σ} {n : Nat} (h : a.steps s ≤ n) :
    a.after n s = (a.run s).2 := by
  induction a generalizing n s with
  | done r => rfl
  | step change next ih =>
    cases n with
    | zero => simp [steps] at h
    | succ n => exact ih s (by simpa [steps] using h)

/-- The action, in which a failure strikes after so many steps. -/
def struck (e : ε) : Nat → Action σ ε α → Action σ ε α
  | 0, _ => fail e
  | _ + 1, done r => done r
  | n + 1, step change next => step change fun s => struck e n (next s)

/-- It fails with that failure, unless it has ended before. -/
theorem run_struck (e : ε) (n : Nat) (a : Action σ ε α) (s : σ) :
    (struck e n a).run s = a.run s ∨ ((struck e n a).run s).1 = .error e := by
  induction n generalizing a s with
  | zero => exact .inr rfl
  | succ n ih =>
    cases a with
    | done r => exact .inl rfl
    | step change next => exact ih (next s) (change s)

/-! ## What holds at every moment -/

/-- The predicate holds at every moment of the run, from its start to its end. -/
def Always (P : σ → Prop) : Action σ ε α → σ → Prop
  | done _, s => P s
  | step change next, s => P s ∧ Always P (next s) (change s)

variable {P Q R : σ → Prop} {a : Action σ ε α} {f : α → Action σ ε β} {s s' : σ} {x : α}

theorem always_iff : Always P a s ↔ ∀ n, P (a.after n s) := by
  induction a generalizing s with
  | done r => exact ⟨fun h _ => h, fun h => h 0⟩
  | step change next ih =>
    constructor
    · rintro ⟨hs, h⟩ (_ | n)
      · exact hs
      · exact (ih s).1 h n
    · exact fun h => ⟨h 0, (ih s).2 fun n => h (n + 1)⟩

theorem Always.run (h : Always P a s) : P (a.run s).2 := by
  rw [← after_of_le (Nat.le_refl (a.steps s))]
  exact always_iff.1 h _

theorem Always.mono (h : Always P a s) (himp : ∀ t, P t → Q t) : Always Q a s :=
  always_iff.2 fun n => himp _ (always_iff.1 h n)

/-- What every step keeps holds at every moment. -/
theorem Keeps.always (h : Keeps P a) (hs : P s) : Always P a s := by
  induction a generalizing s with
  | done r => exact hs
  | step change next ih => exact ⟨hs, ih s (h s hs).2 (h s hs).1⟩

theorem always_atomic {g : σ → Except ε α × σ} (hs : P s) (hend : P ((atomic g).run s).2) :
    Always P (atomic g) s := ⟨hs, hend⟩

theorem Always.bind (h : Always P a s) (hf : ∀ x s', a.run s = (.ok x, s') → Always P (f x) s') :
    Always P (a >>= f) s := by
  change Always P (Action.bind a f) s
  induction a generalizing s with
  | done r =>
    cases r with
    | ok x => exact hf x s rfl
    | error e => exact h
  | step change next ih => exact ⟨h.1, ih s h.2 hf⟩

theorem Always.bind_ok (h : Always P a s) (hrun : a.run s = (.ok x, s')) (hf : Always P (f x) s') :
    Always P (a >>= f) s :=
  h.bind fun y t hy => by
    rw [hrun] at hy
    cases hy
    exact hf

theorem Always.bind_error {e : ε} (h : Always P a s) (hrun : a.run s = (.error e, s')) :
    Always P (a >>= f) s :=
  h.bind fun y t hy => by
    rw [hrun] at hy
    cases hy

/-- What is made of the value takes no step. -/
theorem Always.bind_pure (h : Always P a s) (g : α → β) :
    Always P (a >>= fun x => (pure (g x) : Action σ ε β)) s :=
  h.bind fun _ _ hrun => by
    have hend := h.run
    rw [hrun] at hend
    exact hend

theorem Always.outcome (h : Always P a s) : Always P (outcome a) s := by
  induction a generalizing s with
  | done r => exact h
  | step change next ih => exact ⟨h.1, ih s h.2⟩

/-- What follows an outcome follows the run that has it. -/
theorem Always.bind_outcome {g : Except ε α → Action σ ε β} {r : Except ε α} (h : Always P a s)
    (hrun : a.run s = (r, s')) (hg : Always P (g r) s') : Always P (Action.outcome a >>= g) s :=
  h.outcome.bind_ok (by rw [run_outcome, hrun]) hg

theorem Always.ensuring {fin : Action σ ε Unit} {r : Except ε α} (h : Always P a s)
    (hrun : a.run s = (r, s')) (hfin : Always P fin s') : Always P (ensuring a fin) s :=
  h.bind_outcome hrun <| hfin.bind fun _ _ hend => by
    have hlast := hfin.run
    rw [hend] at hlast
    exact hlast

/-! ## What is upheld -/

/-- Begun where the predicate holds, the action makes it hold at every moment. A single step may rely on
those before it. -/
def Upholds (P : σ → Prop) (a : Action σ ε α) : Prop := ∀ s, P s → Always P a s

theorem Keeps.upholds (h : Keeps P a) : Upholds P a := fun _ hs => h.always hs

theorem Upholds.bind (ha : Upholds P a) (hf : ∀ x, Upholds P (f x)) : Upholds P (a >>= f) := fun s hs =>
  (ha s hs).bind fun x s' hrun => hf x s' <| by
    have hend := (ha s hs).run
    rwa [hrun] at hend

theorem Upholds.discard (ha : Upholds P a) : Upholds P (discard a : Action σ ε PUnit) :=
  ha.bind fun _ => (keeps_pure _).upholds

theorem Upholds.outcome (ha : Upholds P a) : Upholds P (Action.outcome a) := fun s hs => (ha s hs).outcome

theorem upholds_ite {c : Prop} [Decidable c] {a b : Action σ ε α} (ha : c → Upholds P a)
    (hb : ¬ c → Upholds P b) : Upholds P (if c then a else b) := by
  split
  · exact ha ‹_›
  · exact hb ‹_›

theorem upholds_forM {xs : List β} {f : β → Action σ ε PUnit} (h : ∀ x ∈ xs, Upholds P (f x)) :
    Upholds P (xs.forM f) := by
  induction xs with
  | nil => exact (keeps_pure _).upholds
  | cons x xs ih =>
    exact (h x List.mem_cons_self).bind fun _ => ih fun y hy => h y (List.mem_cons_of_mem x hy)

/-! ## The first steps -/

/-- The action takes so many steps, the predicate holds before each of them, and what is left of the
action goes on. -/
inductive Trail (P : σ → Prop) : Action σ ε α → σ → Nat → Action σ ε α → σ → Prop
  | nil {a : Action σ ε α} {s : σ} : Trail P a s 0 a s
  | cons {change : σ → σ} {next : σ → Action σ ε α} {s s' : σ} {n : Nat} {a' : Action σ ε α} (h : P s)
      (rest : Trail P (next s) (change s) n a' s') : Trail P (step change next) s (n + 1) a' s'

variable {a' a'' : Action σ ε α} {s'' : σ} {n m : Nat}

theorem Trail.trans (h : Trail P a s n a' s') (h' : Trail P a' s' m a'' s'') :
    Trail P a s (n + m) a'' s'' := by
  induction h with
  | nil => rwa [Nat.zero_add]
  | cons hs _ ih =>
    rw [Nat.add_right_comm]
    exact .cons hs (ih h')

theorem Trail.mono (h : Trail P a s n a' s') (himp : ∀ t, P t → Q t) : Trail Q a s n a' s' := by
  induction h with
  | nil => exact .nil
  | cons hs _ ih => exact .cons (himp _ hs) ih

theorem Trail.after_lt (h : Trail P a s n a' s') {i : Nat} (hi : i < n) : P (a.after i s) := by
  induction h generalizing i with
  | nil => simp at hi
  | cons hs _ ih =>
    cases i with
    | zero => exact hs
    | succ i => exact ih (by simpa using hi)

theorem Trail.after_add (h : Trail P a s n a' s') (m : Nat) : a.after (n + m) s = a'.after m s' := by
  induction h with
  | nil => rw [Nat.zero_add]
  | cons hs _ ih =>
    rw [Nat.add_right_comm]
    exact ih

theorem Trail.steps (h : Trail P a s n a' s') : a.steps s = n + a'.steps s' := by
  induction h with
  | nil => rw [Nat.zero_add]
  | cons hs _ ih =>
    rw [Nat.add_right_comm]
    exact congrArg (· + 1) ih

theorem Trail.run (h : Trail P a s n a' s') : a.run s = a'.run s' := by
  induction h with
  | nil => rfl
  | cons _ _ ih => exact ih

/-- Behind a trail the predicate goes on to hold. -/
theorem Trail.always (h : Trail P a s n a' s') (h' : Always P a' s') : Always P a s := by
  induction h with
  | nil => exact h'
  | cons hs _ ih => exact ⟨hs, ih h'⟩

theorem Trail.bind (h : Trail P a s n a' s') (f : α → Action σ ε β) :
    Trail P (a >>= f) s n (a' >>= f) s' := by
  induction h with
  | nil => exact .nil
  | cons hs _ ih => exact .cons hs ih

theorem Trail.outcome (h : Trail P a s n a' s') : Trail P (outcome a) s n (Action.outcome a') s' := by
  induction h with
  | nil => exact .nil
  | cons hs _ ih => exact .cons hs ih

theorem Trail.ensuring (h : Trail P a s n a' s') (fin : Action σ ε Unit) :
    Trail P (ensuring a fin) s n (Action.ensuring a' fin) s' := h.outcome.bind _

theorem Always.trail {r : Except ε α} (h : Always P a s) (hrun : a.run s = (r, s')) :
    Trail P a s (a.steps s) (done r) s' := by
  induction a generalizing s with
  | done r' =>
    cases hrun
    exact .nil
  | step change next ih => exact .cons h.1 (ih s h.2 hrun)

/-- An action that ends well leads to what follows it. -/
theorem Always.trail_bind (h : Always P a s) (hrun : a.run s = (.ok x, s')) (f : α → Action σ ε β) :
    Trail P (a >>= f) s (a.steps s) (f x) s' := (h.trail hrun).bind f

/-- The steps of the second action come on top of those of the first one. -/
theorem steps_bind_ok (hrun : a.run s = (.ok x, s')) (f : α → Action σ ε β) :
    (a >>= f).steps s = a.steps s + (f x).steps s' := by
  have hall : Always (fun _ : σ => True) a s := always_iff.2 fun _ => trivial
  exact (hall.trail_bind hrun f).steps

/-! ## Turns -/

/-- One predicate holds before so many steps have been taken, and the other one from then on. -/
def Turns (P Q : σ → Prop) (a : Action σ ε α) (s : σ) (n : Nat) : Prop :=
  ∃ a' s', Trail P a s n a' s' ∧ Always Q a' s'

theorem Trail.turns (h : Trail P a s n a' s') (h' : Turns P Q a' s' m) : Turns P Q a s (n + m) := by
  obtain ⟨a'', s'', htrail, hend⟩ := h'
  exact ⟨a'', s'', h.trans htrail, hend⟩

/-- A single step turns. -/
theorem turns_atomic {g : σ → Except ε α × σ} (hs : P s) (hend : Q (g s).2) :
    Turns P Q (atomic g) s 1 :=
  ⟨_, _, .cons hs .nil, hend⟩

theorem Turns.bind (h : Turns P Q a s n) (hf : ∀ x s', a.run s = (.ok x, s') → Always Q (f x) s') :
    Turns P Q (a >>= f) s n := by
  obtain ⟨a', s', htrail, hend⟩ := h
  exact ⟨_, _, htrail.bind f, hend.bind fun x t hrun => hf x t (htrail.run.trans hrun)⟩

theorem Turns.bind_pure (h : Turns P Q a s n) (g : α → β) :
    Turns P Q (a >>= fun x => (pure (g x) : Action σ ε β)) s n := by
  obtain ⟨a', s', htrail, hend⟩ := h
  exact ⟨_, _, htrail.bind _, hend.bind_pure g⟩

theorem Turns.mono {P' Q' : σ → Prop} (h : Turns P Q a s n) (hP : ∀ t, P t → P' t) (hQ : ∀ t, Q t → Q' t) :
    Turns P' Q' a s n := by
  obtain ⟨a', s', htrail, hend⟩ := h
  exact ⟨a', s', htrail.mono hP, hend.mono hQ⟩

/-- What both predicates imply holds throughout. -/
theorem Turns.always (h : Turns P Q a s n) (hP : ∀ t, P t → R t) (hQ : ∀ t, Q t → R t) : Always R a s := by
  obtain ⟨a', s', htrail, hend⟩ := h
  exact (htrail.mono hP).always (hend.mono hQ)

/-! ## Beginnings -/

/-- The action begins like the first one. If that one ends well the action goes on from there, with
something that is left to do; else the predicate holds throughout. -/
structure Leads (P : σ → Prop) (p : Action σ ε α) (a : Action σ ε β) (s : σ)
    (Q : α → σ → Action σ ε β → Prop) : Prop where
  fails : ∀ e t, p.run s = (.error e, t) → Always P a s
  goes : ∀ x t, p.run s = (.ok x, t) → ∃ a', Trail P a s (p.steps s) a' t ∧ Q x t a'

section Leads

variable {γ : Type} {p : Action σ ε α} {c : Action σ ε γ} {Q' : α → σ → Action σ ε γ → Prop}

theorem Leads.mono {P' : σ → Prop} {R' : α → σ → Action σ ε γ → Prop} (h : Leads P p c s Q')
    (hP : ∀ t, P t → P' t) (hQ : ∀ x t c', p.run s = (.ok x, t) → Q' x t c' → R' x t c') :
    Leads P' p c s R' where
  fails e t hrun := (h.fails e t hrun).mono hP
  goes x t hrun := by
    obtain ⟨c', htrail, hc'⟩ := h.goes x t hrun
    exact ⟨c', htrail.mono hP, hQ x t c' hrun hc'⟩

/-- An action begins like its first part. -/
theorem leads_bind (h : Always P a s) (f : α → Action σ ε γ) :
    Leads P a (a >>= f) s fun x _ c' => c' = f x where
  fails _ _ hrun := h.bind_error hrun
  goes x _ hrun := ⟨f x, h.trail_bind hrun f, rfl⟩

theorem leads_pure {x : α} (h : Q' x s c) : Leads P (pure x) c s Q' where
  fails e t hrun := by cases hrun
  goes y t hrun := by
    cases hrun
    exact ⟨c, .nil, h⟩

/-- What is left to do begins like the next part. -/
theorem Leads.bind {q : α → Action σ ε β} {R' : β → σ → Action σ ε γ → Prop} (h : Leads P p c s Q')
    (hq : ∀ x t c', p.run s = (.ok x, t) → Q' x t c' → Leads P (q x) c' t R') :
    Leads P (p >>= q) c s R' where
  fails e t hrun := by
    rw [run_bind] at hrun
    cases hp : p.run s with
    | mk r s' =>
      cases r with
      | error e' => exact h.fails e' s' hp
      | ok x =>
        rw [hp] at hrun
        obtain ⟨c', htrail, hc'⟩ := h.goes x s' hp
        exact htrail.always ((hq x s' c' hp hc').fails e t hrun)
  goes y t hrun := by
    obtain ⟨x, s', hp, hq'⟩ := of_run_bind_ok hrun
    obtain ⟨c', htrail, hc'⟩ := h.goes x s' hp
    obtain ⟨c'', htrail', hc''⟩ := (hq x s' c' hp hc').goes y t hq'
    exact ⟨c'', steps_bind_ok hp q ▸ htrail.trans htrail', hc''⟩

theorem Leads.ensuring {fin : Action σ ε Unit} (h : Leads P p c s Q')
    (hfin : ∀ t, P t → Always P fin t) :
    Leads P p (Action.ensuring c fin) s fun x t c' => ∃ c'', c' = Action.ensuring c'' fin ∧ Q' x t c'' where
  fails e t hrun := (h.fails e t hrun).ensuring rfl (hfin _ (h.fails e t hrun).run)
  goes x t hrun := by
    obtain ⟨c', htrail, hc'⟩ := h.goes x t hrun
    exact ⟨_, htrail.ensuring fin, c', rfl, hc'⟩

/-- What follows an outcome comes into play early if the first part fails. -/
theorem leads_outcome {f : α → Action σ ε β} {g : Except ε β → Action σ ε γ} (h : Always P a s)
    (hg : ∀ e t, a.run s = (.error e, t) → Always P (g (.error e)) t) :
    Leads P a (Action.outcome (a >>= f) >>= g) s fun x _ c' => c' = Action.outcome (f x) >>= g where
  fails e t hrun := (h.bind_error hrun).bind_outcome (run_bind_error hrun) (hg e t hrun)
  goes _ _ hrun := ⟨_, ((h.trail_bind hrun f).outcome).bind g, rfl⟩

end Leads

end FlowPlan.Action

import FlowPlan.Proofs.Action
import Mathlib

/-!
# Actions that run together

Actions that share a state take turns, one atomic step at a time. Who is next is left open; only so many
may have begun at a time, and the others wait in a line.

What an action comes to is settled by itself as long as the others keep their hands off what is its own.
So each action is looked at alone, with anything that it tolerates happening between its steps, and it has
to be shown that its own steps are tolerated by the others. All of them together are then safe, however
they take turns.

## Main definitions

* `Pool` — actions that share a state, and `Pool.Step`, one turn of one of them.
* `Tolerance` — which changes of the state leave whom alone.
* `Action.Secure` — an action that comes to its end undisturbed and disturbs no one.
* `Pool.Safe` — all actions of a pool are secure.

## Main statements

* `Pool.Step.inversion` — what a turn can do.
* `Pool.Safe.step`, `Pool.Safe.runs` — a turn, and any number of them.
* `Pool.wellFounded_step`, `Pool.progress` — turns come to an end, and only when all actions have.
* `Pool.runs_inTurn` — the actions one after another are one way to take turns.
-/

namespace FlowPlan

/-- Actions that share a state, by their names: those that wait, those that have begun, and the outcomes
of those that have ended. -/
structure Pool (κ σ ε α : Type) where
  state : σ
  waiting : List (κ × Action σ ε α)
  running : List (κ × Action σ ε α)
  ended : List (κ × Except ε α)

/-- Which changes of a state leave someone alone who is named, and which leave an onlooker alone. -/
structure Tolerance (κ σ : Type) where
  Allows : Option κ → σ → σ → Prop
  refl : ∀ k s, Allows k s s
  trans : ∀ {k s s' s''}, Allows k s s' → Allows k s' s'' → Allows k s s''

namespace Action

variable {κ σ ε α : Type} {T : Tolerance κ σ} {k : κ} {Q : Except ε α → σ → Prop}
  {a : Action σ ε α} {s s' : σ}

/-- The action ends as it should whatever happens between its steps that it tolerates, and each of its
steps leaves all others and an onlooker alone. -/
def Secure (T : Tolerance κ σ) (k : κ) (Q : Except ε α → σ → Prop) : Action σ ε α → σ → Prop
  | done r, s => ∀ s', T.Allows (some k) s s' → Q r s'
  | step change next, s => ∀ s', T.Allows (some k) s s' →
      (∀ j, j ≠ some k → T.Allows j s' (change s')) ∧ Secure T k Q (next s') (change s')

/-- What is tolerated may happen before the action as well. -/
theorem Secure.of_allows (h : Secure T k Q a s) (hs : T.Allows (some k) s s') : Secure T k Q a s' := by
  cases a with
  | done r => exact fun t ht => h t (T.trans hs ht)
  | step change next => exact fun t ht => h t (T.trans hs ht)

theorem Secure.imp {Q' : Except ε α → σ → Prop} (h : Secure T k Q a s) (himp : ∀ r t, Q r t → Q' r t) :
    Secure T k Q' a s := by
  induction a generalizing s with
  | done r => exact fun t ht => himp r t (h t ht)
  | step change next ih => exact fun t ht => ⟨(h t ht).1, ih t (h t ht).2⟩

/-! ## Single steps -/

section Steps

variable {β : Type} {f : β → Action σ ε α}

/-- To look at the state leaves everyone alone. -/
theorem secure_look {read : σ → β} (h : ∀ t, T.Allows (some k) s t → Secure T k Q (f (read t)) t) :
    Secure T k Q (look read >>= f) s :=
  fun t ht => ⟨fun j _ => T.refl j t, h t ht⟩

theorem secure_atomic {g : σ → Except ε β × σ} (h : ∀ t, T.Allows (some k) s t →
      (∀ j, j ≠ some k → T.Allows j t (g t).2) ∧ Secure T k Q (lift (g t).1 >>= f) (g t).2) :
    Secure T k Q (atomic g >>= f) s :=
  fun t ht => ⟨(h t ht).1, (h t ht).2⟩

theorem secure_modify {change : σ → σ} {f : Unit → Action σ ε α} (h : ∀ t, T.Allows (some k) s t →
      (∀ j, j ≠ some k → T.Allows j t (change t)) ∧ Secure T k Q (f ()) (change t)) :
    Secure T k Q (modify change >>= f) s :=
  fun t ht => ⟨(h t ht).1, (h t ht).2⟩

end Steps

/-- An action that has made a step. -/
def Follows (b a : Action σ ε α) : Prop := ∃ change next s, a = step change next ∧ b = next s

theorem wellFounded_follows : WellFounded (Follows : Action σ ε α → Action σ ε α → Prop) := by
  refine ⟨fun a => ?_⟩
  induction a with
  | done r =>
    refine .intro _ ?_
    rintro b ⟨change, next, s, heq, -⟩
    cases heq
  | step change next ih =>
    refine .intro _ ?_
    rintro b ⟨change, next, s, heq, rfl⟩
    cases heq
    exact ih s

end Action

namespace Pool

variable {κ σ ε α : Type} {limit : Nat} {p p' : Pool κ σ ε α} {T : Tolerance κ σ}
  {Q : κ → Except ε α → σ → Prop}

/-- One turn: the first that waits begins, if so many may; one that has begun makes a step, or its
outcome is taken. -/
inductive Step (limit : Nat) : Pool κ σ ε α → Pool κ σ ε α → Prop
  | begin {s job waiting running ended} (hlimit : running.length < limit) :
      Step limit ⟨s, job :: waiting, running, ended⟩ ⟨s, waiting, job :: running, ended⟩
  | advance (s waiting before k change next after ended) :
      Step limit ⟨s, waiting, before ++ (k, .step change next) :: after, ended⟩
        ⟨change s, waiting, before ++ (k, next s) :: after, ended⟩
  | finish (s waiting before k r after ended) :
      Step limit ⟨s, waiting, before ++ (k, .done r) :: after, ended⟩
        ⟨s, waiting, before ++ after, ended ++ [(k, r)]⟩

/-- Any number of turns. -/
abbrev Runs (limit : Nat) : Pool κ σ ε α → Pool κ σ ε α → Prop := Relation.ReflTransGen (Step limit)

/-- All actions have ended. -/
def Final (p : Pool κ σ ε α) : Prop := p.waiting = [] ∧ p.running = []

/-- All have to wait at first. -/
def start (s : σ) (jobs : List (κ × Action σ ε α)) : Pool κ σ ε α := ⟨s, jobs, [], []⟩

/-- All actions of the pool. One that has ended is one that does nothing more. -/
def jobs (p : Pool κ σ ε α) : List (κ × Action σ ε α) :=
  p.waiting ++ p.running ++ p.ended.map fun e => (e.1, .done e.2)

/-- How often actions have yet to begin and to be taken off. -/
def pending (p : Pool κ σ ε α) : Nat := 2 * p.waiting.length + p.running.length

/-! ## One turn -/

/-- A turn moves an action on in the pool, or replaces it by what follows after a step. -/
theorem Step.inversion (h : Step limit p p') :
    p'.jobs.Perm p.jobs ∧ p'.state = p.state ∧ p'.pending < p.pending ∨
      ∃ k change next rest, p.jobs.Perm ((k, .step change next) :: rest) ∧
        p'.jobs.Perm ((k, next p.state) :: rest) ∧ p'.state = change p.state := by
  cases h with
  | begin hlimit =>
    refine .inl ⟨?_, rfl, by simp [pending]; omega⟩
    simp only [jobs, List.append_assoc, List.cons_append]
    exact List.perm_middle
  | advance s waiting before k change next after ended =>
    refine .inr ⟨k, change, next, waiting ++ before ++ after ++ ended.map fun e => (e.1, .done e.2), ?_, ?_, rfl⟩
    all_goals
      simp only [jobs, List.append_assoc, List.cons_append]
      rw [← List.append_assoc, ← List.append_assoc waiting]
      exact List.perm_middle
  | finish s waiting before k r after ended =>
    refine .inl ⟨?_, rfl, by simp [pending]⟩
    simp only [jobs, List.append_assoc, List.cons_append, List.map_append, List.map_cons, List.map_nil]
    refine .append_left _ (.append_left _ ?_)
    rw [← List.append_assoc]
    exact List.perm_append_singleton _ _

theorem Step.names (h : Step limit p p') : (p'.jobs.map (·.1)).Perm (p.jobs.map (·.1)) := by
  rcases h.inversion with ⟨hjobs, -, -⟩ | ⟨k, change, next, rest, hjobs, hjobs', -⟩
  · exact hjobs.map _
  · exact (hjobs'.map (·.1)).trans (hjobs.map (·.1)).symm

/-- Every action is secure, and no two have the same name. -/
structure Safe (T : Tolerance κ σ) (Q : κ → Except ε α → σ → Prop) (p : Pool κ σ ε α) : Prop where
  names : (p.jobs.map (·.1)).Nodup
  secure : ∀ j ∈ p.jobs, j.2.Secure T j.1 (Q j.1) p.state

theorem Safe.of_perm (h : Safe T Q p) (hjobs : p'.jobs.Perm p.jobs) (hstate : p'.state = p.state) :
    Safe T Q p' :=
  ⟨(hjobs.map _).nodup_iff.2 h.names, fun j hj => hstate ▸ h.secure j (hjobs.mem_iff.1 hj)⟩

/-- A turn leaves all actions secure, and an onlooker alone. -/
theorem Safe.step (h : Safe T Q p) (hstep : Step limit p p') :
    Safe T Q p' ∧ T.Allows none p.state p'.state := by
  rcases hstep.inversion with ⟨hjobs, hstate, -⟩ | ⟨k, change, next, rest, hjobs, hjobs', hstate⟩
  · exact ⟨h.of_perm hjobs hstate, hstate ▸ T.refl none _⟩
  · have hown := h.secure _ (hjobs.mem_iff.2 List.mem_cons_self) _ (T.refl _ _)
    refine ⟨⟨hstep.names.nodup_iff.2 h.names, fun j hj => ?_⟩, hstate ▸ hown.1 none nofun⟩
    rw [hstate]
    rcases List.mem_cons.1 (hjobs'.mem_iff.1 hj) with rfl | hrest
    · exact hown.2
    -- The others have other names, and tolerate the step.
    · have hne : j.1 ≠ k := by
        have hnames := (hjobs.map (·.1)).nodup_iff.1 h.names
        intro heq
        have hmem : j.1 ∈ rest.map (·.1) := List.mem_map_of_mem hrest
        exact (List.nodup_cons.1 hnames).1 (heq ▸ hmem)
      refine (h.secure j (hjobs.mem_iff.2 (List.mem_cons_of_mem _ hrest))).of_allows (hown.1 _ ?_)
      exact fun heq => hne (Option.some.inj heq)

/-! ## Any number of turns -/

theorem Safe.runs (h : Safe T Q p) (hruns : Runs limit p p') :
    Safe T Q p' ∧ T.Allows none p.state p'.state ∧ (p'.jobs.map (·.1)).Perm (p.jobs.map (·.1)) := by
  induction hruns with
  | refl => exact ⟨h, T.refl none _, .refl _⟩
  | tail _ hstep ih =>
    obtain ⟨hsafe, hallows, hnames⟩ := ih
    obtain ⟨hsafe', hallows'⟩ := hsafe.step hstep
    exact ⟨hsafe', T.trans hallows hallows', hstep.names.trans hnames⟩

theorem safe_start {s : σ} {jobs : List (κ × Action σ ε α)} (hnames : (jobs.map (·.1)).Nodup)
    (hsecure : ∀ j ∈ jobs, j.2.Secure T j.1 (Q j.1) s) : Safe T Q (start s jobs) := by
  have hjobs : (start s jobs).jobs = jobs := by simp [start, Pool.jobs]
  exact ⟨hjobs.symm ▸ hnames, hjobs.symm ▸ hsecure⟩

/-- However they have taken turns, in the end every action has ended as it should. -/
theorem ended_of_runs {s : σ} {jobs : List (κ × Action σ ε α)} (hnames : (jobs.map (·.1)).Nodup)
    (hsecure : ∀ j ∈ jobs, j.2.Secure T j.1 (Q j.1) s) (hruns : Runs limit (start s jobs) p)
    (hfinal : p.Final) : (p.ended.map (·.1)).Perm (jobs.map (·.1)) ∧ T.Allows none s p.state ∧
      ∀ e ∈ p.ended, Q e.1 e.2 p.state := by
  obtain ⟨hsafe, hallows, hperm⟩ := (safe_start hnames hsecure).runs hruns
  have hjobs : p.jobs = p.ended.map fun e => (e.1, .done e.2) := by
    rw [Pool.jobs, hfinal.1, hfinal.2]
    rfl
  refine ⟨?_, hallows, fun e he => ?_⟩
  · rw [hjobs, List.map_map] at hperm
    simpa [start, Pool.jobs, Function.comp_def] using hperm
  · refine hsafe.secure (e.1, .done e.2) ?_ _ (T.refl _ _)
    rw [hjobs]
    exact List.mem_map_of_mem he

/-! ## The end -/

/-- There is no endless sequence of turns. Actions that begin or are taken off become fewer, and a step
replaces an action by one that follows it. -/
theorem wellFounded_step (limit : Nat) : WellFounded fun p' p : Pool κ σ ε α => Step limit p p' := by
  have hwf : WellFounded (Prod.Lex (Relation.CutExpand Action.Follows)
      (· < · : Nat → Nat → Prop) : (Multiset (Action σ ε α) × Nat) → _ → Prop) :=
    Action.wellFounded_follows.cutExpand.prod_lex Nat.lt_wfRel.wf
  refine Subrelation.wf (fun {p' p} hstep => ?_)
    (InvImage.wf (fun p : Pool κ σ ε α => ((p.jobs.map (·.2) : Multiset (Action σ ε α)), p.pending)) hwf)
  rcases hstep.inversion with ⟨hjobs, -, hpending⟩ | ⟨k, change, next, rest, hjobs, hjobs', -⟩
  · have hsame : (p'.jobs.map (·.2) : Multiset (Action σ ε α)) = p.jobs.map (·.2) :=
      Multiset.coe_eq_coe.2 (hjobs.map _)
    dsimp only [InvImage]
    rw [hsame]
    exact .right _ hpending
  · refine .left _ _ ?_
    rw [Multiset.coe_eq_coe.2 (hjobs.map (·.2)), Multiset.coe_eq_coe.2 (hjobs'.map (·.2)), List.map_cons,
      List.map_cons, ← Multiset.cons_coe, ← Multiset.cons_coe, ← Multiset.singleton_add,
      ← Multiset.singleton_add]
    exact Relation.cutExpand_single_add ⟨change, next, p.state, rfl, rfl⟩ _

/-- As long as not all actions have ended, one of them has a turn. -/
theorem progress (hlimit : 0 < limit) (p : Pool κ σ ε α) : p.Final ∨ ∃ p', Step limit p p' := by
  obtain ⟨s, waiting, running, ended⟩ := p
  cases running with
  | nil =>
    cases waiting with
    | nil => exact .inl ⟨rfl, rfl⟩
    | cons job waiting => exact .inr ⟨_, .begin hlimit⟩
  | cons job running =>
    obtain ⟨k, a⟩ := job
    cases a with
    | done r => exact .inr ⟨_, .finish s waiting [] k r running ended⟩
    | step change next => exact .inr ⟨_, .advance s waiting [] k change next running ended⟩

/-! ## One after another -/

/-- The outcomes of actions of which each runs alone, one after another, and the state that they leave. -/
def inTurn : List (κ × Action σ ε α) → σ → List (κ × Except ε α) × σ
  | [], s => ([], s)
  | j :: jobs, s => ((j.1, (j.2.run s).1) :: (inTurn jobs (j.2.run s).2).1, (inTurn jobs (j.2.run s).2).2)

/-- An action that has all turns for itself runs as it does alone. -/
theorem runs_alone (s : σ) (waiting : List (κ × Action σ ε α)) (k : κ) (a : Action σ ε α)
    (ended : List (κ × Except ε α)) :
    Runs limit ⟨s, waiting, [(k, a)], ended⟩ ⟨(a.run s).2, waiting, [], ended ++ [(k, (a.run s).1)]⟩ := by
  induction a generalizing s with
  | done r => exact .single (.finish s waiting [] k r [] ended)
  | step change next ih => exact .head (.advance s waiting [] k change next [] ended) (ih s (change s))

/-- The actions one after another are one of the ways in which they may take turns. -/
theorem runs_inTurn (hlimit : 0 < limit) (jobs : List (κ × Action σ ε α)) (s : σ)
    (ended : List (κ × Except ε α)) :
    Runs limit ⟨s, jobs, [], ended⟩ ⟨(inTurn jobs s).2, [], [], ended ++ (inTurn jobs s).1⟩ := by
  induction jobs generalizing s ended with
  | nil =>
    rw [inTurn, List.append_nil]
  | cons j jobs ih =>
    have hfirst : Runs limit ⟨s, jobs, [j], ended⟩
        ⟨(j.2.run s).2, jobs, [], ended ++ [(j.1, (j.2.run s).1)]⟩ := runs_alone s jobs j.1 j.2 ended
    have hrest := ih (j.2.run s).2 (ended ++ [(j.1, (j.2.run s).1)])
    rw [List.append_assoc] at hrest
    exact .head (.begin hlimit) (hfirst.trans hrest)

end Pool

end FlowPlan

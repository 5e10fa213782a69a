import FlowPlan.Fault

/-!
# Computations that end well

Lists of computations, each of which may fail.

## Main statements

* `Attempt.bind_eq_ok` — two computations, one after the other.
* `Attempt.forM_eq_ok` — a list of checks.
* `Attempt.mapM_eq_ok`, `Attempt.mapM_isOk`, `Attempt.mapM_eq_error` — a list of results.
* `Attempt.filterM_eq_ok`, `Attempt.foldlM_eq_ok` — a list filtered, and one folded.
* `Attempt.Both.bind` — two pairs of computations that end together.
-/

namespace FlowPlan.Attempt

variable {α β γ : Type}

theorem bind_eq_ok {x : Attempt α} {f : α → Attempt β} {b : β} :
    x >>= f = .ok b ↔ ∃ a, x = .ok a ∧ f a = .ok b := by
  cases x with
  | ok a => simp [bind, Except.bind]
  | error e => simp [bind, Except.bind]

/-- A check, and what comes after it. -/
theorem check_bind_eq_ok {x : Attempt Unit} {f : Unit → Attempt β} {b : β} :
    x >>= f = .ok b ↔ x = .ok () ∧ f () = .ok b := by
  rw [bind_eq_ok]
  constructor
  · rintro ⟨_, hx, hf⟩
    exact ⟨hx, hf⟩
  · rintro ⟨hx, hf⟩
    exact ⟨(), hx, hf⟩

@[simp] theorem ok_bind (a : α) (f : α → Attempt β) : (Except.ok a : Attempt α) >>= f = f a := rfl

@[simp] theorem error_bind (e : Fault) (f : α → Attempt β) :
    (Except.error e : Attempt α) >>= f = .error e := rfl

@[simp] theorem pure_eq_ok (a : α) : (pure a : Attempt α) = .ok a := rfl

/-- A list of checks passes if every one of them does. -/
theorem forM_eq_ok {xs : List α} {f : α → Attempt PUnit} :
    xs.forM f = .ok ⟨⟩ ↔ ∀ x ∈ xs, f x = .ok ⟨⟩ := by
  induction xs with
  | nil => simp
  | cons x xs ih =>
    change (f x >>= fun _ => xs.forM f) = .ok ⟨⟩ ↔ _
    rw [check_bind_eq_ok, List.forall_mem_cons, ← ih]

theorem mapM_eq_ok {xs : List α} {f : α → Attempt β} {g : α → β} (h : ∀ x ∈ xs, f x = .ok (g x)) :
    xs.mapM f = .ok (xs.map g) := by
  induction xs with
  | nil => rfl
  | cons x xs ih =>
    have hx := h x List.mem_cons_self
    have hxs := ih fun y hy => h y (List.mem_cons_of_mem x hy)
    rw [List.mapM_cons, hx, ok_bind, hxs, ok_bind]
    rfl

theorem mapM_isOk {xs : List α} {f : α → Attempt β} :
    (∃ ys, xs.mapM f = .ok ys) ↔ ∀ x ∈ xs, ∃ y, f x = .ok y := by
  induction xs with
  | nil => simp
  | cons x xs ih =>
    rw [List.mapM_cons, List.forall_mem_cons, ← ih]
    constructor
    · rintro ⟨zs, h⟩
      obtain ⟨y, hy, h⟩ := bind_eq_ok.1 h
      obtain ⟨ys, hys, -⟩ := bind_eq_ok.1 h
      exact ⟨⟨y, hy⟩, ys, hys⟩
    · rintro ⟨⟨y, hy⟩, ys, hys⟩
      rw [hy, ok_bind, hys, ok_bind]
      exact ⟨_, rfl⟩

/-- A list of computations fails with the first that does. -/
theorem mapM_eq_error {xs ys : List α} {x : α} {f : α → Attempt β} {e : Fault}
    (hxs : ∀ x ∈ xs, ∃ y, f x = .ok y) (hx : f x = .error e) : (xs ++ x :: ys).mapM f = .error e := by
  obtain ⟨zs, hzs⟩ := mapM_isOk.2 hxs
  rw [List.mapM_append, hzs, ok_bind, List.mapM_cons, hx]
  rfl

theorem mem_of_mapM {xs : List α} {f : α → Attempt β} {ys : List β} (h : xs.mapM f = .ok ys) {y : β}
    (hy : y ∈ ys) : ∃ x ∈ xs, f x = .ok y := by
  induction xs generalizing ys with
  | nil =>
    cases h
    cases hy
  | cons x xs ih =>
    rw [List.mapM_cons] at h
    obtain ⟨z, hz, h⟩ := bind_eq_ok.1 h
    obtain ⟨zs, hzs, h⟩ := bind_eq_ok.1 h
    cases h
    rcases List.mem_cons.1 hy with rfl | hy
    · exact ⟨x, List.mem_cons_self, hz⟩
    · obtain ⟨x', hx', hy'⟩ := ih hzs hy
      exact ⟨x', List.mem_cons_of_mem x hx', hy'⟩

/-- Everything that was mapped has its result in the list. -/
theorem result_of_mapM {xs : List α} {f : α → Attempt β} {ys : List β} (h : xs.mapM f = .ok ys) {x : α}
    (hx : x ∈ xs) : ∃ y ∈ ys, f x = .ok y := by
  induction xs generalizing ys with
  | nil => cases hx
  | cons z xs ih =>
    rw [List.mapM_cons] at h
    obtain ⟨y, hy, h⟩ := bind_eq_ok.1 h
    obtain ⟨zs, hzs, h⟩ := bind_eq_ok.1 h
    cases h
    rcases List.mem_cons.1 hx with rfl | hx
    · exact ⟨y, List.mem_cons_self, hy⟩
    · obtain ⟨y', hy', hx'⟩ := ih hzs hx
      exact ⟨y', List.mem_cons_of_mem y hy', hx'⟩

/-- What every result keeps of its origin, the list of results keeps. -/
theorem map_of_mapM {xs : List α} {f : α → Attempt β} {ys : List β} (h : xs.mapM f = .ok ys)
    {g : β → γ} {k : α → γ} (hkeeps : ∀ x ∈ xs, ∀ y, f x = .ok y → g y = k x) :
    ys.map g = xs.map k := by
  induction xs generalizing ys with
  | nil =>
    cases h
    rfl
  | cons x xs ih =>
    rw [List.mapM_cons] at h
    obtain ⟨y, hy, h⟩ := bind_eq_ok.1 h
    obtain ⟨zs, hzs, h⟩ := bind_eq_ok.1 h
    cases h
    rw [List.map_cons, List.map_cons, hkeeps x List.mem_cons_self y hy,
      ih hzs fun z hz => hkeeps z (List.mem_cons_of_mem x hz)]

/-- What is read off every result is what is read off its origin. -/
theorem mapM_of_mapM {xs : List α} {f : α → Attempt β} {ys : List β} (h : xs.mapM f = .ok ys)
    {g : β → Attempt γ} {k : α → γ} (hreads : ∀ x ∈ xs, ∀ y, f x = .ok y → g y = .ok (k x)) :
    ys.mapM g = .ok (xs.map k) := by
  induction xs generalizing ys with
  | nil =>
    cases h
    rfl
  | cons x xs ih =>
    rw [List.mapM_cons] at h
    obtain ⟨y, hy, h⟩ := bind_eq_ok.1 h
    obtain ⟨zs, hzs, h⟩ := bind_eq_ok.1 h
    cases h
    rw [List.mapM_cons, hreads x List.mem_cons_self y hy, ok_bind,
      ih hzs fun z hz => hreads z (List.mem_cons_of_mem x hz), ok_bind]
    rfl

theorem filterM_eq_ok {xs : List α} {f : α → Attempt Bool} {p : α → Bool}
    (h : ∀ x ∈ xs, f x = .ok (p x)) : xs.filterM f = .ok (xs.filter p) := by
  have haux : ∀ acc, List.filterAuxM f xs acc = .ok ((xs.filter p).reverse ++ acc) := by
    induction xs with
    | nil => exact fun _ => rfl
    | cons x xs ih =>
      intro acc
      have hx := h x List.mem_cons_self
      rw [List.filterAuxM, hx, ok_bind, ih fun y hy => h y (List.mem_cons_of_mem x hy)]
      cases hp : p x <;> simp [hp]
  rw [List.filterM, haux]
  simp [bind, Except.bind, pure, Except.pure]

theorem foldlM_eq_ok {xs : List α} {f : β → α → Attempt β} {g : β → α → β} (b : β)
    (h : ∀ b, ∀ x ∈ xs, f b x = .ok (g b x)) : xs.foldlM f b = .ok (xs.foldl g b) := by
  induction xs generalizing b with
  | nil => rfl
  | cons x xs ih =>
    rw [List.foldlM_cons, h b x List.mem_cons_self, ok_bind, List.foldl_cons]
    exact ih _ fun b y hy => h b y (List.mem_cons_of_mem x hy)

/-- What holds along the way, told by the part that is done, holds of the whole fold. -/
theorem foldlM_along {P : List α → β → Prop} {xs : List α} {f : β → α → Attempt β} {b : β} (hb : P [] b)
    (h : ∀ done b, P done b → ∀ x ∈ xs, ∃ c, f b x = .ok c ∧ P (done ++ [x]) c) :
    ∃ c, xs.foldlM f b = .ok c ∧ P xs c := by
  have hfold : ∀ rest done b, (∀ x ∈ rest, x ∈ xs) → P done b →
      ∃ c, rest.foldlM f b = .ok c ∧ P (done ++ rest) c := by
    intro rest
    induction rest with
    | nil => exact fun done b _ hb => ⟨b, rfl, by simpa using hb⟩
    | cons x rest ih =>
      intro done b hsub hb
      obtain ⟨c, hstep, hc⟩ := h done b hb x (hsub x List.mem_cons_self)
      obtain ⟨d, hrest, hd⟩ := ih (done ++ [x]) c (fun y hy => hsub y (List.mem_cons_of_mem x hy)) hc
      refine ⟨d, ?_, by simpa using hd⟩
      rw [List.foldlM_cons, hstep]
      exact hrest
  simpa using hfold xs [] b (fun _ hx => hx) hb

/-- Messages that are gathered are none if there is none of any kind. -/
theorem mapM_flatten_eq_nil {xs : List α} {f : α → Attempt (List β)} :
    (xs.mapM f >>= fun ms => pure ms.flatten) = .ok [] ↔ ∀ x ∈ xs, f x = .ok [] := by
  constructor
  · intro h x hx
    obtain ⟨ms, hms, hflatten⟩ := bind_eq_ok.1 h
    obtain ⟨m, hm, hfx⟩ := result_of_mapM hms hx
    have hnil : ms.flatten = [] := Except.ok.inj hflatten
    rw [hfx, List.flatten_eq_nil_iff.1 hnil m hm]
  · intro h
    rw [mapM_eq_ok h, ok_bind, pure_eq_ok]
    simp

/-! ## Two computations that end together -/

/-- Both computations fail, or both end well with related results. -/
inductive Both (P : α → β → Prop) : Attempt α → Attempt β → Prop
  | ok {a : α} {b : β} (h : P a b) : Both P (.ok a) (.ok b)
  | error (e e' : Fault) : Both P (.error e) (.error e')

namespace Both

variable {δ : Type} {P : α → β → Prop} {x : Attempt α} {y : Attempt β}

theorem same (x : Attempt α) : Both Eq x x := by
  cases x with
  | ok a => exact .ok rfl
  | error e => exact .error e e

theorem bind {Q : γ → δ → Prop} {f : α → Attempt γ} {g : β → Attempt δ} (h : Both P x y)
    (hrest : ∀ a b, P a b → Both Q (f a) (g b)) : Both Q (x >>= f) (y >>= g) := by
  cases h with
  | ok h => exact hrest _ _ h
  | error e e' => exact .error e e'

theorem mono {Q : α → β → Prop} (h : Both P x y) (himp : ∀ a b, P a b → Q a b) : Both Q x y := by
  cases h with
  | ok h => exact .ok (himp _ _ h)
  | error e e' => exact .error e e'

/-- Two computations that end with the same third one end together. -/
theorem join {z : Attempt γ} {P : α → γ → Prop} {Q : β → γ → Prop} (h : Both P x z) (h' : Both Q y z) :
    Both (fun a b => ∃ c, P a c ∧ Q b c) x y := by
  cases h with
  | ok h =>
    cases h' with
    | ok h' => exact .ok ⟨_, h, h'⟩
  | error e e' =>
    cases h' with
    | error => exact .error _ _

theorem left (h : Both P x y) {a : α} (hx : x = .ok a) : ∃ b, y = .ok b ∧ P a b := by
  cases h with
  | ok h =>
    cases hx
    exact ⟨_, rfl, h⟩
  | error => cases hx

theorem right (h : Both P x y) {b : β} (hy : y = .ok b) : ∃ a, x = .ok a ∧ P a b := by
  cases h with
  | ok h =>
    cases hy
    exact ⟨_, rfl, h⟩
  | error => cases hy

end Both

end FlowPlan.Attempt

import FlowPlan.Plan.Order
import FlowPlan.Proofs.Json.Sorted
import Mathlib.Logic.Relation
import Mathlib.Data.List.Perm.Subperm
import Mathlib.Data.List.Lex

/-!
# What the order of a graph contains

The counts of a placement are always right, so that what is ready is what waits only for placed
processes. A process is therefore placed exactly if it reaches no cycle. Since the smallest ready name
comes first each time, no other order is smaller.

## Main definitions

* `InOrder` — a list that has everything once, behind all that it waits for.
* `ReachesCycle` — from here there is a way into a cycle.
* `Graph.Waits` — one process waits for another one of the graph.
* `Graph.Sound` — what holds of every placement that has come some way.

## Main statements

* `exists_cycle`, `reachesCycle_of_closed` — in a finite set without ends there is a cycle.
* `Graph.Sound.next` — one step keeps what holds.
* `Graph.mem_order_iff` — what is placed, and so what is left.
* `Graph.inOrder_order` — a complete placement is an order.
* `Graph.order_le` — it comes before every other order.
-/

namespace FlowPlan

/-! ## Orders -/

/-- The list has everything that `P` holds of once, behind all that it waits for. -/
structure InOrder {α : Type} [DecidableEq α] (P : α → Prop) (waits : α → α → Prop) (xs : List α) :
    Prop where
  once : xs.Nodup
  mem : ∀ a, a ∈ xs ↔ P a
  behind : ∀ a b, waits a b → xs.idxOf b < xs.idxOf a

/-- What something in a list stands behind is in the list. -/
theorem mem_of_idxOf_lt {α : Type} [DecidableEq α] {xs : List α} {a b : α} (h : xs.idxOf b < xs.idxOf a) :
    b ∈ xs :=
  List.idxOf_lt_length_iff.1 (Nat.lt_of_lt_of_le h List.idxOf_le_length)

/-! ## Cycles -/

section Cycles

variable {α : Type} {r : α → α → Prop}

/-- From here there is a way along the relation into a cycle. -/
def ReachesCycle (r : α → α → Prop) (a : α) : Prop :=
  ∃ c, Relation.ReflTransGen r a c ∧ Relation.TransGen r c c

/-- The relation with every way through `x` added; `x` itself can then be left out. -/
def through (r : α → α → Prop) (x a b : α) : Prop := r a b ∨ r a x ∧ r x b

theorem transGen_of_through {x a b : α} (h : Relation.TransGen (through r x) a b) :
    Relation.TransGen r a b := by
  have hstep : ∀ {a b}, through r x a b → Relation.TransGen r a b := by
    rintro a b (hab | ⟨hax, hxb⟩)
    · exact .single hab
    · exact .tail (.single hax) hxb
  induction h with
  | single hab => exact hstep hab
  | tail _ hbc ih => exact Relation.TransGen.trans ih (hstep hbc)

/-- Where every one of finitely many has a successor among them, one comes back to itself. -/
theorem exists_cycle {l : List α} (hne : l ≠ []) (h : ∀ a ∈ l, ∃ b ∈ l, r a b) :
    ∃ a, Relation.TransGen r a a := by
  induction l generalizing r with
  | nil => exact absurd rfl hne
  | cons x l ih =>
    obtain ⟨y, hy, hxy⟩ := h x List.mem_cons_self
    rcases List.mem_cons.1 hy with rfl | hyl
    · exact ⟨y, .single hxy⟩
    · -- The others do without `x` once the ways through it are added.
      have hothers : ∀ a ∈ l, ∃ b ∈ l, through r x a b := by
        intro a ha
        obtain ⟨b, hb, hab⟩ := h a (List.mem_cons_of_mem x ha)
        rcases List.mem_cons.1 hb with rfl | hb
        · exact ⟨y, hyl, .inr ⟨hab, hxy⟩⟩
        · exact ⟨b, hb, .inl hab⟩
      obtain ⟨a, ha⟩ := ih (List.ne_nil_of_mem hyl) hothers
      exact ⟨a, transGen_of_through ha⟩

/-- Where every one of finitely many has a successor among them, every one reaches a cycle. -/
theorem reachesCycle_of_closed {l : List α} (h : ∀ a ∈ l, ∃ b ∈ l, r a b) :
    ∀ a ∈ l, ReachesCycle r a := by
  classical
  intro a ha
  -- The cycle is looked for among those that are reached from here.
  have hreached : ∀ x ∈ l.filter (Relation.ReflTransGen r a ·),
      ∃ y ∈ l.filter (Relation.ReflTransGen r a ·), Relation.ReflTransGen r a x ∧ r x y := by
    intro x hx
    obtain ⟨hx, hax⟩ := List.mem_filter.1 hx
    obtain ⟨y, hy, hxy⟩ := h x hx
    have hax := of_decide_eq_true hax
    exact ⟨y, List.mem_filter.2 ⟨hy, decide_eq_true (hax.tail hxy)⟩, hax, hxy⟩
  have hself : a ∈ l.filter (Relation.ReflTransGen r a ·) :=
    List.mem_filter.2 ⟨ha, decide_eq_true .refl⟩
  obtain ⟨c, hc⟩ := exists_cycle (List.ne_nil_of_mem hself) hreached
  obtain ⟨_, ⟨hac, -⟩, -⟩ := Relation.TransGen.head'_iff.1 hc
  exact ⟨c, hac, Relation.TransGen.mono (fun _ _ hxy => hxy.2) _ _ hc⟩

end Cycles

namespace Graph

/-- The first process waits for the second, and both are in the graph. -/
def Waits (g : Graph) (a b : String) : Prop :=
  (∃ e ∈ g, e.1 = a ∧ b ∈ e.2) ∧ b ∈ Assoc.keys g

/-- Every process has one entry, which lists every process that it waits for once, and no others. -/
structure WellFormed (g : Graph) : Prop where
  once : (Assoc.keys g).Nodup
  each : ∀ e ∈ g, e.2.Nodup
  inside : ∀ e ∈ g, ∀ d ∈ e.2, d ∈ Assoc.keys g

variable {g : Graph} {s s' : Progress}

theorem WellFormed.waits_iff (hg : g.WellFormed) {e : String × List String} (he : e ∈ g) {b : String} :
    g.Waits e.1 b ↔ b ∈ e.2 := by
  constructor
  · rintro ⟨⟨e', he', hkey, hb⟩, -⟩
    rwa [Assoc.eq_of_key hg.once he he' hkey.symm]
  · intro hb
    exact ⟨⟨e, he, rfl, hb⟩, hg.inside e he b hb⟩

theorem mem_keys {n : String} : n ∈ Assoc.keys g ↔ ∃ e ∈ g, e.1 = n := List.mem_map

/-! ## One release after another -/

theorem placed_foldl_release (ns : List String) (s : Progress) :
    (ns.foldl release s).placed = s.placed := by
  induction ns generalizing s with
  | nil => rfl
  | cons n ns ih => exact ih (release s n)

theorem count_release (s : Progress) (n k : String) :
    (release s n).count k = if k = n then s.count n - 1 else s.count k := by
  simp only [release, Progress.count, Assoc.find?_set, eq_comm (a := n)]
  split <;> rfl

theorem mem_ready_release {n k : String} :
    k ∈ (release s n).ready ↔ k ∈ s.ready ∨ k = n ∧ s.count n = 1 := by
  simp only [release]
  split <;> simp_all [Text.sort, Text.mem_sortOn]

/-- Every name is released once, and its count goes down by one. -/
theorem count_foldl_release {ns : List String} (hns : ns.Nodup) (s : Progress) (k : String) :
    (ns.foldl release s).count k = if k ∈ ns then s.count k - 1 else s.count k := by
  induction ns generalizing s with
  | nil => rfl
  | cons n ns ih =>
    obtain ⟨hn, hns⟩ := List.nodup_cons.1 hns
    rw [List.foldl_cons, ih hns, count_release]
    by_cases hk : k = n
    · subst hk
      simp [hn]
    · simp [hk]

/-- What had one missing is ready after its release. -/
theorem mem_ready_foldl_release {ns : List String} (hns : ns.Nodup) (s : Progress) (k : String) :
    k ∈ (ns.foldl release s).ready ↔ k ∈ s.ready ∨ k ∈ ns ∧ s.count k = 1 := by
  induction ns generalizing s with
  | nil => simp
  | cons n ns ih =>
    obtain ⟨hn, hns⟩ := List.nodup_cons.1 hns
    rw [List.foldl_cons, ih hns, mem_ready_release, count_release]
    by_cases hk : k = n
    · subst hk
      simp [hn]
    · simp [hk]

/-- What is ready stays in order if what comes in is new. -/
theorem increasing_foldl_release {ns : List String} (hns : ns.Nodup) (s : Progress)
    (hready : s.ready.Pairwise (Text.lt · · = true)) (hnew : ∀ k ∈ ns, s.count k = 1 → k ∉ s.ready) :
    (ns.foldl release s).ready.Pairwise (Text.lt · · = true) := by
  induction ns generalizing s with
  | nil => exact hready
  | cons n ns ih =>
    obtain ⟨hn, hns⟩ := List.nodup_cons.1 hns
    refine ih hns _ ?_ fun k hk hcount => ?_
    · simp only [release]
      split
      · rename_i hone
        refine Text.increasing_sort (List.nodup_append.2 ⟨Text.nodup_of_increasing hready, by simp, ?_⟩)
        have := hnew n List.mem_cons_self hone
        grind
      · exact hready
    · have hkn : k ≠ n := fun heq => hn (heq ▸ hk)
      rw [count_release, if_neg hkn] at hcount
      rw [mem_ready_release]
      exact fun h => h.elim (hnew k (List.mem_cons_of_mem n hk) hcount) fun h => hkn h.1

/-! ## The dependents -/

theorem mem_dependents {n k : String} : k ∈ g.dependents n ↔ ∃ e ∈ g, e.1 = k ∧ n ∈ e.2 := by
  simp only [dependents, Text.sort, Text.mem_sortOn, List.mem_map, List.mem_filter,
    List.contains_iff_mem]
  constructor
  · rintro ⟨e, ⟨he, hn⟩, rfl⟩
    exact ⟨e, he, rfl, hn⟩
  · rintro ⟨e, he, rfl, hn⟩
    exact ⟨e, ⟨he, hn⟩, rfl⟩

theorem nodup_dependents (hg : g.WellFormed) (n : String) : (g.dependents n).Nodup :=
  (Text.sortOn_perm id _).nodup_iff.2 (hg.once.sublist (List.filter_sublist.map _))

/-! ## What holds along the way -/

/-- What holds of every placement that has come some way. -/
structure Sound (g : Graph) (s : Progress) : Prop where
  once : s.placed.Nodup
  known : ∀ n ∈ s.placed, n ∈ Assoc.keys g
  /-- The count is that of the processes that are still to be placed. -/
  count : ∀ e ∈ g, s.count e.1 = e.2.countP (· ∉ s.placed)
  /-- Ready is what only waits for placed processes. -/
  ready : ∀ e ∈ g, e.1 ∈ s.ready ↔ e.1 ∉ s.placed ∧ ∀ d ∈ e.2, d ∈ s.placed
  inside : ∀ n ∈ s.ready, n ∈ Assoc.keys g
  increasing : s.ready.Pairwise (Text.lt · · = true)
  behind : ∀ e ∈ g, e.1 ∈ s.placed → ∀ d ∈ e.2, s.placed.idxOf d < s.placed.idxOf e.1

theorem sound_start (hg : g.WellFormed) : g.Sound g.start where
  once := .nil
  known := by simp [start]
  count := by
    intro e he
    have hfind : Assoc.find? (g.map fun e => (e.1, e.2.length)) e.1 = some e.2.length := by
      refine Assoc.find?_of_mem ?_ (List.mem_map_of_mem he)
      rw [List.map_map]
      exact hg.once
    simp [start, Progress.count, hfind]
  ready := by
    intro e he
    simp only [start, Text.sort, Text.mem_sortOn, List.mem_map, List.mem_filter, decide_eq_true_eq,
      List.not_mem_nil, not_false_eq_true, true_and, List.length_eq_zero_iff]
    constructor
    · rintro ⟨e', ⟨he', hnil⟩, hkey⟩
      obtain rfl := Assoc.eq_of_key hg.once he' he hkey
      simp [hnil]
    · intro hnone
      exact ⟨e, ⟨he, List.eq_nil_iff_forall_not_mem.2 hnone⟩, rfl⟩
  inside := by
    intro n hn
    obtain ⟨e, he, rfl⟩ := List.mem_map.1 (Text.mem_sortOn.1 hn)
    exact List.mem_map_of_mem (List.mem_filter.1 he).1
  increasing := Text.increasing_sort (hg.once.sublist (List.filter_sublist.map _))
  behind := by simp [start]

theorem next?_eq_none : g.next? s = none ↔ s.ready = [] := by
  unfold next?
  split <;> simp_all

/-- A step takes the first that is ready and releases all that wait for it. -/
theorem next?_cases (hg : g.WellFormed) (h : g.next? s = some s') : ∃ n rest, s.ready = n :: rest ∧
    s'.placed = s.placed ++ [n] ∧
    (∀ k, s'.count k = if k ∈ g.dependents n then s.count k - 1 else s.count k) ∧
    (∀ k, k ∈ s'.ready ↔ k ∈ rest ∨ k ∈ g.dependents n ∧ s.count k = 1) ∧
    (rest.Pairwise (Text.lt · · = true) → (∀ k ∈ g.dependents n, s.count k = 1 → k ∉ rest) →
      s'.ready.Pairwise (Text.lt · · = true)) := by
  unfold next? at h
  split at h
  · cases h
  · rename_i n rest hready
    obtain rfl := Option.some.inj h
    have hnodup := nodup_dependents hg n
    exact ⟨n, rest, hready, placed_foldl_release _ _, count_foldl_release hnodup _,
      mem_ready_foldl_release hnodup _,
      increasing_foldl_release hnodup { s with ready := rest, placed := s.placed ++ [n] }⟩

/-- Placing one more leaves one less to wait for where it is waited for. -/
theorem countP_notMem_append {ns placed : List String} {n : String} (hns : ns.Nodup)
    (hn : n ∉ placed) :
    ns.countP (· ∉ placed) = ns.countP (· ∉ placed ++ [n]) + if n ∈ ns then 1 else 0 := by
  induction ns with
  | nil => rfl
  | cons m ns ih =>
    obtain ⟨hm, hns⟩ := List.nodup_cons.1 hns
    rw [List.countP_cons, List.countP_cons, ih hns]
    by_cases hmn : m = n
    · subst hmn
      simp [hm, hn]
    · by_cases hmem : m ∈ placed <;> simp [hmn, Ne.symm hmn, hmem]
      omega

/-- One step keeps what holds. -/
theorem Sound.next (hg : g.WellFormed) (hs : g.Sound s) (h : g.next? s = some s') : g.Sound s' := by
  obtain ⟨n, rest, hready, hplaced, hcount, hready', hincreasing⟩ := next?_cases hg h
  obtain ⟨hfirst, hrest⟩ := List.pairwise_cons.1 (hready ▸ hs.increasing)
  obtain ⟨e, he, rfl⟩ := mem_keys.1 (hs.inside n (by simp [hready]))
  obtain ⟨hnew, hall⟩ := (hs.ready e he).1 (by simp [hready])
  have hdependent : ∀ x ∈ g, x.1 ∈ g.dependents e.1 ↔ e.1 ∈ x.2 := by
    intro x hx
    rw [mem_dependents]
    constructor
    · rintro ⟨x', hx', hkey, hmem⟩
      rwa [← Assoc.eq_of_key hg.once hx' hx hkey]
    · exact fun hmem => ⟨x, hx, rfl, hmem⟩
  have hself : e.1 ∉ e.2 := fun hmem => hnew (hall e.1 hmem)
  -- What waits for the one that is placed now has not been placed, and was not ready.
  have hlater : ∀ x ∈ g, e.1 ∈ x.2 → x.1 ∉ s.placed := fun x hx hmem hx' =>
    hnew (mem_of_idxOf_lt (hs.behind x hx hx' e.1 hmem))
  have hwaiting : ∀ x ∈ g, e.1 ∈ x.2 → x.1 ∉ s.ready := fun x hx hmem hx' =>
    hnew (((hs.ready x hx).1 hx').2 _ hmem)
  refine ⟨?once, ?known, ?count, ?ready, ?inside, ?increasing, ?behind⟩
  case once =>
    rw [hplaced]
    exact List.nodup_append.2 ⟨hs.once, by simp, by grind⟩
  case known =>
    intro m hm
    rw [hplaced, List.mem_append, List.mem_singleton] at hm
    exact hm.elim (hs.known m) fun heq => heq ▸ List.mem_map_of_mem he
  case count =>
    intro x hx
    rw [hcount, hplaced, hs.count x hx, countP_notMem_append (hg.each x hx) hnew]
    simp only [hdependent x hx]
    split <;> rfl
  case ready =>
    intro x hx
    rw [hready', hplaced, hdependent x hx, hs.count x hx, countP_notMem_append (hg.each x hx) hnew]
    have hbefore := hs.ready x hx
    rw [hready, List.mem_cons] at hbefore
    by_cases hkey : x.1 = e.1
    · obtain rfl := Assoc.eq_of_key hg.once hx he hkey
      have hnotrest : x.1 ∉ rest := fun hmem => Text.ne_of_lt (hfirst _ hmem) rfl
      simp [hself, hnotrest]
    · by_cases hmem : e.1 ∈ x.2
      · have hnotrest : x.1 ∉ rest := fun hmem' => hwaiting x hx hmem (by simp [hready, hmem'])
        simp [hmem, hnotrest, hkey, hlater x hx hmem, Classical.or_iff_not_imp_left]
      · have hother : ∀ d ∈ x.2, d ∈ s.placed ++ [e.1] ↔ d ∈ s.placed := by grind
        grind
  case inside =>
    intro m hm
    rcases (hready' m).1 hm with hm | ⟨hm, -⟩
    · exact hs.inside m (hready ▸ List.mem_cons_of_mem _ hm)
    · obtain ⟨x, hx, rfl, -⟩ := mem_dependents.1 hm
      exact List.mem_map_of_mem hx
  case increasing =>
    refine hincreasing hrest fun m hm _ hmrest => ?_
    obtain ⟨x, hx, rfl, hmem⟩ := mem_dependents.1 hm
    exact hwaiting x hx hmem (by simp [hready, hmrest])
  case behind =>
    intro x hx hmem d hd
    rw [hplaced] at hmem ⊢
    by_cases hold : x.1 ∈ s.placed
    · have hlt := hs.behind x hx hold d hd
      rwa [List.idxOf_append_of_mem hold, List.idxOf_append_of_mem (mem_of_idxOf_lt hlt)]
    · -- The one that is placed now stands behind all that have been placed.
      obtain rfl : x = e := Assoc.eq_of_key hg.once hx he (by simpa [hold] using hmem)
      rw [List.idxOf_append_of_mem (hall d hd), List.idxOf_append_of_notMem hnew]
      exact Nat.lt_add_right _ (List.idxOf_lt_length_of_mem (hall d hd))

/-! ## The whole run -/

/-- What every step keeps, the whole run keeps. -/
theorem advance_induct {P : Progress → Prop} (hstep : ∀ s s', P s → g.next? s = some s' → P s')
    (steps : Nat) {s : Progress} (hs : P s) : P (g.advance steps s) := by
  induction steps generalizing s with
  | zero => exact hs
  | succ steps ih =>
    unfold advance
    split
    · exact hs
    · rename_i s' hnext
      exact ih (hstep s s' hs hnext)

theorem sound_advance (hg : g.WellFormed) (steps : Nat) : g.Sound (g.advance steps g.start) :=
  advance_induct (fun _ _ hs hnext => hs.next hg hnext) steps (sound_start hg)

/-- At most as many are placed as there are. -/
theorem Sound.length_placed_le (hs : g.Sound s) : s.placed.length ≤ g.length := by
  have hsubset := (hs.once.subperm hs.known).length_le
  rwa [Assoc.keys, List.length_map] at hsubset

/-- With enough steps nothing is left that is ready. -/
theorem Sound.ready_advance (hg : g.WellFormed) (hs : g.Sound s) {steps : Nat}
    (henough : g.length ≤ steps + s.placed.length) : (g.advance steps s).ready = [] := by
  induction steps generalizing s with
  | zero =>
    rw [advance, ← next?_eq_none]
    refine Option.eq_none_iff_forall_ne_some.2 fun s' hnext => ?_
    obtain ⟨n, rest, -, hplaced, -⟩ := next?_cases hg hnext
    have hle := (hs.next hg hnext).length_placed_le
    rw [hplaced, List.length_append, List.length_singleton] at hle
    omega
  | succ steps ih =>
    unfold advance
    split
    · rename_i hnext
      exact next?_eq_none.1 hnext
    · rename_i s' hnext
      obtain ⟨n, rest, -, hplaced, -⟩ := next?_cases hg hnext
      refine ih (hs.next hg hnext) ?_
      rw [hplaced, List.length_append, List.length_singleton]
      omega

/-- In the end nothing is ready. -/
theorem ready_advance_start (hg : g.WellFormed) : (g.advance g.length g.start).ready = [] :=
  (sound_start hg).ready_advance hg (Nat.le_add_right _ _)

theorem nodup_order (hg : g.WellFormed) : g.order.Nodup := (sound_advance hg g.length).once

theorem subset_order (hg : g.WellFormed) : ∀ n ∈ g.order, n ∈ Assoc.keys g :=
  (sound_advance hg g.length).known

/-- What a placed process waits for is placed before it. -/
theorem idxOf_order_lt (hg : g.WellFormed) {a b : String} (ha : a ∈ g.order) (hab : g.Waits a b) :
    g.order.idxOf b < g.order.idxOf a := by
  obtain ⟨⟨e, he, rfl, hb⟩, -⟩ := hab
  exact (sound_advance hg g.length).behind e he ha b hb

/-- What is left waits for something else that is left. -/
theorem exists_left (hg : g.WellFormed) {a : String} (ha : a ∈ Assoc.keys g) (hleft : a ∉ g.order) :
    ∃ b ∈ Assoc.keys g, b ∉ g.order ∧ g.Waits a b := by
  obtain ⟨e, he, rfl⟩ := mem_keys.1 ha
  have hready := (sound_advance hg g.length).ready e he
  rw [ready_advance_start hg] at hready
  have hblocked : ¬ ∀ d ∈ e.2, d ∈ g.order := fun hall => by
    simpa using hready.2 ⟨hleft, hall⟩
  simp only [not_forall] at hblocked
  obtain ⟨d, hd, hnot⟩ := hblocked
  exact ⟨d, hg.inside e he d hd, hnot, (hg.waits_iff he).2 hd⟩

/-- A process is placed exactly if it does not reach a cycle. -/
theorem mem_order_iff (hg : g.WellFormed) {n : String} :
    n ∈ g.order ↔ n ∈ Assoc.keys g ∧ ¬ ReachesCycle g.Waits n := by
  constructor
  · intro hn
    refine ⟨subset_order hg n hn, ?_⟩
    rintro ⟨c, hreach, hcycle⟩
    -- Along the way everything is placed, each one further ahead than the one before.
    have hahead : ∀ {a b}, a ∈ g.order → Relation.TransGen g.Waits a b →
        g.order.idxOf b < g.order.idxOf a := by
      intro a b ha hab
      induction hab with
      | single hab => exact idxOf_order_lt hg ha hab
      | tail _ hbc ih => exact Nat.lt_trans (idxOf_order_lt hg (mem_of_idxOf_lt ih) hbc) ih
    have hc : c ∈ g.order := by
      rcases Relation.reflTransGen_iff_eq_or_transGen.1 hreach with rfl | hreach
      · exact hn
      · exact mem_of_idxOf_lt (hahead hn hreach)
    exact Nat.lt_irrefl _ (hahead hc hcycle)
  · rintro ⟨hn, hacyclic⟩
    refine Classical.byContradiction fun hleft => hacyclic ?_
    refine reachesCycle_of_closed (l := (Assoc.keys g).filter (· ∉ g.order)) ?_ n (by simp [hn, hleft])
    intro a ha
    obtain ⟨ha, hnot⟩ := List.mem_filter.1 ha
    obtain ⟨b, hb, hleft, hab⟩ := exists_left hg ha (of_decide_eq_true hnot)
    exact ⟨b, by simp [hb, hleft], hab⟩

/-- A placement of as many processes as there are has them all. -/
theorem mem_order_of_length (hg : g.WellFormed) (hfull : g.order.length = g.length) {n : String}
    (hn : n ∈ Assoc.keys g) : n ∈ g.order := by
  have hperm : g.order.Perm (Assoc.keys g) :=
    ((nodup_order hg).subperm (subset_order hg)).perm_of_length_le (by simp [Assoc.keys, hfull])
  exact hperm.mem_iff.2 hn

/-- Everything is placed exactly if there is no cycle. -/
theorem length_order_iff (hg : g.WellFormed) :
    g.order.length = g.length ↔ ¬ ∃ n, Relation.TransGen g.Waits n n := by
  constructor
  · rintro hfull ⟨n, hcycle⟩
    obtain ⟨b, ⟨⟨e, he, rfl, -⟩, -⟩, -⟩ := Relation.TransGen.head'_iff.1 hcycle
    have hplaced := mem_order_of_length hg hfull (List.mem_map_of_mem (f := (·.1)) he)
    exact ((mem_order_iff hg).1 hplaced).2 ⟨e.1, .refl, hcycle⟩
  · intro hacyclic
    have hperm : g.order.Perm (Assoc.keys g) := by
      refine (List.perm_ext_iff_of_nodup (nodup_order hg) hg.once).2 fun n => ?_
      rw [mem_order_iff hg]
      exact and_iff_left fun ⟨c, _, hc⟩ => hacyclic ⟨c, hc⟩
    rw [hperm.length_eq, Assoc.keys, List.length_map]

/-- A complete placement is an order. -/
theorem inOrder_order (hg : g.WellFormed) (hfull : g.order.length = g.length) :
    InOrder (· ∈ Assoc.keys g) g.Waits g.order where
  once := nodup_order hg
  mem n := ⟨subset_order hg n, mem_order_of_length hg hfull⟩
  behind a b hab := by
    obtain ⟨⟨e, he, rfl, -⟩, -⟩ := id hab
    exact idxOf_order_lt hg (mem_order_of_length hg hfull (List.mem_map_of_mem he)) hab

/-! ## The smallest order -/

/-- The placement agrees with the other order as far as it has come, or is smaller by now. -/
def Leads (other : List String) (s : Progress) : Prop :=
  s.placed <+: other ∨ ∀ rest, List.Lex (Text.lt · · = true) (s.placed ++ rest) other

/-- The first that is ready is not greater than what the other order has next. -/
theorem Leads.next (hg : g.WellFormed) (hs : g.Sound s) {other : List String}
    (hother : InOrder (· ∈ Assoc.keys g) g.Waits other) (hleads : Leads other s)
    (h : g.next? s = some s') : Leads other s' := by
  obtain ⟨n, rest, hready, hplaced, -⟩ := next?_cases hg h
  unfold Leads
  rw [hplaced]
  rcases hleads with ⟨tail, rfl⟩ | hless
  · obtain ⟨e, he, rfl⟩ := mem_keys.1 (hs.inside n (by simp [hready]))
    obtain ⟨hnew, -⟩ := (hs.ready e he).1 (by simp [hready])
    cases tail with
    | nil => exact absurd ((hother.mem e.1).2 (List.mem_map_of_mem he)) (by simpa using hnew)
    | cons m tail =>
      -- What the other order has next is ready as well.
      have hm : m ∈ s.ready := by
        obtain ⟨x, hx, rfl⟩ := mem_keys.1 ((hother.mem m).1 (by simp))
        have hfresh : x.1 ∉ s.placed := fun hmem =>
          (List.nodup_append.1 hother.once).2.2 _ hmem _ List.mem_cons_self rfl
        refine (hs.ready x hx).2 ⟨hfresh, fun d hd => ?_⟩
        have hlt := hother.behind x.1 d ((hg.waits_iff hx).2 hd)
        rw [List.idxOf_append_of_notMem hfresh, List.idxOf_cons_self, Nat.add_zero] at hlt
        refine Classical.byContradiction fun hnot => ?_
        rw [List.idxOf_append_of_notMem hnot] at hlt
        omega
      rw [hready, List.mem_cons] at hm
      rcases hm with rfl | hm
      · exact .inl ⟨tail, by simp⟩
      · have hlt := (List.pairwise_cons.1 (hready ▸ hs.increasing)).1 m hm
        refine .inr fun later => ?_
        rw [List.append_assoc]
        exact List.Lex.append_left (Text.lt · · = true) (.rel hlt) s.placed
  · refine .inr fun later => ?_
    rw [List.append_assoc]
    exact hless _

/-- The placement comes before every other order. -/
theorem order_le (hg : g.WellFormed) (hfull : g.order.length = g.length) {other : List String}
    (hother : InOrder (· ∈ Assoc.keys g) g.Waits other) :
    g.order = other ∨ List.Lex (Text.lt · · = true) g.order other := by
  have hleads : g.Sound (g.advance g.length g.start) ∧ Leads other (g.advance g.length g.start) :=
    advance_induct (P := fun s => g.Sound s ∧ Leads other s)
      (fun _ _ ⟨hs, hleads⟩ hnext => ⟨hs.next hg hnext, hleads.next hg hs hother hnext⟩) _
      ⟨sound_start hg, .inl (List.nil_prefix)⟩
  rcases hleads.2 with hbegins | hless
  · have horder := inOrder_order hg hfull
    have hperm : g.order.Perm other :=
      (List.perm_ext_iff_of_nodup horder.once hother.once).2 fun n => by
        rw [horder.mem, hother.mem]
    exact .inl (hbegins.eq_of_length hperm.length_eq)
  · exact .inr (by simpa [order] using hless [])

end Graph

end FlowPlan

import FlowPlan.Proofs.Json.Reordering
import FlowPlan.Proofs.Standard
import FlowPlan.Unit.Registry

/-!
# Registries that are filled

Units are registered one by one, or as the groups of offers that packages publish. A name belongs to the unit
that asks for it first, and whoever asks for it again is turned away. So a registry can be told from the units
that have asked, and the order in which units are listed from the units alone: it is the order of their names,
whatever the order was in which they came.

That holds as long as every unit has the name that it is registered under. A unit without a name can be
registered as well, and whoever offers it later under a name gives it that name, in its place: it is listed
where units without names are listed, and disabling its name does not disable it.

## Main definitions

* `Catalog.Keyed`, `Catalog.Named` — the units of a catalog have the names that they are listed under.
* `Registry.Addition`, `Registry.after` — a call that adds to a registry, and what some calls leave.
* `Registry.Event`, `Registry.events` — who has been offered under a name, and who has asked for one.
* `Registry.Discovered` — how the discovery of a group ends.
* `Registry.Faithful` — units have the names that they are registered under, and are listed by them.

## Main statements

* `Offer.adopted` — what taking an offer does to the objects.
* `Registry.discovered` — the units before an offer that is refused are registered.
* `Registry.Tracked.after` — what holds of a registry after any calls.
* `Registry.after_orders` — what a registry has after any calls, and when it is faithful.
* `Registries.keyed_ofOffers` — the catalog of checks that a build draws on.
-/

namespace FlowPlan

/-! ## Catalogs with names -/

namespace Catalog

variable {α : Type} {nameOf : α → String} {c c' : Catalog α}

/-- No name is given twice, and units have the names that they are listed under unless they had none. -/
structure Keyed (nameOf : α → String) (c : Catalog α) : Prop where
  nodup : (Assoc.keys c.entries).Nodup
  named : ∀ e ∈ c.entries, e.1 ≠ "" → nameOf e.2 = e.1

/-- No name is given twice, and units have the names that they are listed under. -/
structure Named (nameOf : α → String) (c : Catalog α) : Prop where
  nodup : (Assoc.keys c.entries).Nodup
  named : ∀ e ∈ c.entries, nameOf e.2 = e.1

/-- The listed units. -/
def registered (c : Catalog α) : List α := c.entries.map (·.2)

/-- The names of the units that are not disabled, in their strict order. -/
theorem units_listed (hnodup : (Assoc.keys c.entries).Nodup) {disabled : List Json}
    (hdisabled : ∀ v ∈ disabled, v.isHashable = true) :
    ∃ ns : List String, ns.Pairwise (fun n m => Text.lt n m = true) ∧
      (∀ n, n ∈ ns ↔ n ∈ Assoc.keys c.entries ∧ .str n ∉ disabled) ∧
      c.units disabled = .ok (ns.filterMap (Assoc.find? c.entries)) := by
  have hnames : ∀ n, n ∈ Text.sort (Assoc.keys c.entries) ↔ n ∈ Assoc.keys c.entries := fun n => Text.mem_sortOn
  refine ⟨_, (Text.increasing_sort hnodup).filter _, fun n => ?_, units_of_hashable hdisabled⟩
  rw [List.mem_filter, hnames, Bool.not_eq_true', ← Bool.not_eq_true, Json.listed_str]

namespace Named

theorem mem_registered (h : Named nameOf c) {u : α} :
    u ∈ c.registered ↔ Assoc.find? c.entries (nameOf u) = some u := by
  constructor
  · intro hu
    obtain ⟨e, he, rfl⟩ := List.mem_map.1 hu
    exact Assoc.find?_of_mem h.nodup (h.named e he ▸ he)
  · exact fun hu => List.mem_map.2 ⟨_, Assoc.mem_of_find? hu, rfl⟩

theorem find?_eq_some (h : Named nameOf c) {n : String} {u : α} :
    Assoc.find? c.entries n = some u ↔ u ∈ c.registered ∧ nameOf u = n := by
  constructor
  · intro hu
    obtain rfl : nameOf u = n := h.named _ (Assoc.mem_of_find? hu)
    exact ⟨h.mem_registered.2 hu, rfl⟩
  · rintro ⟨hu, rfl⟩
    exact h.mem_registered.1 hu

/-- The units are in the strict order of their names, and they are those that are not disabled. -/
theorem units_ok (h : Named nameOf c) {disabled : List Json} (hdisabled : ∀ v ∈ disabled, v.isHashable = true) :
    ∃ us, c.units disabled = .ok us ∧ us.Pairwise (fun u v => Text.lt (nameOf u) (nameOf v) = true) ∧
      ∀ u, u ∈ us ↔ u ∈ c.registered ∧ .str (nameOf u) ∉ disabled := by
  obtain ⟨ns, hsorted, hmem, hunits⟩ := units_listed h.nodup hdisabled
  refine ⟨_, hunits, ?_, fun u => ?_⟩
  · rw [List.pairwise_filterMap]
    refine hsorted.imp ?_
    intro n m hlt u hu v hv
    rw [(h.find?_eq_some.1 hu).2, (h.find?_eq_some.1 hv).2]
    exact hlt
  · rw [List.mem_filterMap]
    constructor
    · rintro ⟨n, hn, hu⟩
      obtain ⟨hregistered, rfl⟩ := h.find?_eq_some.1 hu
      exact ⟨hregistered, ((hmem _).1 hn).2⟩
    · rintro ⟨hu, hfree⟩
      have hfind := h.mem_registered.1 hu
      exact ⟨nameOf u, (hmem _).2 ⟨List.mem_map.2 ⟨_, Assoc.mem_of_find? hfind, rfl⟩, hfree⟩, hfind⟩

/-- The order of units depends on the set of units only. -/
theorem units_eq_of_registered (h : Named nameOf c) (h' : Named nameOf c')
    (hset : ∀ u, u ∈ c.registered ↔ u ∈ c'.registered) (disabled : List Json) :
    c.units disabled = c'.units disabled := by
  have hfind : Assoc.find? c.entries = Assoc.find? c'.entries := by
    funext n
    refine Option.ext fun u => ?_
    rw [h.find?_eq_some, h'.find?_eq_some, hset]
  have hkeys : ∀ n, n ∈ Assoc.keys c.entries ↔ n ∈ Assoc.keys c'.entries := by
    intro n
    rw [← not_iff_not, ← Assoc.find?_eq_none_iff, ← Assoc.find?_eq_none_iff, hfind]
  have hnames : c.names = c'.names := Text.sort_eq_of_mem h.nodup h'.nodup hkeys
  rw [units, units, hnames, hfind]

end Named

end Catalog

/-! ## Objects -/

namespace AnyUnit

@[simp] theorem name_renamed (u : AnyUnit) (n : String) : (u.renamed n).name = n := by cases u <;> rfl

@[simp] theorem kind_renamed (u : AnyUnit) (n : String) : (u.renamed n).kind = u.kind := by cases u <;> rfl

end AnyUnit

namespace Objects

variable {us us' us'' : Objects} {i j : Nat} {n m : String}

/-- The name of the unit at a place. -/
def nameAt (us : Objects) (i : Nat) : Option String := us[i]?.map AnyUnit.name

/-- There may be more units, and those that have a name keep it. -/
structure Grows (us us' : Objects) : Prop where
  length : us.length ≤ us'.length
  named : ∀ i n, n ≠ "" → us.nameAt i = some n → us'.nameAt i = some n

theorem Grows.refl (us : Objects) : Grows us us := ⟨Nat.le_refl _, fun _ _ _ h => h⟩

theorem Grows.trans (h : Grows us us') (h' : Grows us' us'') : Grows us us'' :=
  ⟨h.length.trans h'.length, fun i n hn hi => h'.named i n hn (h.named i n hn hi)⟩

theorem lt_of_nameAt (h : us.nameAt i = some n) : i < us.length := by
  obtain ⟨u, hu, -⟩ := Option.map_eq_some_iff.1 h
  exact (List.getElem?_eq_some_iff.1 hu).1

theorem nameAt_of_lt (h : i < us.length) : ∃ n, us.nameAt i = some n := by
  simp [nameAt, h]

@[simp] theorem length_christen : (us.christen i n).length = us.length := by simp [christen]

theorem nameAt_christen : (us.christen i n).nameAt j =
    if i = j ∧ us.nameAt j = some "" then some n else us.nameAt j := by
  unfold nameAt christen
  rw [List.getElem?_modify]
  cases us[j]? with
  | none => simp
  | some u =>
    by_cases hij : i = j
    · by_cases hname : u.name = "" <;> simp [hij, hname]
    · simp [hij]

theorem nameAt_append (u : AnyUnit) (h : j < us.length) : nameAt (us ++ [u]) j = us.nameAt j := by
  unfold nameAt
  rw [List.getElem?_append_left h]

theorem nameAt_append_length (u : AnyUnit) : nameAt (us ++ [u]) us.length = some u.name := by simp [nameAt]

end Objects

/-! ## Offers -/

theorem Stage.name_of_ofFunction {n : String} {f : UserFunction} {s : Stage} (h : ofFunction n f = .ok s) :
    s.name = n := by
  unfold ofFunction at h
  dsimp only at h
  split at h <;>
  · obtain ⟨_, -, h⟩ := Attempt.bind_eq_ok.1 h
    split at h <;>
    · obtain ⟨_, -, h⟩ := Attempt.bind_eq_ok.1 h
      cases h
      rfl

namespace Offer

open Objects

variable {us us' : Objects} {i : Nat} {n : String}

/-- What taking an offer under a name does to the objects: no other unit changes, and the unit that it stands
for has the name now, unless it had one. -/
structure Adopted (n : String) (i : Nat) (us us' : Objects) : Prop where
  length : us.length ≤ us'.length
  present : i < us'.length
  other : ∀ j, j < us.length → j ≠ i → us'.nameAt j = us.nameAt j
  kept : ∀ m, m ≠ "" → us.nameAt i = some m → us'.nameAt i = some m
  given : us.nameAt i = some "" → us'.nameAt i = some n
  nameless : us'.nameAt i = some "" → n = ""

theorem Adopted.grows (h : Adopted n i us us') : Grows us us' := by
  refine ⟨h.length, fun j m hm hj => ?_⟩
  by_cases hji : j = i
  · subst hji
    exact h.kept m hm hj
  · rw [h.other j (lt_of_nameAt hj) hji, hj]

theorem adopted_christen (h : i < us.length) (n : String) : Adopted n i us (us.christen i n) where
  length := by simp
  present := by simpa using h
  other j _ hji := by simp [nameAt_christen, Ne.symm hji]
  kept m hm hi := by simp [nameAt_christen, hi, hm]
  given hi := by simp [nameAt_christen, hi]
  nameless hi := by
    rw [nameAt_christen] at hi
    split_ifs at hi with hnone
    · exact Option.some.inj hi
    · exact absurd ⟨rfl, hi⟩ hnone

/-- A unit that is made for an offer has a name, or it is given the offered one. -/
theorem adopted_make {u : AnyUnit} (hname : u.name = "" → n = "") : Adopted n us.length us (us ++ [u]) where
  length := by simp
  present := by simp
  other j hj _ := nameAt_append u hj
  kept m _ hi := absurd (lt_of_nameAt hi) (Nat.lt_irrefl _)
  given hi := absurd (lt_of_nameAt hi) (Nat.lt_irrefl _)
  nameless hi := by
    rw [nameAt_append_length] at hi
    exact hname (Option.some.inj hi)

theorem name_of_function {k : UnitKind} {f : UserFunction} {u : AnyUnit} (h : k.ofFunction n f = .ok u) :
    u.name = n := by
  cases k with
  | stage =>
    cases hs : Stage.ofFunction n f with
    | error fault =>
      rw [UnitKind.ofFunction, hs] at h
      cases h
    | ok s =>
      rw [UnitKind.ofFunction, hs] at h
      cases h
      exact Stage.name_of_ofFunction hs
  | generator =>
    cases h
    rfl
  | check =>
    cases h
    rfl

/-- An offer is taken, or it is refused and nothing is changed. -/
theorem adopted (k : UnitKind) (n : String) (o : Offer) (us : Objects) :
    (∃ i us', o.adopt k n us = (.ok i, us') ∧ Adopted n i us us') ∨ ∃ f, o.adopt k n us = (.error f, us) := by
  unfold adopt
  cases hown : o.own? k us with
  | some x =>
    obtain ⟨i, us'⟩ := x
    refine .inl ⟨i, _, rfl, ?_⟩
    cases o with
    | maker u documentation =>
      obtain ⟨-, ⟨⟩⟩ := Option.ite_none_right_eq_some.1 hown
      -- The unit is made first, and then given the name.
      refine ⟨by simp, by simp, fun j hj hji => ?_, fun m _ hi => ?_, fun hi => ?_, fun hi => ?_⟩
      · rw [nameAt_christen, if_neg (fun h => hji h.1.symm), nameAt_append u hj]
      · exact absurd (lt_of_nameAt hi) (Nat.lt_irrefl _)
      · exact absurd (lt_of_nameAt hi) (Nat.lt_irrefl _)
      · exact (adopted_christen (by simp) n).nameless hi
    | unit j =>
      obtain ⟨hkind, ⟨⟩⟩ := Option.ite_none_right_eq_some.1 hown
      obtain ⟨u, hu, -⟩ := Option.map_eq_some_iff.1 hkind
      exact adopted_christen (List.getElem?_eq_some_iff.1 hu).1 n
    | function f => cases hown
    | value v => cases hown
  | none =>
    dsimp only
    cases o.callable? with
    | none => exact .inr ⟨_, rfl⟩
    | some f =>
      dsimp only
      cases hunit : k.ofFunction n f with
      | error fault => exact .inr ⟨_, rfl⟩
      | ok u => exact .inl ⟨_, _, rfl, adopted_make fun hname => (name_of_function hunit).symm.trans hname⟩

end Offer

/-! ## Calls -/

namespace Registry

open Objects

variable {s s' : Registry × Objects} {r : Registry} {us us' : Objects} {i : Nat} {n : String}

/-- A call that adds to a registry. -/
inductive Addition where
  /-- Register the unit at a place. -/
  | unit (i : Nat)
  /-- Discover the units of a group of offers. -/
  | group (offers : List (String × Offer))

/-- What becomes of a registry and of the objects, and of the call. -/
def Addition.perform (s : Registry × Objects) : Addition → (Registry × Objects) × Attempt Unit
  | .unit i =>
    match s.1.register s.2 i with
    | .ok r => ((r, s.2), .ok ())
    | .error f => (s, .error f)
  | .group offers => (s.1.discover s.2 offers).map id (Except.map fun _ => ())

/-- What some calls leave. Calls that fail are followed by the others. -/
def after (s : Registry × Objects) (calls : List Addition) : Registry × Objects :=
  calls.foldl (fun s call => (call.perform s).1) s

/-- The registry with further entries. -/
def extend (r : Registry) (added : Assoc String Nat) : Registry := { r with entries := r.entries ++ added }

@[simp] theorem extend_nil : r.extend [] = r := by simp [extend]

theorem extend_extend (xs ys : Assoc String Nat) : (r.extend xs).extend ys = r.extend (xs ++ ys) := by
  simp [extend]

/-- A unit is registered under its name if that is free. -/
theorem register_eq (h : us.nameAt i = some n) : r.register us i =
    if n ∈ Assoc.keys r.entries then .error (r.taken n) else .ok (r.extend [(n, i)]) := by
  obtain ⟨u, hu, rfl⟩ := Option.map_eq_some_iff.1 h
  rw [register, hu]
  simp only [Assoc.contains_iff]
  rfl

/-- A unit is registered if its name is free, and otherwise nothing is changed. -/
theorem perform_unit (h : s.2.nameAt i = some n) : (Addition.unit i).perform s =
    if n ∈ Assoc.keys s.1.entries then (s, .error (s.1.taken n)) else ((s.1.extend [(n, i)], s.2), .ok ()) := by
  rw [Addition.perform, register_eq h]
  split_ifs <;> rfl

theorem discover_cons (o : Offer) (rest : List (String × Offer)) : r.discover us ((n, o) :: rest) =
    match o.adopt r.kind n us with
    | (.error f, us) => ((r, us), .error f)
    | (.ok i, us) =>
      match r.register us i with
      | .error f => ((r, us), .error f)
      | .ok r => (r.discover us rest).map id (Except.map (· + 1)) := rfl

/-! ## Groups of offers -/

/-- Offers are taken one after another, and their units registered under the names that they have then. -/
inductive Enters (k : UnitKind) : Assoc String Nat → Objects → List (String × Offer) → Assoc String Nat → Objects → Prop
  | nil (entries : Assoc String Nat) (us : Objects) : Enters k entries us [] [] us
  | cons {entries added : Assoc String Nat} {us us' us'' : Objects} {n m : String} {o : Offer} {i : Nat}
      {rest : List (String × Offer)} (hadopt : o.adopt k n us = (.ok i, us')) (hname : us'.nameAt i = some m)
      (hfree : m ∉ Assoc.keys entries) (hrest : Enters k (entries ++ [(m, i)]) us' rest added us'') :
      Enters k entries us ((n, o) :: rest) ((m, i) :: added) us''

/-- How the discovery of a group of offers ends. -/
inductive Discovered (r : Registry) (us : Objects) (offers : List (String × Offer)) :
    (Registry × Objects) × Attempt Nat → Prop
  /-- The units of all offers are registered, and so many were added. -/
  | all (added : Assoc String Nat) (us' : Objects) (hadded : Enters r.kind r.entries us offers added us') :
      Discovered r us offers ((r.extend added, us'), .ok added.length)
  /-- The units of the offers before one that stands for no unit are registered. -/
  | rejected (before after : List (String × Offer)) (n : String) (o : Offer) (added : Assoc String Nat)
      (us' : Objects) (f : Fault) (hoffers : offers = before ++ (n, o) :: after)
      (hadded : Enters r.kind r.entries us before added us') (hadopt : o.adopt r.kind n us' = (.error f, us')) :
      Discovered r us offers ((r.extend added, us'), .error f)
  /-- The units of the offers before one whose name is taken by then are registered. -/
  | repeated (before after : List (String × Offer)) (n m : String) (o : Offer) (added : Assoc String Nat)
      (us' us'' : Objects) (i : Nat) (hoffers : offers = before ++ (n, o) :: after)
      (hadded : Enters r.kind r.entries us before added us') (hadopt : o.adopt r.kind n us' = (.ok i, us''))
      (hname : us''.nameAt i = some m) (htaken : m ∈ Assoc.keys (r.entries ++ added)) :
      Discovered r us offers ((r.extend added, us''), .error (r.taken m))

/-- An offer whose unit is registered is one more of those before the offer that is refused. -/
theorem Discovered.cons {o : Offer} {m : String} {rest : List (String × Offer)}
    {x : (Registry × Objects) × Attempt Nat} (hadopt : o.adopt r.kind n us = (.ok i, us'))
    (hname : us'.nameAt i = some m) (hfree : m ∉ Assoc.keys r.entries)
    (h : Discovered (r.extend [(m, i)]) us' rest x) :
    Discovered r us ((n, o) :: rest) (x.map id (Except.map (· + 1))) := by
  cases h with
  | all added us'' hadded =>
    rw [extend_extend]
    exact .all _ us'' (.cons hadopt hname hfree hadded)
  | rejected before after n' o' added us'' f hrest hadded hrefused =>
    rw [extend_extend]
    exact .rejected ((n, o) :: before) after n' o' _ us'' f (by rw [hrest, List.cons_append])
      (.cons hadopt hname hfree hadded) hrefused
  | repeated before after n' m' o' added us₁ us₂ j hrest hadded hadopt' hname' htaken =>
    rw [extend_extend]
    refine .repeated ((n, o) :: before) after n' m' o' _ us₁ us₂ j (by rw [hrest, List.cons_append])
      (.cons hadopt hname hfree hadded) hadopt' hname' ?_
    simpa [extend] using htaken

/-- What is registered are the units of the offers before one that is refused. -/
theorem discovered (r : Registry) (us : Objects) (offers : List (String × Offer)) :
    Discovered r us offers (r.discover us offers) := by
  induction offers generalizing r us with
  | nil =>
    have hall : Discovered r us [] ((r.extend [], us), .ok 0) := .all [] us (.nil _ _)
    rwa [extend_nil] at hall
  | cons x rest ih =>
    obtain ⟨n, o⟩ := x
    rw [discover_cons]
    rcases o.adopted r.kind n us with ⟨i, us', hadopt, hadopted⟩ | ⟨f, hadopt⟩
    · obtain ⟨m, hname⟩ := nameAt_of_lt hadopted.present
      rw [hadopt]
      dsimp only
      rw [register_eq hname]
      split_ifs with htaken
      · have hrepeated : Discovered r us ((n, o) :: rest) ((r.extend [], us'), .error (r.taken m)) :=
          .repeated [] rest n m o [] us us' i rfl (.nil _ _) hadopt hname (by simpa using htaken)
        rwa [extend_nil] at hrepeated
      · exact (ih (r.extend [(m, i)]) us').cons hadopt hname htaken
    · rw [hadopt]
      have hrejected : Discovered r us ((n, o) :: rest) ((r.extend [], us), .error f) :=
        .rejected [] rest n o [] us f rfl (.nil _ _) hadopt
      rwa [extend_nil] at hrejected

/-! ## Who has been offered, and who has asked -/

/-- What happens to the unit at a place. -/
inductive Event where
  /-- It is offered under a name. -/
  | offered (name : String) (i : Nat)
  /-- It asks for its name. -/
  | asked (name : String) (i : Nat)
  deriving DecidableEq, Repr

def Event.place : Event → Nat
  | offered _ i | asked _ i => i

/-- The unit at a place asks for its name. -/
def asking (us : Objects) (i : Nat) : List Event := ((us.nameAt i).map fun n => .asked n i).toList

/-- What happens in the course of a discovery. -/
def offersEvents (r : Registry) (us : Objects) : List (String × Offer) → List Event
  | [] => []
  | (n, o) :: rest =>
    match o.adopt r.kind n us with
    | (.error _, _) => []
    | (.ok i, us) =>
      .offered n i :: asking us i ++
        match r.register us i with
        | .error _ => []
        | .ok r => offersEvents r us rest

def Addition.events (s : Registry × Objects) : Addition → List Event
  | .unit i => asking s.2 i
  | .group offers => offersEvents s.1 s.2 offers

/-- What happens in the course of some calls. -/
def events (s : Registry × Objects) : List Addition → List Event
  | [] => []
  | call :: calls => call.events s ++ events (call.perform s).1 calls

/-- The first that has asked for a name. -/
def first? (log : List Event) (n : String) : Option Nat :=
  log.findSome? fun
    | .asked m i => if m = n then some i else none
    | .offered .. => none

variable {log : List Event} {m : String}

@[simp] theorem asking_eq (h : us.nameAt i = some n) : asking us i = [.asked n i] := by simp [asking, h]

theorem first?_append (log log' : List Event) (n : String) :
    first? (log ++ log') n = (first? log n).or (first? log' n) := List.findSome?_append

theorem asked_of_first? (h : first? log n = some i) : .asked n i ∈ log := by
  obtain ⟨e, he, hfirst⟩ := List.exists_of_findSome?_eq_some h
  cases e with
  | offered m j => cases hfirst
  | asked m j =>
    obtain ⟨rfl, ⟨⟩⟩ := Option.ite_none_right_eq_some.1 hfirst
    exact he

/-! ## What holds at any time -/

/-- The units that are registered are there, no name is given twice, and units keep the names that they
are registered under, if those are names. -/
structure Keyed (s : Registry × Objects) : Prop where
  nodup : (Assoc.keys s.1.entries).Nodup
  named : ∀ n i, Assoc.find? s.1.entries n = some i → ∃ m, s.2.nameAt i = some m ∧ (n ≠ "" → m = n)

/-- What holds of a registry when these are the events so far. -/
structure Tracked (s : Registry × Objects) (log : List Event) : Prop extends Keyed s where
  present : ∀ e ∈ log, e.place < s.2.length
  first : ∀ n, Assoc.find? s.1.entries n = first? log n
  /-- A unit without a name has never been offered under one. -/
  nameless : ∀ i, s.2.nameAt i = some "" → ∀ m, .offered m i ∈ log → m = ""
  /-- A unit that has asked without a name gets one by being offered only. -/
  given : ∀ i, .asked "" i ∈ log → (∀ m, .offered m i ∈ log → m = "") → s.2.nameAt i = some ""

theorem keyed_empty (k : UnitKind) (us : Objects) : Keyed (empty k, us) :=
  ⟨by simp [empty, Assoc.keys], by simp [empty]⟩

theorem tracked_empty (k : UnitKind) (us : Objects) : Tracked (empty k, us) [] :=
  ⟨keyed_empty k us, by simp, fun _ => rfl, by simp, by simp⟩

/-- Whatever else is done with the objects, as long as names are kept. -/
theorem Keyed.grows (h : Keyed (r, us)) (hus : Grows us us') : Keyed (r, us') := by
  refine ⟨h.nodup, fun n i hi => ?_⟩
  obtain ⟨m, hm, hname⟩ := h.named n i hi
  by_cases hne : m = ""
  · obtain ⟨m', hm'⟩ := nameAt_of_lt ((lt_of_nameAt hm).trans_le hus.length)
    refine ⟨m', hm', fun hn => ?_⟩
    exact absurd (hname hn ▸ hne) hn
  · exact ⟨m, hus.named i m hne hm, hname⟩

theorem Keyed.extend (h : Keyed (r, us)) (hname : us.nameAt i = some n) (hfree : n ∉ Assoc.keys r.entries) :
    Keyed (r.extend [(n, i)], us) := by
  refine ⟨?_, fun m j hj => ?_⟩
  · rw [Registry.extend, Assoc.keys, List.map_append]
    exact List.nodup_append.2 ⟨h.nodup, by simp, by rintro a ha b hb rfl; simp_all [Assoc.keys]⟩
  · rcases List.mem_append.1 (Assoc.mem_of_find? hj) with hmem | hmem
    · exact h.named m j (Assoc.find?_of_mem h.nodup hmem)
    · obtain ⟨rfl, rfl⟩ : m = n ∧ j = i := by simpa using hmem
      exact ⟨m, hname, fun _ => rfl⟩

/-- A unit has been offered under a name. -/
theorem Tracked.offer (h : Tracked (r, us) log) (hadopted : Offer.Adopted n i us us') :
    Tracked (r, us') (log ++ [.offered n i]) := by
  have hplace : ∀ e ∈ log, e.place < us.length := h.present
  refine ⟨h.toKeyed.grows hadopted.grows, fun e he => ?_, fun m => ?_, fun j hj m hm => ?_, fun j hj hall => ?_⟩
  · rcases List.mem_append.1 he with he | he
    · exact (hplace e he).trans_le hadopted.length
    · obtain rfl := List.mem_singleton.1 he
      exact hadopted.present
  · rw [first?_append, h.first m]
    exact (Option.or_none).symm
  · rcases List.mem_append.1 hm with hm | hm
    · obtain ⟨k, hk⟩ : ∃ k, us.nameAt j = some k := nameAt_of_lt (hplace _ hm)
      have hold : us.nameAt j = some "" := by
        by_cases hkne : k = ""
        · rwa [hkne] at hk
        · exact absurd (Option.some.inj ((hadopted.grows.named j k hkne hk).symm.trans hj)) hkne
      exact h.nameless j hold m hm
    · obtain ⟨rfl, rfl⟩ : m = n ∧ j = i := by simpa using hm
      exact hadopted.nameless hj
  · have hasked : .asked "" j ∈ log := by simpa using hj
    have hold := h.given j hasked fun m hm => hall m (List.mem_append_left _ hm)
    by_cases hji : j = i
    · subst hji
      rw [hadopted.given hold, hall n (by simp)]
    · rw [hadopted.other j (hplace _ hasked) hji, hold]

/-- A unit has asked for its name, and gets it if it is the first. -/
theorem Tracked.ask (h : Tracked (r, us) log) (hname : us.nameAt i = some n) :
    Tracked (if n ∈ Assoc.keys r.entries then r else r.extend [(n, i)], us) (log ++ [.asked n i]) := by
  have hkeyed : Keyed (if n ∈ Assoc.keys r.entries then r else r.extend [(n, i)], us) := by
    split_ifs with htaken
    · exact h.toKeyed
    · exact h.toKeyed.extend hname htaken
  have hfirst : ∀ m, first? [.asked n i] m = if n = m then some i else none := by
    intro m
    by_cases hnm : n = m <;> simp [first?, hnm]
  refine ⟨hkeyed, fun e he => ?_, fun m => ?_, fun j hj m hm => ?_, fun j hj hall => ?_⟩
  · rcases List.mem_append.1 he with he | he
    · exact h.present e he
    · obtain rfl := List.mem_singleton.1 he
      exact lt_of_nameAt hname
  · have hentries : Assoc.find? r.entries m = first? log m := h.first m
    rw [first?_append, hfirst, ← hentries]
    split_ifs with htaken hnm hnm
    · subst hnm
      cases hfind : Assoc.find? r.entries n with
      | none => exact absurd htaken (Assoc.find?_eq_none_iff.1 hfind)
      | some j => rfl
    · simp
    · subst hnm
      have hnone := Assoc.find?_eq_none_iff.2 htaken
      have hlookup : Assoc.find? (r.extend [(n, i)]).entries n =
          (Assoc.find? r.entries n).or (Assoc.find? [(n, i)] n) := List.lookup_append
      rw [hlookup]
      simp [Assoc.find?_cons]
    · have hlookup : Assoc.find? (r.extend [(n, i)]).entries m =
          (Assoc.find? r.entries m).or (Assoc.find? [(n, i)] m) := List.lookup_append
      rw [hlookup]
      simp [Assoc.find?_cons, hnm]
  · exact h.nameless j hj m (by simpa using hm)
  · rcases List.mem_append.1 hj with hj | hj
    · exact h.given j hj fun m hm => hall m (List.mem_append_left _ hm)
    · obtain ⟨rfl, rfl⟩ : "" = n ∧ j = i := by simpa using hj
      exact hname

/-- What is kept when a unit is offered, and when one asks for its name, is kept by a discovery. -/
theorem discover_keeps {P : Registry → Objects → List Event → Prop} (log : List Event)
    (hoffer : ∀ r us us' log n i, P r us log → Offer.Adopted n i us us' → P r us' (log ++ [.offered n i]))
    (hask : ∀ r us log n i, P r us log → us.nameAt i = some n →
      P (if n ∈ Assoc.keys r.entries then r else r.extend [(n, i)]) us (log ++ [.asked n i]))
    (h : P r us log) (offers : List (String × Offer)) :
    P (r.discover us offers).1.1 (r.discover us offers).1.2 (log ++ offersEvents r us offers) := by
  induction offers generalizing r us log with
  | nil => simpa [discover, offersEvents] using h
  | cons x rest ih =>
    obtain ⟨n, o⟩ := x
    rw [discover_cons, offersEvents]
    rcases o.adopted r.kind n us with ⟨i, us', hadopt, hadopted⟩ | ⟨f, hadopt⟩
    · obtain ⟨m, hname⟩ := nameAt_of_lt hadopted.present
      have hasked := hask _ _ _ _ _ (hoffer _ _ _ _ _ _ h hadopted) hname
      rw [hadopt]
      dsimp only
      rw [register_eq hname, asking_eq hname]
      split_ifs at hasked ⊢ with htaken
      · simpa using hasked
      · simpa using ih _ hasked
    · rw [hadopt]
      simpa using h

theorem Tracked.discover (h : Tracked (r, us) log) (offers : List (String × Offer)) :
    Tracked (r.discover us offers).1 (log ++ offersEvents r us offers) :=
  discover_keeps (P := fun r us log => Tracked (r, us) log) log (fun _ _ _ _ _ _ h => h.offer)
    (fun _ _ _ _ _ h => h.ask) h offers

/-- A discovery may make units and give names, but it takes no name away. -/
theorem grows_discover (r : Registry) (us : Objects) (offers : List (String × Offer)) :
    Grows us (r.discover us offers).1.2 :=
  discover_keeps (P := fun _ us' _ => Grows us us') []
    (fun _ _ _ _ _ _ h hadopted => h.trans hadopted.grows) (fun _ _ _ _ _ h _ => h) (.refl us) offers

theorem Keyed.discover (h : Keyed (r, us)) (offers : List (String × Offer)) :
    Keyed (r.discover us offers).1 := by
  refine discover_keeps (P := fun r us _ => Keyed (r, us)) [] ?_ ?_ h offers
  · exact fun _ _ _ _ _ _ hkeyed hadopted => hkeyed.grows hadopted.grows
  · intro r us _ n i hkeyed hname
    split_ifs with htaken
    · exact hkeyed
    · exact hkeyed.extend hname htaken

theorem Tracked.perform (h : Tracked s log) (call : Addition) :
    Tracked (call.perform s).1 (log ++ call.events s) := by
  cases call with
  | unit i =>
    cases hname : s.2.nameAt i with
    | none =>
      have hnone : s.2[i]? = none := Option.map_eq_none_iff.1 hname
      have hperform : ((Addition.unit i).perform s).1 = s := by
        rw [Addition.perform, register, hnone]
        rfl
      rw [hperform, Addition.events, asking, hname]
      simpa using h
    | some n =>
      have hasked := h.ask hname
      rw [perform_unit hname, Addition.events, asking_eq hname]
      split_ifs at hasked ⊢ with htaken
      · exact hasked
      · exact hasked
  | group offers => exact h.discover offers

theorem Tracked.after (h : Tracked s log) (calls : List Addition) :
    Tracked (after s calls) (log ++ events s calls) := by
  induction calls generalizing s log with
  | nil => simpa [Registry.after, events] using h
  | cons call calls ih =>
    have hrest := ih (h.perform call)
    rwa [List.append_assoc] at hrest

/-! ## What is listed -/

/-- The registered units as they are now. -/
def listing (s : Registry × Objects) : Catalog AnyUnit := s.1.catalog s.2 some

variable {α : Type} {of? : AnyUnit → Option α} {u : α}

theorem mem_catalog : (n, u) ∈ (r.catalog us of?).entries ↔ ∃ i, (n, i) ∈ r.entries ∧ us[i]?.bind of? = some u := by
  unfold catalog
  rw [List.mem_filterMap]
  constructor
  · rintro ⟨⟨m, i⟩, hi, heq⟩
    obtain ⟨v, hv, ⟨⟩⟩ := Option.map_eq_some_iff.1 heq
    exact ⟨i, hi, hv⟩
  · rintro ⟨i, hi, hu⟩
    exact ⟨(n, i), hi, Option.map_eq_some_iff.2 ⟨u, hu, rfl⟩⟩

theorem keys_catalog (r : Registry) (us : Objects) (of? : AnyUnit → Option α) :
    (Assoc.keys (r.catalog us of?).entries).Sublist (Assoc.keys r.entries) := by
  unfold Assoc.keys catalog
  induction r.entries with
  | nil => exact .slnil
  | cons e entries ih =>
    rw [List.filterMap_cons, List.map_cons]
    cases hbind : us[e.2]?.bind of? with
    | none => simpa [hbind] using ih.cons e.1
    | some u => simpa [hbind] using ih

/-- Units are listed by the names that they are registered under. -/
theorem Keyed.keyed_catalog (h : Keyed (r, us)) {nameOf : α → String}
    (hnameOf : ∀ x u, of? x = some u → nameOf u = x.name) : Catalog.Keyed nameOf (r.catalog us of?) := by
  refine ⟨h.nodup.sublist (keys_catalog r us of?), fun ⟨n, u⟩ hu hne => ?_⟩
  obtain ⟨i, hi, hbind⟩ := mem_catalog.1 hu
  obtain ⟨m, hm, hname⟩ := h.named n i (Assoc.find?_of_mem h.nodup hi)
  obtain ⟨x, hx, hxu⟩ := Option.bind_eq_some_iff.1 hbind
  have hxm : x.name = m := by
    rw [nameAt, hx] at hm
    exact Option.some.inj hm
  rw [hnameOf x u hxu, hxm, hname hne]

/-- The place of a registered unit, and the unit that is there now. -/
theorem Keyed.mem_listing (h : Keyed s) : (n, i) ∈ s.1.entries ↔
    Assoc.find? s.1.entries n = some i ∧ ∃ u, s.2[i]? = some u ∧ (n, u) ∈ (listing s).entries := by
  constructor
  · intro hi
    have hfind := Assoc.find?_of_mem h.nodup hi
    obtain ⟨m, hm, -⟩ := h.named n i hfind
    obtain ⟨u, hu, -⟩ := Option.map_eq_some_iff.1 hm
    exact ⟨hfind, u, hu, mem_catalog.2 ⟨i, hi, by rw [hu]; rfl⟩⟩
  · rintro ⟨hfind, -⟩
    exact Assoc.mem_of_find? hfind

theorem Keyed.mem_keys_listing (h : Keyed s) :
    n ∈ Assoc.keys (listing s).entries ↔ n ∈ Assoc.keys s.1.entries := by
  refine ⟨fun hn => (keys_catalog s.1 s.2 some).subset hn, fun hn => ?_⟩
  obtain ⟨⟨m, i⟩, hi, rfl⟩ := List.mem_map.1 hn
  obtain ⟨-, u, -, hu⟩ := h.mem_listing.1 hi
  exact List.mem_map_of_mem (f := (·.1)) hu

theorem Keyed.find?_listing (h : Keyed s) (n : String) :
    Assoc.find? (listing s).entries n = (Assoc.find? s.1.entries n).bind (s.2[·]?) := by
  have hnodup := h.nodup.sublist (keys_catalog s.1 s.2 some)
  refine Option.ext fun u => ?_
  rw [Option.bind_eq_some_iff]
  constructor
  · intro hu
    obtain ⟨i, hi, hbind⟩ := mem_catalog.1 (Assoc.mem_of_find? hu)
    exact ⟨i, Assoc.find?_of_mem h.nodup hi, by simpa using hbind⟩
  · rintro ⟨i, hi, hu⟩
    exact Assoc.find?_of_mem hnodup (mem_catalog.2 ⟨i, Assoc.mem_of_find? hi, by simpa using hu⟩)

/-- Units have the names that they are registered under, and are listed by their names. -/
structure Faithful (s : Registry × Objects) : Prop where
  named : ∀ n i, Assoc.find? s.1.entries n = some i → s.2.nameAt i = some n
  /-- The units whose names are not disabled are listed in the strict order of their names. -/
  units : ∀ disabled, (∀ v ∈ disabled, v.isHashable = true) →
    ∃ us, (listing s).units disabled = .ok us ∧
      us.Pairwise (fun u v => Text.lt u.name v.name = true) ∧
      ∀ u, u ∈ us ↔ u ∈ (listing s).registered ∧ .str u.name ∉ disabled

theorem Keyed.named_listing (h : Keyed s)
    (hnamed : ∀ n i, Assoc.find? s.1.entries n = some i → s.2.nameAt i = some n) :
    Catalog.Named AnyUnit.name (listing s) := by
  refine ⟨h.nodup.sublist (keys_catalog s.1 s.2 some), fun ⟨n, u⟩ hu => ?_⟩
  obtain ⟨i, hi, hbind⟩ := mem_catalog.1 hu
  have hname := hnamed n i (Assoc.find?_of_mem h.nodup hi)
  rw [nameAt, (by simpa using hbind : s.2[i]? = some u)] at hname
  exact Option.some.inj hname

theorem Keyed.faithful (h : Keyed s)
    (hnamed : ∀ n i, Assoc.find? s.1.entries n = some i → s.2.nameAt i = some n) : Faithful s :=
  ⟨hnamed, fun _ hdisabled => (h.named_listing hnamed).units_ok hdisabled⟩

/-- Units keep the names that they are registered under, unless one without a name is offered under one. -/
theorem Tracked.faithful_iff (h : Tracked s log) :
    Faithful s ↔ ∀ i, first? log "" = some i → ∀ m, .offered m i ∈ log → m = "" := by
  constructor
  · intro hfaithful i hi
    exact h.nameless i (hfaithful.named "" i ((h.first "").trans hi))
  · intro hall
    refine h.toKeyed.faithful fun n i hi => ?_
    by_cases hn : n = ""
    · subst hn
      have hfirst : first? log "" = some i := (h.first "").symm.trans hi
      exact h.given i (asked_of_first? hfirst) (hall i hfirst)
    · obtain ⟨m, hm, hname⟩ := h.named n i hi
      rw [hm, hname hn]

/-! ## After any calls -/

/-- What a registry has when these are the events so far, and what becomes of it with one more call. -/
structure Orderly (s : Registry × Objects) (log : List Event) : Prop where
  /-- Under each name there is the first unit that asked for it. -/
  first : ∀ n, Assoc.find? s.1.entries n = first? log n
  nodup : (Assoc.keys s.1.entries).Nodup
  /-- It still has the name, if that is one. -/
  kept : ∀ n i, Assoc.find? s.1.entries n = some i → n ≠ "" → s.2.nameAt i = some n
  /-- A further unit is registered, or it is turned away and nothing is changed. -/
  unit : ∀ i n, s.2.nameAt i = some n → (Addition.unit i).perform s =
    if n ∈ Assoc.keys s.1.entries then (s, .error (s.1.taken n)) else ((s.1.extend [(n, i)], s.2), .ok ())
  /-- The units of a further group are registered, or those before the first offer that is refused. -/
  group : ∀ offers, Discovered s.1 s.2 offers (s.1.discover s.2 offers)
  /-- The units under the names that are not disabled are listed in the strict order of those names. -/
  listed : ∀ disabled, (∀ v ∈ disabled, v.isHashable = true) →
    ∃ ns : List String, ns.Pairwise (fun n m => Text.lt n m = true) ∧
      (∀ n, n ∈ ns ↔ n ∈ Assoc.keys s.1.entries ∧ .str n ∉ disabled) ∧
      (listing s).units disabled = .ok (ns.filterMap fun n => (Assoc.find? s.1.entries n).bind (s.2[·]?))

theorem Tracked.orderly (h : Tracked s log) : Orderly s log where
  first := h.first
  nodup := h.nodup
  kept n i hi hn := by
    obtain ⟨m, hm, hname⟩ := h.named n i hi
    rw [hm, hname hn]
  unit _ _ hname := perform_unit hname
  group offers := discovered s.1 s.2 offers
  listed disabled hdisabled := by
    obtain ⟨ns, hsorted, hmem, hunits⟩ :=
      (listing s).units_listed (h.nodup.sublist (keys_catalog s.1 s.2 some)) hdisabled
    refine ⟨ns, hsorted, fun n => by rw [hmem, h.mem_keys_listing], ?_⟩
    rw [hunits, funext h.find?_listing]

/-- Whatever calls have been made, a registry is in order. It is faithful unless the unit that is registered
without a name has been offered under a name; and if two registries are faithful and have registered the same
units, whatever the calls were, then these are listed in the same order. -/
theorem after_orders (k : UnitKind) (us : Objects) (calls : List Addition) :
    Orderly (after (empty k, us) calls) (events (empty k, us) calls) ∧
    (Faithful (after (empty k, us) calls) ↔
      ∀ i, first? (events (empty k, us) calls) "" = some i →
        ∀ m, .offered m i ∈ events (empty k, us) calls → m = "") ∧
    ∀ k' us' calls',
      Faithful (after (empty k, us) calls) → Faithful (after (empty k', us') calls') →
      (∀ u, u ∈ (listing (after (empty k, us) calls)).registered ↔
        u ∈ (listing (after (empty k', us') calls')).registered) →
      ∀ disabled, (listing (after (empty k, us) calls)).units disabled =
        (listing (after (empty k', us') calls')).units disabled := by
  have htracked : ∀ k us calls, Tracked (after (empty k, us) calls) (events (empty k, us) calls) :=
    fun k us calls => (tracked_empty k us).after calls
  refine ⟨(htracked k us calls).orderly, (htracked k us calls).faithful_iff, ?_⟩
  intro k' us' calls' hfaithful hfaithful' hset disabled
  exact ((htracked k us calls).named_listing hfaithful.named).units_eq_of_registered
    ((htracked k' us' calls').named_listing hfaithful'.named) hset disabled

/-! ### A unit without a name -/

/-- A stage without a name of its own. -/
def nameless : AnyUnit := .stage { Stage.dependencies with name := "" }

/-- It is registered, and then offered under a name. -/
def christening : List Addition := [.unit 0, .group [("5.00-x", .unit 0)]]

/-- A stage, then a group in which the other one is offered and a text, then the same stage again. -/
def straight : List Addition :=
  [.unit 1, .group [("5.00-late", .unit 0), ("6.00-text", .value (.str "x")), ("7.00-last", .unit 0)], .unit 1]

/-- A group in which they come the other way round, one of them twice. -/
def crossed : List Addition :=
  [.group [("5.00-late", .maker nameless ""), ("8.00-own", .unit 1), ("8.01-own", .unit 1)]]

/-- The unit that is offered under a name goes by that name from then on, but is registered without one, and
it is listed though the name is disabled. Units that have their names are listed in one order. -/
theorem after_orders_christening :
    let us := [nameless, .stage Stage.dependencies]
    let s := after (empty .stage, us) christening
    (¬ Faithful s ∧ Assoc.find? s.1.entries "" = some 0 ∧ s.2.nameAt 0 = some "5.00-x" ∧
      ∃ vs, (listing s).units [.str "5.00-x"] = .ok vs ∧ ∃ v ∈ vs, v.name = "5.00-x") ∧
    Faithful (after (empty .stage, us) straight) ∧ Faithful (after (empty .stage, us) crossed) ∧
    ∀ disabled, (listing (after (empty .stage, us) straight)).units disabled =
      (listing (after (empty .stage, us) crossed)).units disabled := by
  intro us s
  obtain ⟨horderly, hchristened, -⟩ := after_orders .stage us christening
  obtain ⟨-, hstraight, hsame⟩ := after_orders .stage us straight
  obtain ⟨-, hcrossed, -⟩ := after_orders .stage us crossed
  have hfirst : Assoc.find? s.1.entries "" = some 0 := by decide +kernel
  have hname : s.2.nameAt 0 = some "5.00-x" := by decide +kernel
  have hnot : ¬ Faithful s := fun hfaithful => by
    have hlog : first? (events (empty .stage, us) christening) "" = some 0 ∧
        .offered "5.00-x" 0 ∈ events (empty .stage, us) christening := by decide +kernel
    exact absurd (hchristened.1 hfaithful 0 hlog.1 _ hlog.2) (by decide)
  refine ⟨⟨hnot, hfirst, hname, ?_⟩, ?_⟩
  · obtain ⟨ns, -, hmem, hunits⟩ := horderly.listed [.str "5.00-x"] (by simp [Json.isHashable])
    refine ⟨_, hunits, ?_⟩
    obtain ⟨v, hv, hvname⟩ := Option.map_eq_some_iff.1 hname
    refine ⟨v, List.mem_filterMap.2 ⟨"", (hmem "").2 ⟨by decide +kernel, by simp⟩, ?_⟩, hvname⟩
    exact Option.bind_eq_some_iff.2 ⟨0, hfirst, hv⟩
  · have hfaithful := hstraight.2 fun i hi => by
      have hnone : first? (events (empty .stage, us) straight) "" = none := by decide +kernel
      rw [hnone] at hi
      cases hi
    have hfaithful' := hcrossed.2 fun i hi => by
      have hnone : first? (events (empty .stage, us) crossed) "" = none := by decide +kernel
      rw [hnone] at hi
      cases hi
    refine ⟨hfaithful, hfaithful', hsame .stage us crossed hfaithful hfaithful' fun u => ?_⟩
    have hleft : (listing (after (empty .stage, us) straight)).registered =
        [.stage Stage.dependencies, nameless.renamed "5.00-late"] := rfl
    have hright : (listing (after (empty .stage, us) crossed)).registered =
        [nameless.renamed "5.00-late", .stage Stage.dependencies] := rfl
    rw [hleft, hright]
    exact (List.Perm.swap _ _ _).mem_iff

end Registry

/-! ## The registries of a build -/

namespace Registry

variable {α : Type} {k : UnitKind} {us more made : Objects} {of? : AnyUnit → Option α}

/-- The units that a stock has at its places. -/
theorem getElem?_stock {u : AnyUnit} {i : Nat} (h : (u, i) ∈ made.zipIdx us.length) :
    (us ++ made ++ more)[i]? = some u := by
  obtain ⟨hle, hget⟩ := List.mk_mem_zipIdx_iff_le_and_getElem?_sub.1 h
  obtain ⟨hlt, -⟩ := List.getElem?_eq_some_iff.1 hget
  rw [List.getElem?_append_left (by rw [List.length_append]; omega), List.getElem?_append_right hle, hget]

theorem keys_stock (k : UnitKind) (us made : Objects) :
    Assoc.keys (stock k us made).1.entries = made.map AnyUnit.name := by
  have hfst := congrArg (List.map AnyUnit.name) (List.zipIdx_map_fst us.length made)
  rw [List.map_map] at hfst
  rw [stock, Assoc.keys, List.map_map]
  exact hfst

theorem keyed_stock (k : UnitKind) (us : Objects) (hnodup : (made.map AnyUnit.name).Nodup) (more : Objects) :
    Keyed ((stock k us made).1, us ++ made ++ more) := by
  refine ⟨(keys_stock k us made) ▸ hnodup, fun n i hi => ?_⟩
  obtain ⟨⟨u, j⟩, hu, heq⟩ := List.mem_map.1 (Assoc.mem_of_find? hi)
  cases heq
  exact ⟨u.name, by rw [Objects.nameAt, getElem?_stock hu]; rfl, fun _ => rfl⟩

theorem catalog_stock (k : UnitKind) (us made more : Objects) (of? : AnyUnit → Option α) :
    ((stock k us made).1.catalog (us ++ made ++ more) of?).entries =
      made.filterMap fun u => (of? u).map (u.name, ·) := by
  have hget : ∀ x ∈ made.zipIdx us.length, ((us ++ made ++ more)[x.2]?.bind of?).map (x.1.name, ·) =
      (of? x.1).map (x.1.name, ·) := fun x hx => by
    rw [getElem?_stock hx, Option.bind_some]
  have hfst := congrArg (List.filterMap fun u => (of? u).map (u.name, ·)) (List.zipIdx_map_fst us.length made)
  rw [List.filterMap_map] at hfst
  rw [stock, catalog, List.filterMap_map, ← hfst]
  exact List.filterMap_congr hget

end Registry

namespace Registries

/-- The standard units are listed as they are. -/
theorem catalogs_standard (us : Objects) : (standard us).catalogs = .standard := by
  have hstages := Registry.catalog_stock .stage us (Stage.standard.map fun s => .stage s.1)
    (Generator.standard.map (fun g => .generator g.1) ++ Check.standard.map fun c => .check c.1) AnyUnit.stage?
  have hgenerators := Registry.catalog_stock .generator (us ++ Stage.standard.map fun s => .stage s.1)
    (Generator.standard.map fun g => .generator g.1) (Check.standard.map fun c => .check c.1) AnyUnit.generator?
  have hchecks := Registry.catalog_stock .check
    (us ++ Stage.standard.map (fun s => .stage s.1) ++ Generator.standard.map fun g => .generator g.1)
    (Check.standard.map fun c => .check c.1) [] AnyUnit.check?
  rw [← List.append_assoc] at hstages
  rw [List.append_nil] at hchecks
  exact Catalogs.mk.injEq .. |>.mpr ⟨congrArg (Catalog.mk "stage") hstages,
    congrArg (Catalog.mk "generator") hgenerators, congrArg (Catalog.mk "check") hchecks⟩

/-- A check has the name that it is listed under, unless it was registered without one. -/
theorem keyed_ofOffers {us : Objects} {stages generators checks : List (String × Offer)} {rs : Registries}
    (h : ofOffers us stages generators checks = .ok rs) : Catalog.Keyed Check.name rs.catalogs.checks := by
  unfold ofOffers at h
  dsimp only at h
  obtain ⟨_, -, h⟩ := Attempt.bind_eq_ok.1 h
  obtain ⟨_, -, h⟩ := Attempt.bind_eq_ok.1 h
  obtain ⟨_, -, h⟩ := Attempt.bind_eq_ok.1 h
  cases h
  have hstandard : Registry.Keyed ((standard us).checks, (standard us).objects) := by
    have hnodup : ((Check.standard.map fun c => AnyUnit.check c.1).map AnyUnit.name).Nodup := by decide
    have hstock := Registry.keyed_stock .check
      (us ++ Stage.standard.map (fun s => .stage s.1) ++ Generator.standard.map fun g => .generator g.1) hnodup []
    rwa [List.append_nil] at hstock
  have hchecks := ((hstandard.grows (Registry.grows_discover (standard us).stages _ stages)).grows
    (Registry.grows_discover (standard us).generators _ generators)).discover checks
  refine hchecks.keyed_catalog fun x c hc => ?_
  cases x with
  | check c' =>
    cases hc
    rfl
  | stage s => cases hc
  | generator g => cases hc

end Registries

end FlowPlan

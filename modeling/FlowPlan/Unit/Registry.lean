import FlowPlan.Unit.Catalog
import FlowPlan.Unit.Offer

/-!
# Registries

Units are registered under the name that they have at that time, each name once. A registry knows its units
by their places among the objects, so what it lists is what has become of them since.

## Main definitions

* `Registry.register` — register a unit under its name.
* `Registry.discover` — register what a group of packages offers.
* `Registry.catalog` — what is listed under the names.
* `Registries.ofOffers` — the standard units and those of three groups of offers.
-/

namespace FlowPlan

/-- The names of units of one kind, with the places of the units. -/
structure Registry where
  kind : UnitKind
  entries : Assoc String Nat

namespace Registry

def empty (kind : UnitKind) : Registry := ⟨kind, []⟩

/-- What a unit is told whose name is taken. -/
def taken (r : Registry) (name : String) : Fault := .duplicateUnit s!"Duplicate {r.kind.text} name: {name}"

/-- Register the unit at a place under its name, if that is free. -/
def register (r : Registry) (us : Objects) (i : Nat) : Attempt Registry :=
  match us[i]? with
  | none => Json.misuse (.wrongKind s!"there is no unit at {i}")
  | some u =>
    if Assoc.contains r.entries u.name then .error (r.taken u.name)
    else .ok { r with entries := r.entries ++ [(u.name, i)] }

/-- Take the offers of a group in turn, register their units and count them. The first one that cannot be
taken or registered ends it; what has been done until then stays. -/
def discover (r : Registry) (us : Objects) : List (String × Offer) → (Registry × Objects) × Attempt Nat
  | [] => ((r, us), .ok 0)
  | (name, o) :: rest =>
    match o.adopt r.kind name us with
    | (.error f, us) => ((r, us), .error f)
    | (.ok i, us) =>
      match r.register us i with
      | .error f => ((r, us), .error f)
      | .ok r => (discover r us rest).map id (Except.map (· + 1))

/-- The units as they are now, under the names that they were registered with. -/
def catalog (r : Registry) (us : Objects) (of? : AnyUnit → Option α) : Catalog α :=
  ⟨r.kind.text, r.entries.filterMap fun (name, i) => (us[i]?.bind of?).map (name, ·)⟩

/-- Units that are made and registered, none of which has the name of another one. -/
def stock (kind : UnitKind) (us : Objects) (made : List AnyUnit) : Registry × Objects :=
  (⟨kind, (made.zipIdx us.length).map fun (u, i) => (u.name, i)⟩, us ++ made)

end Registry

/-- The three registries that a build draws its units from. -/
structure Registries where
  objects : Objects
  stages : Registry
  generators : Registry
  checks : Registry

namespace Registries

/-- The standard units. -/
def standard (us : Objects) : Registries :=
  let (stages, us) := Registry.stock .stage us (Stage.standard.map fun s => .stage s.1)
  let (generators, us) := Registry.stock .generator us (Generator.standard.map fun g => .generator g.1)
  let (checks, us) := Registry.stock .check us (Check.standard.map fun c => .check c.1)
  ⟨us, stages, generators, checks⟩

/-- The standard units and those of three groups of offers. -/
def ofOffers (us : Objects) (stages generators checks : List (String × Offer)) : Attempt Registries := do
  let r := standard us
  let ((stages, us), outcome) := r.stages.discover r.objects stages
  let _ ← outcome
  let ((generators, us), outcome) := r.generators.discover us generators
  let _ ← outcome
  let ((checks, us), outcome) := r.checks.discover us checks
  let _ ← outcome
  return ⟨us, stages, generators, checks⟩

/-- The catalogs of the units as they are now. -/
def catalogs (r : Registries) : Catalogs where
  stages := r.stages.catalog r.objects AnyUnit.stage?
  generators := r.generators.catalog r.objects AnyUnit.generator?
  checks := r.checks.catalog r.objects AnyUnit.check?

end Registries

end FlowPlan

import FlowPlan.Json.Access
import FlowPlan.Unit.Checks
import FlowPlan.Unit.Generators
import FlowPlan.Unit.Stages

/-!
# Catalogs of units

A catalog lists the units of one kind, each under the name that it was registered with. Units are listed
in code-point order of those names, which is the order of execution.

## Main definitions

* `Catalog.get` — the unit that is registered under a name.
* `Catalog.units` — the units that are not disabled, in order.
* `Catalogs.standard` — the standard units.
-/

namespace FlowPlan

/-- The units of one kind under the names that they were registered with. -/
structure Catalog (α : Type) where
  /-- The kind of unit, as messages name it. -/
  kind : String
  entries : Assoc String α

namespace Catalog

def empty (kind : String) : Catalog α := ⟨kind, []⟩

def has (c : Catalog α) (name : String) : Bool := Assoc.contains c.entries name

def size (c : Catalog α) : Nat := c.entries.length

/-- The registered names in order. -/
def names (c : Catalog α) : List String := Text.sort (Assoc.keys c.entries)

/-- The unit of that name, which has to be there. -/
def get (c : Catalog α) (name : String) : Attempt α :=
  match Assoc.find? c.entries name with
  | some u => .ok u
  | none =>
    .error (.noUnit s!"No {c.kind} registered: {name}. Registered: {Json.notated (.arr (c.names.map .str))}")

/-- The units in the order of their names, without the disabled ones. -/
def units (c : Catalog α) (disabled : List Json := []) : Attempt (List α) := do
  let skip ← Json.distinct disabled
  return (c.names.filter fun name => !Json.listed skip (.str name)).filterMap (Assoc.find? c.entries)

end Catalog

/-- The three catalogs that a build draws its units from. -/
structure Catalogs where
  stages : Catalog Stage
  generators : Catalog Generator
  checks : Catalog Check

namespace Catalogs

/-- The standard units. -/
def standard : Catalogs where
  stages := ⟨"stage", Stage.standard.map fun (s, _) => (s.name, s)⟩
  generators := ⟨"generator", Generator.standard.map fun (g, _) => (g.name, g)⟩
  checks := ⟨"check", Check.standard.map fun (c, _) => (c.name, c)⟩

end Catalogs

end FlowPlan

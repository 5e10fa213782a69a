/-!
# Classes of characters as ranges of code points

A character class of the Unicode standard is a list of closed ranges. Membership is the only
question the library asks of one.
-/

namespace FlowPlan.Text

/-- A character class: closed ranges of code points. -/
abbrev Ranges := List (Nat × Nat)

/-- The character lies in one of the ranges. -/
def Ranges.has (table : Ranges) (c : Char) : Bool :=
  table.any fun (low, high) => low ≤ c.toNat && c.toNat ≤ high

theorem Ranges.has_iff {table : Ranges} {c : Char} :
    table.has c = true ↔ ∃ r ∈ table, r.1 ≤ c.toNat ∧ c.toNat ≤ r.2 := by
  simp [Ranges.has]

end FlowPlan.Text

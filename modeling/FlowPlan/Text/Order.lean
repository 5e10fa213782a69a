/-!
# Texts in code-point order

Names are compared character by character by code point, a proper beginning first. Lists of names
are sorted stably, so equal keys keep their order.
-/

namespace FlowPlan.Text

/-- The first text does not come after the second in code-point order. -/
def leChars : List Char → List Char → Bool
  | [], _ => true
  | _ :: _, [] => false
  | a :: as, b :: bs => a.toNat < b.toNat || (a == b && leChars as bs)

/-- The first text does not come after the second in code-point order. -/
def le (a b : String) : Bool := leChars a.toList b.toList

/-- The first text comes strictly before the second in code-point order. -/
def lt (a b : String) : Bool := !le b a

/-- Sort by the text that `key` gives, keeping the order of equal keys. -/
def sortOn (key : α → String) (xs : List α) : List α :=
  xs.mergeSort fun a b => le (key a) (key b)

/-- Sort texts by code point. -/
def sort (xs : List String) : List String := sortOn id xs

theorem leChars_total (a b : List Char) : leChars a b = true ∨ leChars b a = true := by
  induction a generalizing b with
  | nil => simp [leChars]
  | cons x a ih =>
    cases b with
    | nil => simp [leChars]
    | cons y b =>
      rcases Nat.lt_trichotomy x.toNat y.toNat with h | h | h
      · simp [leChars, h]
      · have : x = y := Char.toNat_inj.1 h
        subst this
        simpa [leChars] using ih b
      · simp [leChars, h]

end FlowPlan.Text

import FlowPlan.Json.Access

/-!
# Durations

A number of seconds is written in whole seconds below one minute, in minutes and seconds below one
hour, and in hours, minutes and seconds beyond. Whole numbers are divided exactly. The quotient of a
floating-point number is itself rounded to a floating-point number, which shows beyond `2 ^ 53`.

## Main definitions

* `Duration.text` — the text of a number of seconds.
-/

namespace FlowPlan.Duration

/-- A duration of at least one minute. -/
def fromMinutes (minutes seconds : Nat) : String :=
  if minutes < 60 then s!"{minutes}m {seconds}s"
  else s!"{minutes / 60}h {minutes % 60}m {seconds}s"

/-- The whole number of minutes in `num / den` seconds: the rounded quotient of what is left without
the odd seconds. -/
def roundedMinutes (num den : Nat) : Nat :=
  let whole := 60 * (num / (60 * den))
  match (Binary64.ofRatio false whole 1).toFraction? with
  | none => whole / 60
  | some (n, d) =>
    match (Binary64.ofRatio false n.toNat (60 * d)).toFraction? with
    | none => whole / 60
    | some (n, d) =>
      let q := n.toNat / d
      if d < 2 * (n.toNat % d) then q + 1 else q

/-- The text of a floating-point number of seconds. Below one minute the fraction is cut off. -/
def ofFraction (num : Int) (den : Nat) : String :=
  if num < 60 * den then s!"{num.tdiv den}s"
  else
    let n := num.toNat
    fromMinutes (roundedMinutes n den) (n % (60 * den) / den)

def ofInt (n : Int) : String :=
  if n < 60 then s!"{n}s" else fromMinutes (n.toNat / 60) (n.toNat % 60)

/-- A quantity that is no number of minutes. -/
def notANumber : Attempt α := Json.misuse (.outOfBounds "cannot convert float NaN to integer")

/-- The text of a number of seconds. -/
def text : Json → Attempt String
  | .int n => .ok (ofInt n)
  | .bool b => .ok (ofInt (if b then 1 else 0))
  | .float (.infinity true) => Json.misuse (.overflow "cannot convert float infinity to integer")
  | .float (.infinity false) | .float .nan => notANumber
  | .float (.finite negative m e) =>
    match (Binary64.finite negative m e).toFraction? with
    | some (n, d) => .ok (ofFraction n d)
    | none => notANumber
  | v => Json.misuse (.unordered v.kindName "int")

end FlowPlan.Duration

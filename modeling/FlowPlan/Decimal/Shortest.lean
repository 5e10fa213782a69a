import FlowPlan.Decimal.Binary64

/-!
# Shortest decimal text of a floating-point number

The digits are the fewest that read back as the same number, the nearest ones among those. The
layout of a text — where positional notation ends, how an exponent is written — is a value of
`Layout`, chosen by the format that writes the number.
-/

namespace FlowPlan.Decimal

/-- A positive number between two others, over one denominator: the reals between `low` and `high`
round to it, the ends only if `closed`. -/
structure Interval where
  low : Nat
  value : Nat
  high : Nat
  den : Nat
  closed : Bool

/-- The reals that round to `mantissa * 2 ^ exponent`. The gap below a power of two is half as wide. -/
def interval (mantissa : Nat) (exponent : Int) : Interval :=
  let below := if mantissa = Nat.pow 2 52 && Binary64.minExponent < exponent then 1 else 2
  let e := exponent - 2
  let up := if 0 ≤ e then Nat.pow 2 e.toNat else 1
  let den := if 0 ≤ e then 1 else Nat.pow 2 (-e).toNat
  ⟨(4 * mantissa - below) * up, 4 * mantissa * up, (4 * mantissa + 2) * up, den, mantissa % 2 = 0⟩

/-- `num / den * 10 ^ (-e)` as a fraction. -/
def scaleTen (num den : Nat) (e : Int) : Nat × Nat :=
  if 0 ≤ e then (num, den * Nat.pow 10 e.toNat) else (num * Nat.pow 10 (-e).toNat, den)

/-- The decimal exponent of a positive number, from an estimate that is off by at most one. -/
def decimalExponent (num den : Nat) : Int :=
  let guess := (((Nat.log2 num : Int) - Nat.log2 den) * 30103) / 100000
  let reaches (e : Int) : Bool :=
    let (a, b) := scaleTen num den e
    b ≤ a
  if !reaches guess then guess - 1 else if reaches (guess + 1) then guess + 1 else guess

/-- The grid point `n * 10 ^ e` rounds to the number. -/
def Interval.holds (i : Interval) (n : Nat) (e : Int) : Bool :=
  let (a, b) := if 0 ≤ e then (n * Nat.pow 10 e.toNat, 1) else (n, Nat.pow 10 (-e).toNat)
  if i.closed then i.low * b ≤ a * i.den && a * i.den ≤ i.high * b
  else i.low * b < a * i.den && a * i.den < i.high * b

/-- The nearer of the two neighbours on the grid `10 ^ e` that round to the number. -/
def Interval.nearest? (i : Interval) (e : Int) : Option Nat :=
  let (a, b) := scaleTen i.value i.den e
  let n := a / b
  match i.holds n e, i.holds (n + 1) e with
  | true, true => some (if 2 * (a % b) < b || (2 * (a % b) = b && n % 2 = 0) then n else n + 1)
  | true, false => some n
  | false, true => some (n + 1)
  | false, false => none

/-- The first grid that holds a point of the interval, coarsest first. -/
def Interval.shortest (i : Interval) (top : Int) : Nat × Int :=
  let grid := fun (k : Nat) => (i.nearest? (top - k)).map fun n => (n, top - k)
  ((List.range 17).findSome? grid).getD (0, 0)

/-- Digits without trailing zeros, and the power of ten of the last one. -/
def stripZeros : Nat → Nat → Int → Nat × Int
  | 0, n, e => (n, e)
  | fuel + 1, n, e => if n % 10 = 0 && n ≠ 0 then stripZeros fuel (n / 10) (e + 1) else (n, e)

/-- The digits of a positive finite number and the power of ten of the first one. -/
def digits (mantissa : Nat) (exponent : Int) : List Char × Int :=
  let i := interval mantissa exponent
  let (n, e) := i.shortest (decimalExponent i.value i.den)
  let (n, e) := stripZeros 20 n e
  let ds := Nat.toDigits 10 n
  (ds, e + ds.length - 1)

/-- How the digits are laid out. -/
structure Layout where
  /-- Exponents from here on are written positionally. -/
  positionalFrom : Int
  /-- Exponents from here on are written with an exponent. -/
  exponentFrom : Int
  /-- The exponent has at least this many digits. -/
  exponentDigits : Nat
  nan : String
  infinity : String

/-- The digits with the point after the first one's power of ten, and at least one digit on either
side. -/
def positional (ds : List Char) (e : Int) : List Char :=
  if e < 0 then '0' :: '.' :: List.replicate (-e - 1).toNat '0' ++ ds
  else
    let whole := e.toNat + 1
    let front := ds.take whole ++ List.replicate (whole - ds.length) '0'
    let back := ds.drop whole
    front ++ '.' :: (if back.isEmpty then ['0'] else back)

/-- One digit before the point, and the exponent with its sign. -/
def scientific (minDigits : Nat) (ds : List Char) (e : Int) : List Char :=
  let exponent := Nat.toDigits 10 e.natAbs
  ds.take 1 ++ (if ds.length ≤ 1 then [] else '.' :: ds.drop 1) ++
    'e' :: (if e < 0 then '-' else '+') :: List.replicate (minDigits - exponent.length) '0' ++ exponent

/-- The text of a number. -/
def render (layout : Layout) : Binary64 → String
  | .nan => layout.nan
  | .infinity negative => (if negative then "-" else "") ++ layout.infinity
  | .finite negative m e =>
    let body :=
      if m = 0 then ['0', '.', '0']
      else
        let (ds, e) := digits m e
        if layout.positionalFrom ≤ e && e < layout.exponentFrom then positional ds e
        else scientific layout.exponentDigits ds e
    (if negative then "-" else "") ++ String.ofList body

end FlowPlan.Decimal

import FlowPlan.Instant
import FlowPlan.Text.Digit
import FlowPlan.Text.Order

/-!
# Workspace keys

A key is the time of allocation, with a counter behind it where the time alone would not come after
the latest key or is taken. Keys are compared as texts.

## Main definitions

* `Key.split?` — the time and the counter of a key.
* `Key.first?` — the first key that is free and comes after the latest one.
-/

namespace FlowPlan.Key

/-- The key with that number: the time alone, or the time and at least three digits. -/
def numbered (base : String) (n : Nat) : String :=
  if n = 0 then base else base ++ "-" ++ Instant.padded 3 n

/-- Where a key has its hyphen and its point; every other place holds a digit. -/
def timeShape : List (Option Char) :=
  List.replicate 8 none ++ [some '-'] ++ List.replicate 6 none ++ [some '.'] ++ List.replicate 6 none

def fits (cs : List Char) (shape : List (Option Char)) : Bool :=
  cs.length = shape.length &&
    (cs.zip shape).all fun (c, place) =>
      match place with
      | some mark => c = mark
      | none => Text.isDigit c

/-- The digits behind the time; the counter may be missing. -/
def counter? : List Char → Option (List Char)
  | [] => some []
  | '-' :: ds => if ds.isEmpty || !ds.all Text.isDigit then none else some ds
  | _ => none

/-- A single line feed at the end is not part of a key. -/
def dropFinalNewline (cs : List Char) : List Char :=
  if cs.getLast? = some '\n' then cs.dropLast else cs

/-- The time and the digits of the counter, for a text shaped like a key. Digits may be those of any
script. -/
def split? (text : String) : Option (String × List Char) :=
  let cs := dropFinalNewline text.toList
  if fits (cs.take timeShape.length) timeShape then
    (counter? (cs.drop timeShape.length)).map fun ds =>
      (String.ofList (cs.take timeShape.length), ds)
  else none

/-- The time and the number to start from: those of the latest key unless the present time is later. -/
def start (now : String) (latest : Option (String × List Char)) : String × Nat :=
  match latest with
  | some (time, ds) => if Text.le now time then (time, Text.digitsValue ds) else (now, 0)
  | none => (now, 0)

/-- The first number from `n` on whose key comes after the latest one and is free. -/
def firstFrom (isFree : String → Bool) (latest : Option String) (base : String) :
    Nat → Nat → Option String
  | 0, _ => none
  | fuel + 1, n =>
    let key := numbered base n
    if latest.all (fun l => Text.lt l key) && isFree key then some key
    else firstFrom isFree latest base fuel (n + 1)

/-- With a zero more, a number in plain digits comes after the latest counter. It takes another zero for
every key that may be taken, because the numbers in between need not come after it. -/
def bound (latestDigits : Nat) (taken : Nat) : Nat := Nat.pow 10 (latestDigits + taken + 4) + 1000

/-- The first key that is free and comes after the latest one, if there is one. -/
def first? (isFree : String → Bool) (taken : Nat) (now : Instant) (latest : Option String) :
    Option String :=
  let parts := latest.bind split?
  let (base, n) := start now.key parts
  firstFrom isFree (if parts.isSome then latest else none) base
    (bound (parts.elim 0 (·.2.length)) taken) n

end FlowPlan.Key

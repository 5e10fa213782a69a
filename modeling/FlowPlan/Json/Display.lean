import FlowPlan.Json.Basic
import FlowPlan.Decimal.Shortest
import FlowPlan.Text.Quoted

/-!
# Values inside messages

A message names a value by its text: a string as it is, any other value in the notation below, in
which strings stand in quotes. Absence is `None` and the truth values are capitalised.
-/

namespace FlowPlan.Json

/-- Numbers are positional from `10 ^ -4` up to `10 ^ 16`. -/
def messageLayout : Decimal.Layout := ⟨-4, 16, 2, "nan", "inf"⟩

mutual

/-- The value in message notation, strings in quotes. -/
def notated : Json → String
  | .null => "None"
  | .bool b => if b then "True" else "False"
  | .int n => toString n
  | .float x => Decimal.render messageLayout x
  | .str s => Text.quoted s
  | .arr xs => "[" ++ notatedList xs ++ "]"
  | .obj fs => "\x7b" ++ notatedFields fs ++ "\x7d"

def notatedList : List Json → String
  | [] => ""
  | [x] => notated x
  | x :: xs => notated x ++ ", " ++ notatedList xs

def notatedFields : List (String × Json) → String
  | [] => ""
  | [(k, x)] => Text.quoted k ++ ": " ++ notated x
  | (k, x) :: fs => Text.quoted k ++ ": " ++ notated x ++ ", " ++ notatedFields fs

end

/-- The text of a value in a message. -/
def display : Json → String
  | .str s => s
  | v => notated v

/-- Several values in round brackets; a single one is followed by a comma. -/
def notatedTuple : List Json → String
  | [x] => "(" ++ notated x ++ ",)"
  | xs => "(" ++ notatedList xs ++ ")"

end FlowPlan.Json

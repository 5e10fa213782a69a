import FlowPlan.Json.Basic
import FlowPlan.Decimal.Shortest
import FlowPlan.Text.Order
import FlowPlan.Text.Quoted

/-!
# Writing JSON texts

Texts are plain ASCII: every character outside the printable ASCII range is written as an escape, a
character beyond the basic plane as a surrogate pair. Artifacts are written over several lines, with
the fields of every object in code-point order; log records are written on one line.

## Main definitions

* `Json.sortKeys` — the fields of every object in code-point order.
* `Json.line` — the value on one line.
* `Json.page` — the value over several lines, indented by two spaces.
-/

namespace FlowPlan.Json

/-- Numbers are positional from `10 ^ -4` up to `10 ^ 16`. -/
def numberLayout : Decimal.Layout := ⟨-4, 16, 2, "NaN", "Infinity"⟩

/-! ## Strings -/

/-- The numeric escape of a UTF-16 unit. -/
def unitEscape (n : Nat) : List Char := '\\' :: 'u' :: Text.hexPadded 4 n

/-- One character inside the quotes. -/
def escapeChar (c : Char) : List Char :=
  if c = '"' then ['\\', '"']
  else if c = '\\' then ['\\', '\\']
  else if c = '\n' then ['\\', 'n']
  else if c = '\r' then ['\\', 'r']
  else if c = '\t' then ['\\', 't']
  else if c = '\x08' then ['\\', 'b']
  else if c = '\x0c' then ['\\', 'f']
  else if ' ' ≤ c && c ≤ '~' then [c]
  else if c.toNat < 0x10000 then unitEscape c.toNat
  else
    let n := c.toNat - 0x10000
    unitEscape (0xD800 + n / 0x400) ++ unitEscape (0xDC00 + n % 0x400)

/-- A string with its quotes. -/
def stringText (s : String) : String :=
  String.ofList ('"' :: s.toList.flatMap escapeChar ++ ['"'])

/-! ## Values -/

mutual

/-- The fields of every object in code-point order. -/
def sortKeys : Json → Json
  | .arr xs => .arr (sortKeysList xs)
  | .obj fs => .obj (Text.sortOn (·.1) (sortKeysFields fs))
  | v => v

def sortKeysList : List Json → List Json
  | [] => []
  | x :: xs => sortKeys x :: sortKeysList xs

def sortKeysFields : List (String × Json) → List (String × Json)
  | [] => []
  | (k, x) :: fs => (k, sortKeys x) :: sortKeysFields fs

end

/-- The text of a value without parts. -/
def scalarText : Json → String
  | .bool true => "true"
  | .bool false => "false"
  | .int n => toString n
  | .float x => Decimal.render numberLayout x
  | .str s => stringText s
  | _ => "null"

mutual

/-- The value on one line. -/
def line : Json → String
  | .arr xs => "[" ++ lineList xs ++ "]"
  | .obj fs => "\x7b" ++ lineFields fs ++ "\x7d"
  | v => scalarText v

def lineList : List Json → String
  | [] => ""
  | [x] => line x
  | x :: xs => line x ++ ", " ++ lineList xs

def lineFields : List (String × Json) → String
  | [] => ""
  | [(k, x)] => stringText k ++ ": " ++ line x
  | (k, x) :: fs => stringText k ++ ": " ++ line x ++ ", " ++ lineFields fs

end

/-- A new line at a depth of nesting. -/
def newLine (depth : Nat) : String := String.ofList ('\n' :: List.replicate (2 * depth) ' ')

mutual

/-- The value over several lines, its own parts one level deeper. -/
def pageAt (depth : Nat) : Json → String
  | .arr [] => "[]"
  | .arr (x :: xs) =>
    "[" ++ newLine (depth + 1) ++ pageAt (depth + 1) x ++ pageList (depth + 1) xs ++ newLine depth ++ "]"
  | .obj [] => "\x7b\x7d"
  | .obj ((k, x) :: fs) =>
    "\x7b" ++ newLine (depth + 1) ++ stringText k ++ ": " ++ pageAt (depth + 1) x ++
      pageFields (depth + 1) fs ++ newLine depth ++ "\x7d"
  | v => scalarText v

def pageList (depth : Nat) : List Json → String
  | [] => ""
  | x :: xs => "," ++ newLine depth ++ pageAt depth x ++ pageList depth xs

def pageFields (depth : Nat) : List (String × Json) → String
  | [] => ""
  | (k, x) :: fs =>
    "," ++ newLine depth ++ stringText k ++ ": " ++ pageAt depth x ++ pageFields depth fs

end

/-- The value over several lines, indented by two spaces. -/
def page (v : Json) : String := pageAt 0 v

/-- The text of an artifact: the fields sorted, a line feed at the end. -/
def artifactText (v : Json) : String := page (sortKeys v) ++ "\n"

end FlowPlan.Json

import FlowPlan.Json.Basic
import FlowPlan.Text.Digit

/-!
# Reading JSON texts

A text is one value with white space around it. Of two fields with one name the later value counts,
at the place of the earlier. `NaN` and the infinities are read as numbers; a control character
inside a string is refused.

## Main definitions

* `Json.parse?` — the value of a whole text.
* `Json.value?` — the value at the start of a text and what follows it.
-/

namespace FlowPlan.Json

/-- Space, tab, line feed and carriage return. -/
def isSpace (c : Char) : Bool := c = ' ' || c = '\t' || c = '\n' || c = '\r'

def skipSpace (cs : List Char) : List Char := cs.dropWhile isSpace

/-! ## Strings -/

def hexValue? (c : Char) : Option Nat :=
  if '0' ≤ c && c ≤ '9' then some (c.toNat - 48)
  else if 'a' ≤ c && c ≤ 'f' then some (c.toNat - 87)
  else if 'A' ≤ c && c ≤ 'F' then some (c.toNat - 55)
  else none

/-- Four hexadecimal digits and what follows them. -/
def hexUnit? : List Char → Option (Nat × List Char)
  | a :: b :: c :: d :: rest => do
    let a ← hexValue? a
    let b ← hexValue? b
    let c ← hexValue? c
    let d ← hexValue? d
    return (((a * 16 + b) * 16 + c) * 16 + d, rest)
  | _ => none

/-- The character that a numeric escape stands for. Two escapes that form a surrogate pair are one
character. -/
def unicodeEscape? (cs : List Char) : Option (Char × List Char) :=
  match hexUnit? cs with
  | none => none
  | some (high, rest) =>
    if 0xD800 ≤ high && high < 0xDC00 then
      match rest with
      | '\\' :: 'u' :: low =>
        match hexUnit? low with
        | some (n, rest') =>
          if 0xDC00 ≤ n && n < 0xE000 then
            some (Char.ofNat (0x10000 + (high - 0xD800) * 0x400 + (n - 0xDC00)), rest')
          else some (Char.ofNat 0xFFFD, rest)
        | none => some (Char.ofNat 0xFFFD, rest)
      | _ => some (Char.ofNat 0xFFFD, rest)
    else if 0xDC00 ≤ high && high < 0xE000 then some (Char.ofNat 0xFFFD, rest)
    else some (Char.ofNat high, rest)

/-- The character after a backslash, other than a numeric escape. -/
def simpleEscape? : Char → Option Char
  | '"' => some '"'
  | '\\' => some '\\'
  | '/' => some '/'
  | 'b' => some '\x08'
  | 'f' => some '\x0c'
  | 'n' => some '\n'
  | 'r' => some '\r'
  | 't' => some '\t'
  | _ => none

/-- The characters up to the closing quote, read so far in `before` backwards, and what follows. -/
def string? : Nat → List Char → List Char → Option (List Char × List Char)
  | 0, _, _ => none
  | fuel + 1, before, cs =>
    match cs with
    | [] => none
    | '"' :: rest => some (before.reverse, rest)
    | '\\' :: 'u' :: rest =>
      match unicodeEscape? rest with
      | some (c, rest) => string? fuel (c :: before) rest
      | none => none
    | '\\' :: c :: rest =>
      match simpleEscape? c with
      | some c => string? fuel (c :: before) rest
      | none => none
    | c :: rest => if c.toNat < 0x20 || c = '\\' then none else string? fuel (c :: before) rest

/-! ## Numbers -/

/-- A run of digits and what follows it; `none` if there is no digit. -/
def digits? (cs : List Char) : Option (List Char × List Char) :=
  let ds := cs.takeWhile Char.isDigit
  if ds.isEmpty then none else some (ds, cs.dropWhile Char.isDigit)

/-- The whole part: a zero alone, or digits that start with another one. -/
def whole? : List Char → Option (List Char × List Char)
  | '0' :: rest => some (['0'], rest)
  | cs => digits? cs

/-- A point with digits after it; otherwise nothing is read. -/
def fraction : List Char → List Char × List Char
  | '.' :: rest =>
    match digits? rest with
    | some r => r
    | none => ([], '.' :: rest)
  | cs => ([], cs)

/-- The sign of an exponent, as a factor. -/
def exponentSign : List Char → Int × List Char
  | '-' :: rest => (-1, rest)
  | '+' :: rest => (1, rest)
  | cs => (1, cs)

/-- An exponent; otherwise nothing is read. -/
def exponent : List Char → Option Int × List Char
  | c :: rest =>
    if c = 'e' || c = 'E' then
      let (sign, rest') := exponentSign rest
      match digits? rest' with
      | some (ds, rest'') => (some (sign * Text.digitsValue ds), rest'')
      | none => (none, c :: rest)
    else (none, c :: rest)
  | [] => (none, [])

/-- A number without its sign. With a fraction or an exponent it is a floating-point number. -/
def number? (negative : Bool) (cs : List Char) : Option (Json × List Char) :=
  match whole? cs with
  | none => none
  | some (whole, rest) =>
    let (frac, rest) := fraction rest
    let (exp, rest) := exponent rest
    if frac.isEmpty && exp.isNone then
      let n : Int := Text.digitsValue whole
      some (.int (if negative then -n else n), rest)
    else
      some (.float (.ofDecimal negative (Text.digitsValue (whole ++ frac)) (exp.getD 0 - frac.length)),
        rest)

/-! ## Values -/

/-- What follows a literal, if the text starts with it. -/
def dropLiteral? (literal cs : List Char) : Option (List Char) :=
  if literal.isPrefixOf cs then some (cs.drop literal.length) else none

/-- The words that stand for a value. -/
def literals : List (List Char × Json) :=
  [(['n', 'u', 'l', 'l'], .null), (['t', 'r', 'u', 'e'], .bool true),
   (['f', 'a', 'l', 's', 'e'], .bool false), (['N', 'a', 'N'], .float .nan),
   (['I', 'n', 'f', 'i', 'n', 'i', 't', 'y'], .float (.infinity false)),
   (['-', 'I', 'n', 'f', 'i', 'n', 'i', 't', 'y'], .float (.infinity true))]

def literal? (cs : List Char) : Option (Json × List Char) :=
  literals.findSome? fun (word, v) => (dropLiteral? word cs).map fun rest => (v, rest)

mutual

/-- The value at the start of a text and what follows it. -/
def value? : Nat → List Char → Option (Json × List Char)
  | 0, _ => none
  | fuel + 1, cs =>
    match cs with
    | '"' :: rest => (string? (rest.length + 1) [] rest).map fun (s, rest) => (.str (String.ofList s), rest)
    | '[' :: rest =>
      match skipSpace rest with
      | ']' :: rest => some (.arr [], rest)
      | rest => (elements? fuel [] rest).map fun (xs, rest) => (.arr xs, rest)
    | '\x7b' :: rest =>
      match skipSpace rest with
      | '\x7d' :: rest => some (.obj [], rest)
      | rest => (members? fuel [] rest).map fun (fs, rest) => (.obj fs, rest)
    | '-' :: rest =>
      match literal? cs with
      | some r => some r
      | none => number? true rest
    | _ =>
      match literal? cs with
      | some r => some r
      | none => number? false cs

/-- The elements up to the closing bracket, read so far in `before` backwards. -/
def elements? : Nat → List Json → List Char → Option (List Json × List Char)
  | 0, _, _ => none
  | fuel + 1, before, cs =>
    match value? fuel (skipSpace cs) with
    | none => none
    | some (v, rest) =>
      match skipSpace rest with
      | ',' :: rest => elements? fuel (v :: before) rest
      | ']' :: rest => some ((v :: before).reverse, rest)
      | _ => none

/-- The fields up to the closing brace, read so far in `before` backwards. -/
def members? : Nat → List (String × Json) → List Char → Option (Fields × List Char)
  | 0, _, _ => none
  | fuel + 1, before, cs =>
    match skipSpace cs with
    | '"' :: rest =>
      match string? (rest.length + 1) [] rest with
      | none => none
      | some (name, rest) =>
        match skipSpace rest with
        | ':' :: rest =>
          match value? fuel (skipSpace rest) with
          | none => none
          | some (v, rest) =>
            let before := (String.ofList name, v) :: before
            match skipSpace rest with
            | ',' :: rest => members? fuel before rest
            | '\x7d' :: rest => some (Assoc.ofEntries before.reverse, rest)
            | _ => none
        | _ => none
    | _ => none

end

/-- The value of a whole text. Each step of the reader takes at least one character, which bounds the
number of steps. -/
def parse? (text : List Char) : Option Json :=
  match value? (2 * text.length + 2) (skipSpace text) with
  | some (v, rest) => if (skipSpace rest).isEmpty then some v else none
  | none => none

end FlowPlan.Json

import FlowPlan.Fault

/-!
# Parts of values

Looking up, listing, ordering and replacing the parts of a value whose kind is not known
beforehand. Each operation fails with the misuse that its kind of value gives rise to.

## Main definitions

* `Json.get`, `Json.items`, `Json.elements`, `Json.lookup` — a field, all fields, the listed parts and
  the part at a position.
* `Json.distinct`, `Json.sortValues` — a set of values, and values in their common order.
* `Table` — finite maps whose keys are values.
-/

namespace FlowPlan

namespace Json

def misuse (m : Misuse) : Attempt α := .error (.misuse m)

/-! ## Fields and elements -/

/-- The fields of a mapping, asked for through a member that only mappings have. -/
def fieldsFor (member : String) : Json → Attempt Fields
  | .obj fs => .ok fs
  | v => misuse (.noMember v.kindName member)

/-- The field of that name, if the mapping has it. -/
def get (v : Json) (name : String) : Attempt (Option Json) :=
  (v.fieldsFor "get").map (Assoc.find? · name)

/-- The field of that name, or `default` where it is absent. -/
def getD (v : Json) (name : String) (default : Json) : Attempt Json :=
  (v.get name).map (·.getD default)

/-- All fields of a mapping. -/
def items (v : Json) : Attempt Fields := v.fieldsFor "items"

/-- The parts that a value lists: the elements of a list, the characters of a text, the keys of a
mapping. -/
def elements : Json → Attempt (List Json)
  | .arr xs => .ok xs
  | .str s => .ok (s.toList.map fun c => .str (String.ofList [c]))
  | .obj fs => .ok (fs.map fun f => .str f.1)
  | v => misuse (.notIterable v.kindName)

/-- A whole number used as a position; a truth value is one. -/
def position? : Json → Option Int
  | .int n => some n
  | .bool b => some (if b then 1 else 0)
  | _ => none

/-- A position in a list of that length, counted from the end if negative. -/
def index? (length : Nat) (n : Int) : Option Nat :=
  let i := if n < 0 then n + length else n
  if 0 ≤ i && i < length then some i.toNat else none

/-- A value that can be a key: all but lists and mappings. -/
def isHashable : Json → Bool
  | .arr _ | .obj _ => false
  | _ => true

/-- The text that a key is written as. -/
def keyText : Json → String
  | .str s => s
  | .bool b => if b then "true" else "false"
  | .null => "null"
  | v => v.notated

/-- The part at a key or position. -/
def lookup (v key : Json) : Attempt Json :=
  match v with
  | .obj fs =>
    match key with
    | .str name =>
      match Assoc.find? fs name with
      | some x => .ok x
      | none => misuse (.missingKey key)
    | _ => if key.isHashable then misuse (.missingKey key) else misuse (.unhashable key.kindName)
  | .arr xs =>
    match key.position? with
    | some n =>
      match (index? xs.length n).bind fun i => xs[i]? with
      | some x => .ok x
      | none => misuse .outOfRange
    | none => misuse (.listPosition key.kindName)
  | .str s =>
    match key.position? with
    | some n =>
      match (index? s.length n).bind fun i => s.toList[i]? with
      | some c => .ok (.str (String.ofList [c]))
      | none => misuse .outOfRange
    | none => misuse (.textPosition key.kindName)
  | _ => misuse (.notSubscriptable v.kindName)

/-- The field of that name, which has to be there. -/
def field (v : Json) (name : String) : Attempt Json := v.lookup (.str name)

/-! ## Replacing parts -/

/-- The value with the part at a key or position replaced; a mapping may gain the key. -/
def put (v key part : Json) : Attempt Json :=
  match v with
  | .obj fs =>
    if key.isHashable then .ok (.obj (Assoc.set fs key.keyText part))
    else misuse (.unhashable key.kindName)
  | .arr xs =>
    match key.position? with
    | some n =>
      match index? xs.length n with
      | some i => .ok (.arr (xs.set i part))
      | none => misuse .outOfRange
    | none => misuse (.listPosition key.kindName)
  | _ => misuse (.notAssignable v.kindName)

/-- The value without the part at a key or position. -/
def remove (v key : Json) : Attempt Json :=
  match v with
  | .obj fs => do
    discard (v.lookup key)
    return .obj (Assoc.erase fs key.keyText)
  | .arr xs =>
    match key.position? with
    | some n =>
      match index? xs.length n with
      | some i => .ok (.arr (xs.eraseIdx i))
      | none => misuse .outOfRange
    | none => misuse (.listPosition key.kindName)
  | _ => misuse (.notErasable v.kindName)

/-- Apply a change at the end of a path of keys and positions. -/
def changeAt (change : Json → Attempt Json) : List Json → Json → Attempt Json
  | [], v => change v
  | key :: path, v => do
    let part ← v.lookup key
    v.put key (← changeAt change path part)

/-! ## Sets and order -/

/-- The value is listed, by equality of keys. -/
def listed (xs : List Json) (v : Json) : Bool := xs.any (same · v)

/-- Add to a set, kept in the order of first mention. -/
def insertDistinct (seen : List Json) (v : Json) : List Json :=
  if listed seen v then seen else seen ++ [v]

/-- The set of the given values, in the order of first mention. -/
def distinct (xs : List Json) : Attempt (List Json) :=
  match xs.find? (!·.isHashable) with
  | some v => misuse (.unhashable v.kindName)
  | none => .ok (xs.foldl insertDistinct [])

def isNumber : Json → Bool
  | .bool _ | .int _ | .float _ => true
  | _ => false

/-- The first number is at most the second. A quantity that is not a number compares with none. -/
def leNumber (a b : Json) : Bool :=
  match a, b with
  | .float .nan, _ | _, .float .nan => false
  | .float (.infinity true), _ | _, .float (.infinity false) => true
  | a, b =>
    match a.fraction?, b.fraction? with
    | some (n, d), some (n', d') => n * d' ≤ n' * d
    | _, _ => false

mutual

/-- Two kinds without a common order, if the comparison of the values meets such a pair. Texts and
numbers have an order, each among themselves; lists are compared by their first difference. -/
def incomparable? : Json → Json → Option (String × String)
  | .str _, .str _ => none
  | .arr xs, .arr ys => incomparableLists? xs ys
  | a, b => if a.isNumber && b.isNumber then none else some (a.kindName, b.kindName)

def incomparableLists? : List Json → List Json → Option (String × String)
  | x :: xs, y :: ys => if same x y then incomparableLists? xs ys else incomparable? x y
  | _, _ => none

end

mutual

/-- The first of two comparable values does not come after the second. -/
def leValue : Json → Json → Bool
  | .str a, .str b => Text.le a b
  | .arr xs, .arr ys => leList xs ys
  | a, b => leNumber a b

def leList : List Json → List Json → Bool
  | [], _ => true
  | _ :: _, [] => false
  | x :: xs, y :: ys => if same x y then leList xs ys else leValue x y

end

/-- The values in their common order; there is one if neighbours have one. -/
def sortOnValue (key : α → Json) (xs : List α) : Attempt (List α) :=
  let keys := xs.map key
  match (keys.zip keys.tail).findSome? fun (earlier, later) => incomparable? later earlier with
  | some (later, earlier) => misuse (.unordered later earlier)
  | none => .ok (xs.mergeSort fun a b => leValue (key a) (key b))

def sortValues (xs : List Json) : Attempt (List Json) := sortOnValue id xs

/-- A set of values in their common order. Texts are compared before numbers. -/
def sortSet (xs : List Json) : Attempt (List Json) :=
  sortValues (xs.filter isStr ++ xs.filter (!·.isStr))

end Json

/-! ## Maps with values as keys -/

/-- A finite map from values, oldest entry first. -/
abbrev Table (α : Type) := List (Json × α)

namespace Table

def find? (t : Table α) (k : Json) : Option α :=
  (List.find? (fun e => Json.same e.1 k) t).map (·.2)

/-- Change the value at a key; a new key starts from `start` at the end. -/
def upsert (t : Table α) (k : Json) (start : α) (change : α → α) : Table α :=
  match t with
  | [] => [(k, change start)]
  | e :: rest => if Json.same e.1 k then (e.1, change e.2) :: rest else e :: upsert rest k start change

/-- The same with a key that may be of a kind that cannot be one. -/
def upsertKey (t : Table α) (k : Json) (start : α) (change : α → α) : Attempt (Table α) :=
  if k.isHashable then .ok (t.upsert k start change) else Json.misuse (.unhashable k.kindName)

end Table

end FlowPlan

import FlowPlan.Assoc
import FlowPlan.Decimal.Binary64

/-!
# JSON values

Documents, plans, fragments and configurations are JSON values. The fields of an object keep the
order in which they were written. Integers are unbounded and differ from floating-point numbers.

## Main definitions

* `Json.truthy` — whether a value counts as given.
* `Json.same` — equality of values as dictionary keys: numbers by their value, mappings whatever the
  order of their fields.
-/

namespace FlowPlan

/-- A JSON value. -/
inductive Json where
  | null
  | bool (b : Bool)
  | int (n : Int)
  | float (x : Binary64)
  | str (s : String)
  | arr (xs : List Json)
  | obj (fields : List (String × Json))
  deriving Inhabited, Repr

/-- The fields of an object, in writing order. -/
abbrev Fields := Assoc String Json

namespace Json

/-! ## Equality -/

mutual

/-- Structural equality. -/
def beq : Json → Json → Bool
  | .null, .null => true
  | .bool a, .bool b => a == b
  | .int a, .int b => a == b
  | .float a, .float b => a == b
  | .str a, .str b => a == b
  | .arr xs, .arr ys => beqList xs ys
  | .obj xs, .obj ys => beqFields xs ys
  | _, _ => false

def beqList : List Json → List Json → Bool
  | [], [] => true
  | x :: xs, y :: ys => beq x y && beqList xs ys
  | _, _ => false

def beqFields : List (String × Json) → List (String × Json) → Bool
  | [], [] => true
  | (k, x) :: xs, (l, y) :: ys => k == l && beq x y && beqFields xs ys
  | _, _ => false

end

mutual

theorem eq_of_beq : ∀ {a b : Json}, beq a b = true → a = b
  | a, b, h => by
    cases a with
    | arr xs =>
      cases b with
      | arr ys => rw [beq] at h; rw [eq_of_beqList h]
      | _ => simp [beq] at h
    | obj xs =>
      cases b with
      | obj ys => rw [beq] at h; rw [eq_of_beqFields h]
      | _ => simp [beq] at h
    | _ => cases b <;> simp_all [beq]

theorem eq_of_beqList : ∀ {xs ys : List Json}, beqList xs ys = true → xs = ys
  | [], [], _ => rfl
  | [], _ :: _, h => by simp [beqList] at h
  | _ :: _, [], h => by simp [beqList] at h
  | x :: xs, y :: ys, h => by
    rw [beqList, Bool.and_eq_true] at h
    rw [eq_of_beq h.1, eq_of_beqList h.2]

theorem eq_of_beqFields : ∀ {xs ys : List (String × Json)}, beqFields xs ys = true → xs = ys
  | [], [], _ => rfl
  | [], _ :: _, h => by simp [beqFields] at h
  | _ :: _, [], h => by simp [beqFields] at h
  | (k, x) :: xs, (l, y) :: ys, h => by
    rw [beqFields, Bool.and_eq_true, Bool.and_eq_true] at h
    rw [eq_of_beq h.1.2, eq_of_beqFields h.2, beq_iff_eq.1 h.1.1]

end

mutual

theorem beq_refl : ∀ a : Json, beq a a = true
  | .null => by simp [beq]
  | .bool _ => by simp [beq]
  | .int _ => by simp [beq]
  | .float _ => by simp [beq]
  | .str _ => by simp [beq]
  | .arr xs => by rw [beq]; exact beqList_refl xs
  | .obj fs => by rw [beq]; exact beqFields_refl fs

theorem beqList_refl : ∀ xs : List Json, beqList xs xs = true
  | [] => by simp [beqList]
  | x :: xs => by rw [beqList, beq_refl x, beqList_refl xs]; rfl

theorem beqFields_refl : ∀ fs : List (String × Json), beqFields fs fs = true
  | [] => by simp [beqFields]
  | (k, x) :: fs => by rw [beqFields, beq_refl x, beqFields_refl fs]; simp

end

instance : DecidableEq Json := fun a b =>
  if h : beq a b = true then isTrue (eq_of_beq h)
  else isFalse fun e => h (e ▸ beq_refl a)

/-! ## Kinds and presence -/

/-- A value counts as given unless it is null, false, a zero or empty. -/
def truthy : Json → Bool
  | .null => false
  | .bool b => b
  | .int n => n ≠ 0
  | .float x => x.isNonzero
  | .str s => !s.isEmpty
  | .arr xs => !xs.isEmpty
  | .obj fs => !fs.isEmpty

/-- The name of a value's kind, as messages give it. -/
def kindName : Json → String
  | .null => "NoneType"
  | .bool _ => "bool"
  | .int _ => "int"
  | .float _ => "float"
  | .str _ => "str"
  | .arr _ => "list"
  | .obj _ => "dict"

/-- Null reads as absent. -/
def toOption : Json → Option Json
  | .null => none
  | v => some v

def isObj : Json → Bool
  | .obj _ => true
  | _ => false

def isStr : Json → Bool
  | .str _ => true
  | _ => false

/-- The text of a string value. -/
def str? : Json → Option String
  | .str s => some s
  | _ => none

/-- A number as an exact fraction; the two truth values are one and zero. -/
def fraction? : Json → Option (Int × Nat)
  | .bool b => some (if b then 1 else 0, 1)
  | .int n => some (n, 1)
  | .float x => x.toFraction?
  | _ => none

mutual

/-- Equality of values as keys: numbers are compared by value, objects as mappings. -/
def same : Json → Json → Bool
  | .arr xs, .arr ys => sameList xs ys
  | .obj xs, .obj ys => xs.length == ys.length && sameFields xs ys
  | .null, .null => true
  | .str a, .str b => a == b
  | .float (.infinity a), .float (.infinity b) => a == b
  | a, b =>
    match fraction? a, fraction? b with
    | some (n, d), some (n', d') => n * d' == n' * d
    | _, _ => false

def sameList : List Json → List Json → Bool
  | [], [] => true
  | x :: xs, y :: ys => same x y && sameList xs ys
  | _, _ => false

/-- Every field of the first object is in the second. -/
def sameFields : List (String × Json) → List (String × Json) → Bool
  | [], _ => true
  | (k, x) :: xs, ys =>
    (match Assoc.find? ys k with
      | some y => same x y
      | none => false) && sameFields xs ys

end

end Json

end FlowPlan

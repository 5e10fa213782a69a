import FlowPlan.Json.Access

/-!
# Kinds and qualified names

A qualified name is the name of a kind, a slash and the name of an entity. Names are qualified once:
a name that already carries the kind is left as it is.
-/

namespace FlowPlan

/-- The namespace of an entity. -/
inductive Kind where
  | process
  | factor
  | data
  deriving DecidableEq, Repr

namespace Kind

def all : List Kind := [process, factor, data]

def name : Kind → String
  | process => "process"
  | factor => "factor"
  | data => "data"

/-- The beginning of every name of the kind. -/
def lead (k : Kind) : String := k.name ++ "/"

def ofName? (name : String) : Option Kind := all.find? (·.name = name)

/-- The name belongs to the kind. -/
def owns (k : Kind) (name : String) : Bool := k.lead.toList.isPrefixOf name.toList

/-- The kind of a qualified name; `none` for a name without a kind. -/
def of? (name : String) : Option Kind :=
  let head := name.toList.takeWhile (· ≠ '/')
  if head.length < name.length then ofName? (String.ofList head) else none

/-- The name with its kind in front. -/
def qualify (k : Kind) (name : String) : String :=
  if k.owns name then name else k.lead ++ name

/-- The kind of a value that should be a name. -/
def ofValue? : Json → Attempt (Option Kind)
  | .str name => .ok (of? name)
  | v => Json.misuse (.noMember v.kindName "partition")

/-- Qualify a value that should be a name. -/
def qualifyValue (k : Kind) : Json → Attempt String
  | .str name => .ok (k.qualify name)
  | v => Json.misuse (.noMember v.kindName "startswith")

end Kind

end FlowPlan

/-!
# Paths

A path is an anchor and a list of names. Repeated slashes and `.` parts vanish; `..` stays. Exactly
two slashes at the start are an anchor of their own.
-/

namespace FlowPlan

/-- A path; `anchor` holds the leading slashes of an absolute one. -/
structure Path where
  anchor : String
  parts : List String
  deriving DecidableEq, Repr

namespace Path

/-- The pieces of a text between slashes. -/
def pieces (text : String) : List String := (text.toList.splitOn '/').map String.ofList

def anchorOf : List Char → String
  | '/' :: '/' :: '/' :: _ => "/"
  | '/' :: '/' :: _ => "//"
  | '/' :: _ => "/"
  | _ => ""

def parse (text : String) : Path :=
  ⟨anchorOf text.toList, (pieces text).filter fun p => p ≠ "" && p ≠ "."⟩

def isAbsolute (p : Path) : Bool := p.anchor ≠ ""

/-- The second path seen from the first; an absolute one replaces it. -/
def join (p q : Path) : Path := if q.isAbsolute then q else { p with parts := p.parts ++ q.parts }

/-- The path with a text appended. -/
def child (p : Path) (text : String) : Path := p.join (parse text)

/-- The last name. -/
def name (p : Path) : String := p.parts.getLast?.getD ""

def parent (p : Path) : Path := { p with parts := p.parts.dropLast }

/-- The path with another last name. -/
def withName (p : Path) (name : String) : Path := { p with parts := p.parts.dropLast ++ [name] }

/-- The ending of the last name, from its last point on. A point at either end starts none. -/
def suffix (p : Path) : String :=
  let cs := p.name.toList
  let ending := (cs.reverse.takeWhile (· ≠ '.')).reverse
  if ending.isEmpty || cs.length ≤ ending.length + 1 then "" else String.ofList ('.' :: ending)

def text (p : Path) : String :=
  let body := String.intercalate "/" p.parts
  if p.anchor = "" && p.parts.isEmpty then "." else p.anchor ++ body

end Path

end FlowPlan

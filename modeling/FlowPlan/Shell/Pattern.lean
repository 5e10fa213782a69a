/-!
# Line patterns

Basic regular expressions without groups: single characters, the point, bracketed sets, the star and
the two anchors. A pattern is found in a line if it matches some part of it.
-/

namespace FlowPlan.Shell

/-- What one place of a pattern accepts. -/
inductive Atom where
  | char (c : Char)
  | any
  | set (negated : Bool) (ranges : List (Char × Char))
  deriving DecidableEq, Repr

def Atom.accepts : Atom → Char → Bool
  | char c, d => c = d
  | any, _ => true
  | set negated ranges, d => (ranges.any fun (low, high) => low ≤ d && d ≤ high) != negated

/-- A pattern: whether it is tied to the start and to the end, and its places with their stars. -/
structure Pattern where
  atStart : Bool
  places : List (Atom × Bool)
  atEnd : Bool

namespace Pattern

/-- The places match a beginning of the characters. -/
def matchesHere (atEnd : Bool) : List (Atom × Bool) → List Char → Bool
  | [], cs => !atEnd || cs.isEmpty
  | (a, false) :: places, c :: cs => a.accepts c && matchesHere atEnd places cs
  | (_, false) :: _, [] => false
  | (a, true) :: places, cs =>
    (List.range ((cs.takeWhile a.accepts).length + 1)).any fun n => matchesHere atEnd places (cs.drop n)

/-- The pattern is found in a line. -/
def isIn (p : Pattern) (line : List Char) : Bool :=
  if p.atStart then matchesHere p.atEnd p.places line
  else (List.range (line.length + 1)).any fun n => matchesHere p.atEnd p.places (line.drop n)

/-- The ranges of a bracketed set. -/
def rangesOf : List Char → List (Char × Char)
  | a :: '-' :: b :: cs => (a, b) :: rangesOf cs
  | c :: cs => (c, c) :: rangesOf cs
  | [] => []

/-- A set up to its closing bracket, which may be the first member. -/
def setOf (cs : List Char) : Atom × List Char :=
  let (negated, cs) := match cs with
    | '^' :: cs => (true, cs)
    | cs => (false, cs)
  let (first, cs) := match cs with
    | ']' :: cs => ([']'], cs)
    | cs => ([], cs)
  (.set negated (rangesOf (first ++ cs.takeWhile (· ≠ ']'))), (cs.dropWhile (· ≠ ']')).tail)

/-- Read the places of a pattern, one step for each character at most. -/
def placesOf : Nat → List Char → List (Atom × Bool) × Bool
  | 0, _ | _, [] => ([], false)
  | _ + 1, ['$'] => ([], true)
  | n + 1, c :: cs =>
    let (atom, rest) := match c, cs with
      | '\\', d :: cs => (Atom.char d, cs)
      | '[', cs => setOf cs
      | '.', cs => (.any, cs)
      | c, cs => (.char c, cs)
    let (starred, rest) := match rest with
      | '*' :: rest => (true, rest)
      | rest => (false, rest)
    let (places, atEnd) := placesOf n rest
    ((atom, starred) :: places, atEnd)

def parse (text : String) : Pattern :=
  let (atStart, cs) := match text.toList with
    | '^' :: cs => (true, cs)
    | cs => (false, cs)
  let (places, atEnd) := placesOf cs.length cs
  ⟨atStart, places, atEnd⟩

/-- A pattern without special characters. -/
def literal (text : String) : Pattern := ⟨false, text.toList.map fun c => (.char c, false), false⟩

end Pattern

end FlowPlan.Shell

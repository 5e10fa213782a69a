import FlowPlan.Text.Blank
import FlowPlan.Unit.Checks
import FlowPlan.Unit.Generators
import FlowPlan.Unit.Stages

/-!
# Offers

What is offered under a name, to become a unit of some kind: a unit, a maker of units, a plain function or
a value. A unit of that kind is taken as it is, a maker of such units is called, and anything else that can
be called is wrapped. A unit that has no name of its own is given the offered one, and whoever has the same
unit finds it with that name from then on.

## Main definitions

* `Objects` — the units that there are.
* `Offer` — the four forms of an offer.
* `Offer.adopt` — the unit that an offer stands for.
-/

namespace FlowPlan

/-! ## Objects -/

/-- The units that there are, in the order in which they were made. A unit is known by its place, and what
is changed there is changed for all who know it. -/
abbrev Objects := List AnyUnit

namespace Objects

/-- Give the unit at a place a name, if it has none. -/
def christen (us : Objects) (i : Nat) (name : String) : Objects :=
  us.modify i fun u => if u.name.isEmpty then u.renamed name else u

/-- Make one more unit. -/
def make (us : Objects) (u : AnyUnit) : Nat × Objects := (us.length, us ++ [u])

end Objects

/-! ## Functions -/

/-- A function of one value, with the attributes that a unit may read off it. The second result is
what the function leaves of its argument. -/
structure UserFunction where
  documentation : String
  requires : Option String
  produces : Option String
  phase : Option Json
  call : Json → Attempt Json × Json

/-- The first line of a documentation text. -/
def firstLine (documentation : String) : String :=
  String.ofList ((Text.trim documentation).toList.takeWhile (· ≠ '\n'))

/-- A level by its name. -/
def Level.parse (name : String) : Attempt Level :=
  match Level.ofName? name with
  | some level => .ok level
  | none => Json.misuse (.outOfBounds s!"{Text.quoted name} is not a level")

/-- A stage of a function. It runs on qualified names unless it says otherwise, and produces the
level that it requires. -/
def Stage.ofFunction (name : String) (f : UserFunction) : Attempt Stage := do
  let requires ← match f.requires with
    | some level => Level.parse level
    | none => pure .qualified
  let produces ← match f.produces with
    | some level => Level.parse level
    | none => pure requires
  return ⟨name, "FunctionStage", requires, produces, firstLine f.documentation,
    fun document => (f.call document).1, fun _ => none⟩

def Generator.ofFunction (name : String) (f : UserFunction) : Generator :=
  ⟨name, "FunctionGenerator", firstLine f.documentation, fun document => (f.call document).1⟩

/-- The messages that a function's result lists; a result that is not given lists none. -/
def Check.messagesOf (result : Json) : Attempt (List Json) :=
  if result.truthy then result.elements else .ok []

def Check.ofFunction (name : String) (f : UserFunction) : Check :=
  ⟨name, "FunctionCheck", f.phase.getD (.str planPhase), firstLine f.documentation,
    .function fun subject =>
      let (result, after) := f.call subject
      (result.bind messagesOf, after)⟩

/-- A unit of a function. -/
def UnitKind.ofFunction (k : UnitKind) (name : String) (f : UserFunction) : Attempt AnyUnit :=
  match k with
  | .stage => (Stage.ofFunction name f).map .stage
  | .generator => .ok (.generator (Generator.ofFunction name f))
  | .check => .ok (.check (Check.ofFunction name f))

/-! ## Offers -/

/-- What is offered to become a unit. -/
inductive Offer where
  /-- Something that makes a unit when called without arguments, with its documentation. -/
  | maker (u : AnyUnit) (documentation : String)
  /-- The unit at a place. -/
  | unit (i : Nat)
  | function (f : UserFunction)
  | value (v : Json)

namespace Offer

/-- A maker called with an argument. -/
def makerCall (u : AnyUnit) : Attempt α :=
  Json.misuse (.wrongKind s!"{u.form}() takes no arguments")

/-- The function that an offer can be called as. -/
def callable? : Offer → Option UserFunction
  | maker u documentation => some ⟨documentation, none, none, none, fun v => (makerCall u, v)⟩
  | function f => some f
  | unit _ | value _ => none

/-- The notation of an offer. -/
def text (us : Objects) : Offer → String
  | maker u _ => u.text
  | unit i => (us[i]?.map AnyUnit.text).getD ""
  | function _ => "function"
  | value v => v.notated

/-- The unit of a kind that an offer is or makes. -/
def own? (k : UnitKind) (us : Objects) : Offer → Option (Nat × Objects)
  | maker u _ => if u.kind = k then some (us.make u) else none
  | unit i => if us[i]?.map AnyUnit.kind = some k then some (i, us) else none
  | function _ | value _ => none

/-- The unit of a kind that an offer under some name stands for, among the units that there are then. -/
def adopt (k : UnitKind) (name : String) (o : Offer) (us : Objects) : Attempt Nat × Objects :=
  match o.own? k us with
  | some (i, us) => (.ok i, us.christen i name)
  | none =>
    match o.callable? with
    | none => (Json.misuse (.wrongKind s!"Entry point {name} is not a {k.text}: {o.text us}"), us)
    | some f =>
      match k.ofFunction name f with
      | .error fault => (.error fault, us)
      | .ok u =>
        let (i, us) := us.make u
        (.ok i, us)

end Offer

end FlowPlan

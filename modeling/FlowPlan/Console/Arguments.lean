import FlowPlan.Assoc

/-!
# Arguments of a command

Options and operands may be mixed. An option is followed by its value, or sets a switch; behind two
hyphens there are only operands. The last mention of an option counts. These are the rules of the library
that reads the arguments of the program; they belong to the command line, and no build depends on them.
-/

namespace FlowPlan

/-- What an option does. -/
inductive OptionUse where
  | takesValue (key : String)
  | sets (key : String) (value : Bool)
  deriving DecidableEq, Repr

/-- The options that a command knows. -/
abbrev OptionTable := Assoc String OptionUse

/-- The arguments that a command was given. -/
structure Arguments where
  values : Assoc String String := []
  switches : Assoc String Bool := []
  operands : List String := []
  deriving DecidableEq, Repr

namespace Arguments

def value? (a : Arguments) (key : String) : Option String := Assoc.find? a.values key

def switch? (a : Arguments) (key : String) : Option Bool := Assoc.find? a.switches key

def setValue (a : Arguments) (key v : String) : Arguments :=
  { a with values := Assoc.set a.values key v }

def setSwitch (a : Arguments) (key : String) (b : Bool) : Arguments :=
  { a with switches := Assoc.set a.switches key b }

/-- A single hyphen is an operand. -/
def isOption (argument : String) : Bool := argument.startsWith "-" && argument ≠ "-"

/-- The name of an option and the value that is written into it. -/
def splitOption (argument : String) : String × Option String :=
  let name := argument.toList.takeWhile (· ≠ '=')
  match argument.toList.drop name.length with
  | [] => (argument, none)
  | _ :: v => (String.ofList name, some (String.ofList v))

/-- Read arguments; there are none that make sense if an option is unknown, lacks its value or has one
too many. -/
def read? (table : OptionTable) (a : Arguments) : List String → Option Arguments
  | [] => some a
  | argument :: rest =>
    if argument = "--" then some { a with operands := a.operands ++ rest }
    else if !isOption argument then
      read? table { a with operands := a.operands ++ [argument] } rest
    else
      let (name, given) := splitOption argument
      match Assoc.find? table name with
      | none => none
      | some (.sets key b) => if given.isSome then none else read? table (a.setSwitch key b) rest
      | some (.takesValue key) =>
        match given with
        | some v => read? table (a.setValue key v) rest
        | none =>
          match rest with
          | [] => none
          | v :: rest => read? table (a.setValue key v) rest

end Arguments

end FlowPlan

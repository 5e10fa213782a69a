import FlowPlan.Document.Shape

/-!
# Units

The three kinds of unit that a build draws on: stages turn one document into the next, generators
turn the compiled plan into a fragment, checks judge a plan or its fragments. Each has a name, by
which units are ordered, and a class name under which it is listed.
-/

namespace FlowPlan

/-- A step of the pipeline, with the levels of its input and its output. -/
structure Stage where
  name : String
  form : String
  requires : Level
  produces : Level
  description : String
  transform : Json → Attempt Json
  /-- What a successful run has to say about its input. -/
  remark : Json → Option String := fun _ => none

/-- A producer of one fragment. -/
structure Generator where
  name : String
  form : String
  description : String
  generate : Json → Attempt Json

/-- How a check comes to its messages. -/
inductive Judge where
  /-- By a function of the subject. The subject is shared by all checks of a phase, so what a function
  does to it is seen by the later ones. -/
  | function (examine : Json → Attempt (List Json) × Json)
  /-- By the exit status of a command that is given the path of the artifact. -/
  | command (words : List String)

/-- A pass or fail judgement in one phase of the gate. -/
structure Check where
  name : String
  form : String
  phase : Json
  description : String
  judge : Judge

/-- The phase after the pipeline, in which the compiled plan is judged. -/
def planPhase : String := "plan"

/-- The phase after the generators, in which their fragments are judged. -/
def codePhase : String := "code"

/-- The kinds of units. -/
inductive UnitKind where
  | stage
  | generator
  | check
  deriving DecidableEq, Repr

/-- A kind, as messages name it. -/
def UnitKind.text : UnitKind → String
  | stage => "stage"
  | generator => "generator"
  | check => "check"

/-- A unit of any kind. -/
inductive AnyUnit where
  | stage (s : Stage)
  | generator (g : Generator)
  | check (c : Check)

namespace Stage

def artifact (s : Stage) : String := s!"config-{s.name}.json"

def text (s : Stage) : String :=
  s!"{s.form}(name={s.name}, requires={s.requires.name}, produces={s.produces.name})"

end Stage

namespace Generator

def artifact (g : Generator) : String := s!"code-{g.name}.json"

def text (g : Generator) : String := s!"{g.form}(name={g.name})"

end Generator

namespace Check

/-- A check by a function that only reads the subject. -/
def reading (name form : String) (phase description : String)
    (messages : Json → Attempt (List Json)) : Check :=
  ⟨name, form, .str phase, description, .function fun subject => (messages subject, subject)⟩

/-- A check by a command. -/
def ofCommand (name : String) (phase : Json) (words : List Json) : Attempt Check := do
  let texts ← words.zipIdx.mapM fun (word, i) =>
    match word with
    | .str s => .ok s
    | v => Json.misuse (.notText i v.kindName)
  return ⟨name, "CommandCheck", phase, String.intercalate " " texts, .command texts⟩

def text (c : Check) : String := s!"{c.form}(name={c.name}, phase={c.phase.display})"

end Check

namespace AnyUnit

def kind : AnyUnit → UnitKind
  | stage _ => .stage
  | generator _ => .generator
  | check _ => .check

def name : AnyUnit → String
  | stage s => s.name
  | generator g => g.name
  | check c => c.name

def renamed (name : String) : AnyUnit → AnyUnit
  | stage s => stage { s with name := name }
  | generator g => generator { g with name := name }
  | check c => check { c with name := name }

def stage? : AnyUnit → Option Stage
  | stage s => some s
  | _ => none

def generator? : AnyUnit → Option Generator
  | generator g => some g
  | _ => none

def check? : AnyUnit → Option Check
  | check c => some c
  | _ => none

def text : AnyUnit → String
  | stage s => s.text
  | generator g => g.text
  | check c => c.text

def form : AnyUnit → String
  | stage s => s.form
  | generator g => g.form
  | check c => c.form

end AnyUnit

end FlowPlan

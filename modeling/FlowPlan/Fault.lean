import FlowPlan.Json.Display
import FlowPlan.Text.Order

/-!
# Faults

Everything that can go wrong, by cause. A cause says which exit status a build ends with, by which
class name reports call it and how its message reads.

## Main definitions

* `Misuse` — a value used in a way its kind does not allow.
* `Fault` — every cause of failure.
* `Fault.message`, `Fault.label`, `Fault.exitStatus` — how a cause is reported.
-/

namespace FlowPlan

/-- A value used in a way its kind does not allow. Kinds are given by their names in messages. -/
inductive Misuse where
  /-- Values of this kind have no such member. -/
  | noMember (kind member : String)
  | notIterable (kind : String)
  | notSubscriptable (kind : String)
  | notAssignable (kind : String)
  | notErasable (kind : String)
  /-- A list was given a position that is not a number. -/
  | listPosition (kind : String)
  /-- A text was given a position that is not a number. -/
  | textPosition (kind : String)
  /-- A list has no element at the position. -/
  | outOfRange
  /-- A mapping lacks the key. -/
  | missingKey (key : Json)
  /-- Values of this kind cannot be keys. -/
  | unhashable (kind : String)
  /-- The two kinds have no common order; the later value is compared with the earlier one. -/
  | unordered (later earlier : String)
  /-- An entry that should be a pair cannot be taken apart. -/
  | notPair (position : Nat)
  | pairLength (position length : Nat)
  /-- A list of texts to be joined holds another kind of value. -/
  | notText (position : Nat) (kind : String)
  /-- An argument is of the wrong kind; the text says what was expected. -/
  | wrongKind (text : String)
  /-- An argument is of the right kind and out of range. -/
  | outOfBounds (text : String)
  /-- A number is too large to be an integer. -/
  | overflow (text : String)
  deriving DecidableEq, Repr

namespace Misuse

def label : Misuse → String
  | noMember .. => "AttributeError"
  | missingKey _ => "KeyError"
  | outOfRange => "IndexError"
  | pairLength .. | outOfBounds _ => "ValueError"
  | overflow _ => "OverflowError"
  | _ => "TypeError"

def message : Misuse → String
  | noMember kind member => s!"'{kind}' object has no attribute '{member}'"
  | notIterable kind => s!"'{kind}' object is not iterable"
  | notSubscriptable kind => s!"'{kind}' object is not subscriptable"
  | notAssignable kind => s!"'{kind}' object does not support item assignment"
  | notErasable kind => s!"'{kind}' object doesn't support item deletion"
  | listPosition kind => s!"list indices must be integers or slices, not {kind}"
  | textPosition kind => s!"string indices must be integers, not '{kind}'"
  | outOfRange => "list index out of range"
  | missingKey key => key.notated
  | unhashable kind => s!"unhashable type: '{kind}'"
  | unordered later earlier =>
    s!"'<' not supported between instances of '{later}' and '{earlier}'"
  | notPair i => s!"cannot convert dictionary update sequence element #{i} to a sequence"
  | pairLength i n => s!"dictionary update sequence element #{i} has length {n}; 2 is required"
  | notText i kind => s!"sequence item {i}: expected str instance, {kind} found"
  | wrongKind text | outOfBounds text | overflow text => text

end Misuse

/-- Why the file system refused an operation. -/
inductive DiskCause where
  | permission
  | notFound
  | denied
  | alreadyExists
  | notDirectory
  | isDirectory
  | notEmpty
  | linkLoop
  deriving DecidableEq, Repr

namespace DiskCause

def label : DiskCause → String
  | permission | denied => "PermissionError"
  | notFound => "FileNotFoundError"
  | alreadyExists => "FileExistsError"
  | notDirectory => "NotADirectoryError"
  | isDirectory => "IsADirectoryError"
  | notEmpty | linkLoop => "OSError"

/-- The number and the wording of the system's report. -/
def report : DiskCause → Nat × String
  | permission => (1, "Operation not permitted")
  | notFound => (2, "No such file or directory")
  | denied => (13, "Permission denied")
  | alreadyExists => (17, "File exists")
  | notDirectory => (20, "Not a directory")
  | isDirectory => (21, "Is a directory")
  | notEmpty => (39, "Directory not empty")
  | linkLoop => (40, "Too many levels of symbolic links")

/-- The causes that have a class of their own. -/
def special : List DiskCause :=
  [permission, notFound, denied, alreadyExists, notDirectory, isDirectory]

/-- The class of a report by its number. -/
def labelOf (number : Json) : String :=
  match special.find? fun c => number = .int c.report.1 with
  | some c => c.label
  | none => "OSError"

end DiskCause

/-- Every cause of failure. A status that is given replaces the one of the cause. -/
inductive Fault where
  /-- A fatal condition of no particular kind. -/
  | fatal (text : String) (status : Option Int)
  /-- The configuration is missing, unreadable or invalid. -/
  | config (text : String) (status : Option Int)
  /-- A unit cannot read or produce the expected shape. -/
  | structural (text : String) (status : Option Int)
  /-- A document does not have the shape of its level; `path` leads to the offending value. -/
  | schema (text path : String)
  | stageFailed (stage text : String)
  /-- Checks of the gate failed, with the messages of each. -/
  | validationFailed (phase : String) (failures : Assoc String (List Json)) (status : Option Int)
  /-- Generators failed, with the message of each. -/
  | generatorsFailed (failures : Assoc String String)
  | interrupted (signal : Int)
  /-- A workspace or the pointer store cannot be read or written. -/
  | workspace (text : String) (status : Option Int)
  | locked (text : String) (status : Option Int)
  /-- A process depends on a name outside the plan. -/
  | unknownDependency (text : String)
  /-- The plan has a cycle; the names could not be ordered. -/
  | cycle (remaining : List String)
  | duplicateUnit (text : String)
  /-- No unit has the name that was asked for. -/
  | noUnit (text : String)
  /-- A name is not one of the pointer aliases. -/
  | unknownAlias (text : String)
  | misuse (m : Misuse)
  /-- The file system refused an operation on one path, or on two. -/
  | disk (cause : DiskCause) (path : String) (second : Option String)
  /-- A file holds no JSON text. -/
  | malformed
  /-- Octets are no text. -/
  | undecodable (text : String)
  /-- A document file cannot be used. -/
  | document (text : String)
  /-- A text is not shaped like a date. -/
  | notDate (text : String)
  /-- A text is shaped like a date that does not exist. -/
  | noSuchDate
  /-- A search or a wait has no end. -/
  | endless
  /-- A unit failed in its own way, under the class name it chose. -/
  | raised (category : String) (arguments : List Json)
  /-- A unit ended the whole program. -/
  | halted (code : List Json)
  /-- The user broke the program off. -/
  | cancelled (arguments : List Json)
  deriving DecidableEq, Repr

namespace Fault

/-- What stands in place of an explanation why a text is malformed. -/
def malformedText : String := "the text is malformed"

/-- The message of a failure that has only arguments: nothing, the one argument, or all of them. -/
def argumentsText : List Json → String
  | [] => ""
  | [v] => v.display
  | vs => Json.notatedTuple vs

/-- Classes of reports of the file system. -/
def systemClasses : List String :=
  ["OSError", "FileNotFoundError", "FileExistsError", "IsADirectoryError", "NotADirectoryError",
   "PermissionError"]

/-- A unit's own message. A missing key is quoted; a system report has a number and a wording. -/
def raisedText (category : String) (arguments : List Json) : String :=
  if systemClasses.contains category then
    match arguments with
    | [number, wording] => s!"[Errno {number.display}] {wording.display}"
    | [number, wording, path] => s!"[Errno {number.display}] {wording.display}: {path.notated}"
    | _ => argumentsText arguments
  else
    match category, arguments with
    | "KeyError", [key] => key.notated
    | _, _ => argumentsText arguments

def names (keys : List String) : String := String.intercalate ", " (Text.sort keys)

def message : Fault → String
  | fatal text _ | config text _ | structural text _ | workspace text _ | locked text _ => text
  | schema text path => if path.isEmpty then text else s!"{path}: {text}"
  | stageFailed stage text => s!"Stage {stage} failed: {text}"
  | validationFailed phase failures _ => s!"Validation failed ({phase}): {names failures.keys}"
  | generatorsFailed failures => s!"Code generation failed: {names failures.keys}"
  | interrupted signal => s!"Interrupted by signal {signal}"
  | unknownDependency text | duplicateUnit text | unknownAlias text | document text
  | undecodable text => text
  | noUnit text => Text.quoted text
  | cycle remaining => "Cycle detected among processes: " ++ String.intercalate ", " remaining
  | misuse m => m.message
  | disk cause path second =>
    let (number, wording) := cause.report
    let tail := match second with
      | some other => " -> " ++ Text.quoted other
      | none => ""
    s!"[Errno {number}] {wording}: {Text.quoted path}{tail}"
  | malformed => malformedText
  | notDate text => s!"Invalid isoformat string: {Text.quoted text}"
  | noSuchDate => "a field of the date is out of range"
  | endless => "there is no end to it"
  | raised category arguments => raisedText category arguments
  | halted code => argumentsText code
  | cancelled arguments => argumentsText arguments

/-- The class name under which reports list the cause. -/
def label : Fault → String
  | fatal .. => "DdcompileError"
  | config .. => "ConfigError"
  | structural .. => "StructuralError"
  | schema .. => "SchemaError"
  | stageFailed .. => "StageFailed"
  | validationFailed .. => "ValidationFailed"
  | generatorsFailed _ => "GeneratorFailure"
  | interrupted _ => "RunInterrupted"
  | workspace .. => "WorkspaceError"
  | locked .. => "WorkspaceLockedError"
  | unknownDependency _ => "UnknownDependencyError"
  | cycle _ => "CycleDetectedError"
  | duplicateUnit _ => "DuplicateUnitError"
  | noUnit _ => "KeyError"
  | misuse m => m.label
  | disk cause .. => cause.label
  | malformed => "JSONDecodeError"
  | undecodable _ => "UnicodeDecodeError"
  | unknownAlias _ | document _ | notDate _ | noSuchDate => "ValueError"
  | raised "OSError" (number :: _ :: _) => DiskCause.labelOf number
  | raised category _ => category
  | endless => "TimeoutError"
  | halted _ => "SystemExit"
  | cancelled _ => "KeyboardInterrupt"

/-- The message, or the class name where there is none. -/
def describe (f : Fault) : String :=
  if f.message.isEmpty then f.label else f.message

/-- The cause is one of the fatal conditions of a build. -/
def isBuildFailure : Fault → Bool
  | fatal .. | config .. | structural .. | schema .. | stageFailed .. | validationFailed ..
  | generatorsFailed _ | interrupted _ | workspace .. | locked .. => true
  | _ => false

/-- A unit may fail in this way without ending the program. -/
def isOrdinary : Fault → Bool
  | halted _ | cancelled _ => false
  | _ => true

/-- A file was found, and its content is not what it should be. -/
def isBadContent : Fault → Bool
  | malformed | undecodable _ | document _ => true
  | _ => false

/-- The status that a unit chose to end the program with. -/
def haltStatus : List Json → Int
  | [.int n] => n
  | [.bool true] => 1
  | [.bool false] => 0
  | _ => 1

/-- The exit status that a build ends with. -/
def exitStatus : Fault → Int
  | fatal _ status | workspace _ status => status.getD 1
  | config _ status | structural _ status => status.getD 2
  | schema .. | stageFailed .. => 2
  | validationFailed _ _ status => status.getD 3
  | generatorsFailed _ => 4
  | locked _ status => status.getD 75
  | interrupted signal => 128 + signal
  | cancelled _ => 130
  | halted code => haltStatus code
  | _ => 1

/-- The exit status as records keep it. A unit may end the program with a truth value. -/
def recordedStatus : Fault → Json
  | halted [.bool b] => .bool b
  | f => .int f.exitStatus

end Fault

/-- A computation that may fail. -/
abbrev Attempt (α : Type) := Except Fault α

end FlowPlan

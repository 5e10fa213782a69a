import FlowPlan.Json.Access
import FlowPlan.Json.Reader
import FlowPlan.Text.Lines
import FlowPlan.Text.Word

/-!
# Excerpts of a log

The lines of a log that tell of errors. A line that holds a record is judged by its severity and
shown with the text of its fault; any other line is kept if one of a few words stands in it on its
own.

## Main definitions

* `Excerpt.ofLine` — what one line of the log contributes.
* `Excerpt.ofText` — the last lines of all that a log contributes.
-/

namespace FlowPlan.Excerpt

/-! ## Lines without a record -/

/-- The words that mark an error. -/
def alarms : List (List Char) :=
  ["error", "exception", "traceback", "failed", "fatal"].map String.toList

/-- Letters that stand for another one when case is ignored: both other forms of `i`, the long `s` and
the Kelvin sign. -/
def foldChar (c : Char) : Char :=
  if 'A' ≤ c && c ≤ 'Z' then Char.ofNat (c.toNat + 32)
  else if c.toNat = 0x130 || c.toNat = 0x131 then 'i'
  else if c.toNat = 0x17F then 's'
  else if c.toNat = 0x212A then 'k'
  else c

/-- A word stands on its own here: what comes before is no part of a word, and the word ends. -/
def alarmAt (before : Option Char) (cs : List Char) : Bool :=
  !before.any Text.isWordChar &&
    alarms.any fun word =>
      (cs.take word.length).map foldChar = word &&
        !((cs.drop word.length).head?.any Text.isWordChar)

/-- One of the words stands on its own in the line; `before` is the character before it. -/
def isAlarming (before : Option Char) : List Char → Bool
  | [] => false
  | c :: cs => alarmAt before (c :: cs) || isAlarming (some c) cs

/-! ## Lines with a record -/

/-- The severities that are shown. -/
def isSevere : Json → Bool
  | .str "ERROR" | .str "CRITICAL" => true
  | _ => false

/-- A field of a record, empty where the record has none. -/
def fieldOf (fields : Fields) (name : String) : Json := (Assoc.find? fields name).getD (.str "")

/-- What a record says: its severity, its stage if it has one, and its message. -/
def heading (severity : Json) (fields : Fields) : String :=
  let stage := fieldOf fields "stage"
  let place := if stage.truthy then s!"[{stage.display}] " else ""
  let message := fieldOf fields "message"
  s!"{severity.display}: {place}{message.display}"

/-- The lines of a record: what it says, and the text of its fault below. -/
def recordLines (severity : Json) (fields : Fields) : List String :=
  heading severity fields ::
    (Text.messageLines (fieldOf fields "exception").display).map ("    " ++ ·)

/-! ## The excerpt -/

/-- What a line of the log contributes. -/
def ofLine (line : List Char) : List String :=
  match Json.parse? line with
  | some (.obj fields) =>
    match Assoc.find? fields "level" with
    | some severity => if isSevere severity then recordLines severity fields else []
    | none => plain
  | _ => plain
where
  /-- A line without a record. -/
  plain : List String := if isAlarming none line then [String.ofList line] else []

/-- Put a line at the end of a queue of at most `limit` lines. A queue that gets too long loses its first
lines. -/
def push (limit : Nat) (queue : List String) (line : String) : List String :=
  let longer := queue ++ [line]
  longer.drop (longer.length - limit)

/-- The last lines that a log contributes, at most `limit` of them. -/
def ofText (log : List Char) (limit : Nat) : List String :=
  (Text.fileLines log).foldl (fun queue line => (ofLine line).foldl (push limit) queue) []

end FlowPlan.Excerpt

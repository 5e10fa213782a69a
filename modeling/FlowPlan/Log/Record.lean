import FlowPlan.Fault
import FlowPlan.Instant
import FlowPlan.Json.Writer

/-!
# Log records

What a build reports about itself. A record is written as a JSON object on one line, as one readable
line, or, on the console, as its severity and message.
-/

namespace FlowPlan

/-- How much a record matters: 10 for a detail, 20 for a piece of news, 30 for a warning, 40 for an
error, 50 for a disaster. -/
abbrev Severity := Int

namespace Severity

def debug : Severity := 10
def info : Severity := 20
def warning : Severity := 30
def error : Severity := 40
def critical : Severity := 50

def name (s : Severity) : String :=
  match s with
  | 0 => "NOTSET"
  | 10 => "DEBUG"
  | 20 => "INFO"
  | 30 => "WARNING"
  | 40 => "ERROR"
  | 50 => "CRITICAL"
  | n => s!"Level {n}"

/-- The severities that a configuration may name. -/
def named : Assoc String Severity :=
  [("DEBUG", debug), ("INFO", info), ("WARNING", warning), ("WARN", warning), ("ERROR", error),
   ("CRITICAL", critical), ("FATAL", critical), ("NOTSET", 0)]

end Severity

/-- One record. The extra fields are absent unless the reporter gives them. -/
structure LogRecord where
  severity : Severity
  logger : String
  message : String
  stage : Option Json := none
  event : Option Json := none
  metadata : Option Json := none
  /-- The fault that is reported. -/
  fault : Option Fault := none

/-- The text of a fault in a record: its class and its message. -/
def Fault.trace (f : Fault) : String :=
  "Traceback (most recent call last):\n" ++
    (if f.message.isEmpty then f.label else s!"{f.label}: {f.message}")

namespace LogRecord

def optional (name : String) (v : Option Json) : Fields := (v.map fun v => (name, v)).toList

/-- The fields of a record but the time, in the order in which they are written. -/
def fields (severityName : String) (r : LogRecord) : Fields :=
  [("level", .str severityName), ("logger", .str r.logger), ("message", .str r.message)] ++
    optional "stage" r.stage ++ optional "event" r.event ++ optional "metadata" r.metadata ++
    optional "exception" (r.fault.map fun f => .str f.trace)

/-- A record as a JSON object on one line. -/
def structuredLine (now : Instant) (r : LogRecord) : String :=
  Json.line (.obj (("timestamp", .str now.text) :: r.fields r.severity.name))

/-- A record as a readable line, with the text of the fault below it. -/
def readableLine (now : Instant) (r : LogRecord) : String :=
  s!"{now.stamp} - {r.logger} - {r.severity.name} - {r.message}" ++
    (match r.fault with
      | some f => "\n" ++ f.trace
      | none => "")

/-- A record on the console. -/
def consoleLine (r : LogRecord) : String :=
  s!"{r.severity.name}: {r.message}" ++
    (match r.fault with
      | some f => "\n" ++ f.trace
      | none => "")

end LogRecord

end FlowPlan

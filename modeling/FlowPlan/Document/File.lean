import FlowPlan.Disk.Basic
import FlowPlan.Text.Utf8

/-!
# Document files

A document is read from a file. The ending of the file's name decides between two notations: JSON,
and YAML. The reader of YAML is none of our own: it is a parameter, which gives the value that a text
denotes, or nothing where the text is malformed.
-/

namespace FlowPlan.Document

/-- Endings of names that announce YAML. -/
def yamlSuffixes : List String := [".yaml", ".yml"]

/-- Read the text of a document file in the notation that its name announces. -/
def ofText (yaml : List Char → Option Json) (path : Path) (text : List Char) : Attempt Json :=
  let value? := if yamlSuffixes.contains path.suffix then yaml text else Json.parse? text
  match value? with
  | none => .error (.document s!"Cannot parse {path.text}: {Fault.malformedText}")
  | some (.obj fields) => .ok (.obj fields)
  | some _ => .error (.document s!"{path.text} does not contain a mapping")

/-- Read the octets of a document file. -/
def ofOctets (yaml : List Char → Option Json) (path : Path) (octets : List UInt8) : Attempt Json :=
  match Text.decode octets with
  | .ok text => ofText yaml path text
  | .error broken => .error (.undecodable broken.text)

/-- Read a document from a file. -/
def load (yaml : List Char → Option Json) (path : Path) (d : Disk) : Attempt Json := do
  ofText yaml path (← d.readText path).toList

end FlowPlan.Document

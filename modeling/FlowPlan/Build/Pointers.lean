import FlowPlan.Site

/-!
# Pointers

A build root binds a few aliases to workspace keys. The bindings are kept in one file, which is
replaced in a single step, and shown as links beside it.

## Main definitions

* `Pointers.read`, `Pointers.get` — the present bindings.
* `Pointers.update` — several bindings in one step, then their links.
* `Pointers.removeIf`, `Pointers.promote` — conditional removal, and the move to a new compiled key.
-/

namespace FlowPlan

/-- The bindings of a build root, and whether they are shown as links. -/
structure Pointers where
  root : Path
  links : Bool

/-- A binding may be to any value that the file holds; null asks for removal. -/
abbrev Bindings := Assoc String Json

namespace Pointers

def latest : String := "latest"
def running : String := "running"
def aborted : String := "aborted"
def compiled : String := "compiled"
def compiledBackup : String := "compiled-backup"

def aliases : List String := [latest, running, aborted, compiled, compiledBackup]

def logger : String := "ddcompile.workspace"

def path (p : Pointers) : Path := p.root.child "pointers.json"

def checkAlias (name : String) : Attempt Unit :=
  if aliases.contains name then .ok ()
  else
    .error (.unknownAlias s!"Unknown alias: {name}. Known: {Json.notated (.arr (aliases.map .str))}")

/-- The bindings that the file holds. -/
def bindingsOf (path : Path) : Json → Attempt Bindings
  | .obj fs => .ok (fs.filter (aliases.contains ·.1))
  | _ => .error (.workspace s!"Corrupt pointer store {path.text}: not a mapping" none)

/-- All present bindings; there are none without the file. -/
def load (p : Pointers) (d : Disk) : Attempt Bindings :=
  if !d.exists? p.path then .ok []
  else
    match d.readJson p.path with
    | .ok v => bindingsOf p.path v
    | .error f =>
      if f.isBadContent then .error (.workspace s!"Corrupt pointer store {p.path.text}: {f.message}" none)
      else .error f

def read (p : Pointers) : Session Bindings := Session.read p.load

/-- The value that an alias is bound to, null if there is none. -/
def get (p : Pointers) (name : String) : Session Json := do
  Action.lift (checkAlias name)
  return (Assoc.find? (← p.read) name).getD .null

/-- Bind or remove one alias. -/
def rebind (bindings : Bindings) (change : String × Json) : Bindings :=
  match change.2 with
  | .null => Assoc.erase bindings change.1
  | key => Assoc.set bindings change.1 key

/-- Make a link, or bind it anew, without a moment in which it is missing. -/
def bindLink (target : Json) (link : Path) : Session Unit := do
  let temporary := link.withName s!".{link.name}.tmp"
  if ← Session.read fun d => .ok (d.isLink temporary || d.exists? temporary) then
    Session.write (·.unlink temporary)
  match target with
  | .str s => Session.write (·.makeLink s temporary)
  | v =>
    Action.fail (.misuse (.wrongKind
      s!"symlink: src should be string, bytes or os.PathLike, not {v.kindName}"))
  Session.write (·.moveLink temporary link)

/-- Make the link of one alias agree with its binding. -/
def updateLink (p : Pointers) (change : String × Json) : Session Unit := do
  let link := p.root.child change.1
  match change.2 with
  | .null => if ← Session.read fun d => .ok (d.isLink link) then Session.write (·.unlink link)
  | key => bindLink key link

/-- Apply several changes: the file first, in one step, then the links. -/
def update (p : Pointers) (changes : Bindings) : Session Bindings := do
  changes.forM fun change => Action.lift (checkAlias change.1)
  let bindings := changes.foldl rebind (← p.read)
  Session.write (·.makeDirs p.root)
  Session.write (·.writeJson p.path (.obj bindings))
  if p.links then changes.forM p.updateLink
  Session.debug logger "Pointers updated" (some "pointers_updated") (some (.obj changes))
  return bindings

def set (p : Pointers) (name : String) (key : Json) : Session Unit := discard (p.update [(name, key)])

def remove (p : Pointers) (name : String) : Session Unit := p.set name .null

/-- Remove an alias if it is still bound to the key. -/
def removeIf (p : Pointers) (name : String) (key : Json) : Session Bool := do
  if Json.same (← p.get name) key then
    p.remove name
    return true
  else return false

/-- Bind `compiled` to the key. Another key that it was bound to becomes the backup first. -/
def promote (p : Pointers) (key : Json) : Session Json := do
  let previous ← p.get compiled
  if previous ≠ .null && !Json.same previous key then p.set compiledBackup previous
  p.set compiled key
  return previous

end Pointers

end FlowPlan

import FlowPlan.Build.Key
import FlowPlan.Build.Pointers

/-!
# Workspaces and build directories

A workspace is the private directory of one attempt. Its record is held while the attempt is in
progress, and written to the workspace after every change. A build directory allocates workspaces
under keys that increase, and binds the pointers to them.

## Main definitions

* `Workspace.writeArtifact`, `Workspace.link`, `Workspace.addArtifact` — artifacts and their listing.
* `Workspace.load` — the record that a workspace holds on disk.
* `BuildDir.allocate` — a new workspace.
* `BuildDir.resolve`, `BuildDir.promote` — the workspace behind an alias, and the move to a new one.
-/

namespace FlowPlan

/-- The directory of one attempt. -/
structure Workspace where
  root : Path
  key : String
  deriving DecidableEq, Repr

namespace Workspace

def path (w : Workspace) : Path := w.root.child w.key

def recordPath (w : Workspace) : Path := w.path.child "status.json"

def logPath (w : Workspace) : Path := w.path.child "run.log"

def artifactPath (w : Workspace) (name : String) : Path := w.path.child name

/-! ## The record -/

/-- The record of the attempt; one that is not in progress would start now. -/
def recordIn (w : Workspace) (s : Site) : Record :=
  (Assoc.find? s.records w.path.text).getD (Record.start w.key s.clock)

def record (w : Workspace) : Session Record := Action.look w.recordIn

def setRecord (w : Workspace) (r : Record) : Session Unit :=
  Action.modify fun s => { s with records := Assoc.set s.records w.path.text r }

def changeRecord (w : Workspace) (f : Instant → Record → Record) : Session Unit :=
  Action.modify fun s =>
    { s with records := Assoc.set s.records w.path.text (f s.clock (w.recordIn s)) }

/-- No longer hold the record. -/
def forget (w : Workspace) : Session Unit :=
  Action.modify fun s => { s with records := Assoc.erase s.records w.path.text }

/-- Write the record to the workspace. -/
def saveRecord (w : Workspace) : Session Unit := do
  let r ← w.record
  Session.write (·.writeJson w.recordPath r.toJson)

def finish (w : Workspace) (status exitStatus error : Json) : Session Unit :=
  w.changeRecord fun now r => r.finish now status exitStatus error

/-- The record that the workspace holds on disk. -/
def load (w : Workspace) (d : Disk) : Attempt Record := do
  if !d.exists? w.recordPath then throw (.workspace s!"Workspace not found: {w.path.text}" none)
  Record.ofJson (← d.readJson w.recordPath)

/-- The notation of a workspace in messages. -/
def text (w : Workspace) (r : Record) : String := s!"Workspace(key={w.key}, status={r.status.display})"

/-! ## Artifacts -/

/-- List an artifact in the record, and write the record. -/
def addArtifact (w : Workspace) (name : String) : Session Unit := do
  w.changeRecord fun _ r => r.addArtifact name
  w.saveRecord

/-- Write an artifact and list it. -/
def writeArtifact (w : Workspace) (name : String) (v : Json) : Session Path := do
  let path := w.artifactPath name
  Session.write (·.writeJson path v)
  w.addArtifact name
  return path

def readArtifact (w : Workspace) (name : String) : Session Json :=
  Session.read (·.readJson (w.artifactPath name))

/-- Make a link to an artifact that exists, and list it. -/
def link (w : Workspace) (name target : String) : Session Path := do
  if !(← Session.read fun d => .ok (d.exists? (w.artifactPath target))) then
    Action.fail (.workspace s!"Cannot link {name}: {target} does not exist" none)
  let path := w.artifactPath name
  Pointers.bindLink (.str target) path
  w.addArtifact name
  return path

end Workspace

/-- The directory that holds the workspaces and the pointers of a project. -/
structure BuildDir where
  root : Path
  links : Bool

namespace BuildDir

def pointers (b : BuildDir) : Pointers := ⟨b.root, b.links⟩

def workspace (b : BuildDir) (key : String) : Workspace := ⟨b.root, key⟩

/-- The fault of a value that should be a key. -/
def notKey (v : Json) : Attempt α := Json.misuse (.wrongKind s!"a key has to be a text, not {v.kindName}")

/-- The value that the latest key is bound to, as a text; nothing that is not given counts. -/
def latestKey : Json → Attempt (Option String)
  | .str s => .ok (if s.isEmpty then none else some s)
  | v => if v.truthy then notKey v else .ok none

/-- Take the first key that is free, and make its directory. -/
def claim (b : BuildDir) (latest : Option String) : Session String := Action.atomic fun s =>
  let isFree (key : String) : Bool := (s.disk.lookup? (b.root.child key) false).isNone
  match Key.first? isFree s.disk.entries.length s.clock latest with
  | none => (.error .endless, s)
  | some key =>
    match s.disk.makeDir (b.root.child key) with
    | .ok d => (.ok key, { s with disk := d })
    | .error f => (.error f, s)

/-- Make a new workspace, under a key that comes after the latest one. -/
def allocate (b : BuildDir) : Session Workspace := do
  Session.write (·.makeDirs b.root)
  let latest ← Action.lift (latestKey (← b.pointers.get Pointers.latest))
  let key ← b.claim latest
  let w := b.workspace key
  w.setRecord (Record.start key (← Session.now))
  w.saveRecord
  Session.debug Pointers.logger s!"Allocated workspace {key}"
  return w

/-- The workspace that an alias is bound to, with its record on disk. -/
def resolve (b : BuildDir) (name : String) : Session (Option (Workspace × Record)) := do
  match ← b.pointers.get name with
  | .null => return none
  | .str key =>
    let w := b.workspace key
    return some (w, ← Session.read w.load)
  | v => Action.lift (notKey v)

/-- Make a workspace the compiled one; the former one is returned. -/
def promote (b : BuildDir) (w : Workspace) : Session Json := do
  let previous ← b.pointers.promote (.str w.key)
  Session.info Pointers.logger s!"Promoted workspace {w.key}" "workspace_promoted" none
    (some (.obj [("compiled", .str w.key), ("backup", previous)]))
  return previous

end BuildDir

end FlowPlan

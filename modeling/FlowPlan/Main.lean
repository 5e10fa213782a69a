import FlowPlan.Console.CommandLine
import Std.Time.DateTime.Timestamp

/-!
# The program

A command runs on a picture of the files below the working directory, which is taken before it
starts. What the command has changed is written back when it has ended. Links cannot be made here: a
link to a file is written as a copy of the file, and one to a directory is left to the pointer store.
-/

namespace FlowPlan.Program

/-! ## Time -/

def epoch : Instant := ⟨1970, 1, 1, 0, 0, 0, 0, some 0⟩

def now : IO Instant := do
  let t ← Std.Time.Timestamp.now
  return Instant.ofMicros (epoch.micros + t.toNanosecondsSinceUnixEpoch.toInt / 1000).toNat

/-! ## Taking the picture -/

/-- The directories on the way to an address. -/
def wayTo (a : Address) : Assoc Address Entry :=
  (List.range a.length).map fun i => (a.take (i + 1), .dir)

/-- Add what is below a directory. Links, and files that hold no text, are left out. -/
partial def gather (a : Address) (entries : Array IO.FS.DirEntry) (d : Disk) : IO Disk :=
  entries.foldlM (fun d e => do
    let b := a ++ [e.fileName]
    match (← e.path.symlinkMetadata).type with
    | .dir => gather b (← e.path.readDir) (d.set b .dir)
    | .file =>
      match String.fromUTF8? (← IO.FS.readBinFile e.path) with
      | some s => return d.set b (.file (.text s))
      | none => return d
    | _ => return d) d

/-! ## Writing back -/

/-- The path that leads to an address from the top. -/
def pathTo (a : Address) : Path := ⟨"/", a.drop 1⟩

/-- Write an entry of the disk. -/
def writeEntry (d : Disk) (a : Address) (e : Entry) : IO Unit :=
  let path := pathTo a
  match e, d.readText path with
  | .dir, _ => IO.FS.createDirAll path.text
  | _, .ok s => IO.FS.writeFile path.text s
  | _, .error _ => return ()

/-- Write the entries that are new or changed, and remove the files that are gone. -/
def writeBack (before after : Disk) : IO Unit := do
  after.entries.forM fun (a, e) => do
    if before.find? a ≠ some e then writeEntry after a e
  before.entries.forM fun (a, _) => do
    if (after.find? a).isNone then IO.FS.removeFile (pathTo a).text

/-! ## Ending -/

def usage : String := "Usage: ddcompile (compile INPUT | qualify INPUT | status | list) [OPTIONS]"

/-- Report a bad end, and give the status of any end. -/
def finish : CommandLine.Ending → IO UInt32
  | .exited status => return UInt32.ofNat (status % 256).toNat
  | .misused => do
    IO.eprintln usage
    return 2
  | .crashed f => do
    IO.eprintln s!"{f.label}: {f.message}"
    return 1

def run (arguments : List String) : IO UInt32 := do
  let top ← IO.currentDir
  let directory := Path.parse top.toString
  let home := Disk.namesOf directory
  let before ← gather home (← top.readDir) { entries := wayTo home, home := home }
  let (outcome, site) := (CommandLine.run (.plain directory) arguments).run (Site.ofDisk before (← now))
  writeBack before site.disk
  let reply := match outcome with
    | .ok reply => reply
    | .error f => .crash f
  IO.print reply.output
  IO.eprint reply.errors
  finish reply.ending

end FlowPlan.Program

def main (arguments : List String) : IO UInt32 := FlowPlan.Program.run arguments

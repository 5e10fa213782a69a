import FlowPlan.Disk.Path
import FlowPlan.Json.Access
import FlowPlan.Json.Reader
import FlowPlan.Json.Writer

/-!
# Files, directories and links

A disk maps addresses, which are lists of names from the top, to directories, files and symbolic
links. An artifact is kept as the value it holds, any other file as its text. An operation is given
a path, which is followed through links to an address; each operation is one step, so a file is
either as it was or as it is written.

## Main definitions

* `Disk.locate` — the address that a path leads to.
* `Disk.exists?`, `Disk.isDir`, `Disk.isLink` — what a path leads to.
* `Disk.readText`, `Disk.readJson`, `Disk.writeText`, `Disk.append`, `Disk.writeJson` — files.
* `Disk.makeDir`, `Disk.makeDirs`, `Disk.makeLink`, `Disk.rename`, `Disk.unlink` — the rest.
-/

namespace FlowPlan

/-- The names from the top of the disk to an entry. -/
abbrev Address := List String

/-- What a file holds. -/
inductive Content where
  /-- A value, written as an artifact with its fields in order. -/
  | json (v : Json)
  | text (s : String)
  deriving DecidableEq, Repr

/-- The text of a file. -/
def Content.toText : Content → String
  | json v => v.artifactText
  | text s => s

inductive Entry where
  | dir
  | file (c : Content)
  | link (target : String)
  deriving DecidableEq, Repr

structure Disk where
  entries : Assoc Address Entry
  /-- The directory from which paths without an anchor are followed. -/
  home : Address := []
  deriving DecidableEq, Repr

namespace Disk

/-! ## Looking up -/

/-- The top of the disk is always a directory. -/
def find? (d : Disk) (a : Address) : Option Entry :=
  match a with
  | [] => some .dir
  | _ => Assoc.find? d.entries a

def set (d : Disk) (a : Address) (e : Entry) : Disk := { d with entries := Assoc.set d.entries a e }

def erase (d : Disk) (a : Address) : Disk := { d with entries := Assoc.erase d.entries a }

/-- The entries of a directory, by name. -/
def children (d : Disk) (a : Address) : List (String × Entry) :=
  d.entries.filterMap fun (b, e) =>
    if b.dropLast = a then b.getLast?.map fun name => (name, e) else none

/-- Where following a list of names has led. -/
inductive Walk where
  | arrived (a : Address)
  | refused (cause : DiskCause)
  /-- At a link, with the names that remain to be followed behind it. -/
  | atLink (parent : Address) (target : String) (rest : List String)

/-- Follow names from a directory up to the first link. The last name need not exist, and is a link
to be followed only if `follow` is set. -/
def descend (d : Disk) (follow : Bool) : Address → List String → Walk
  | a, [] => .arrived a
  | a, name :: rest =>
    if name = ".." then descend d follow a.dropLast rest
    else
      let b := a ++ [name]
      match d.find? b with
      | none => if rest.isEmpty then .arrived b else .refused .notFound
      | some .dir => descend d follow b rest
      | some (.file _) => if rest.isEmpty then .arrived b else .refused .notDirectory
      | some (.link target) =>
        if rest.isEmpty && !follow then .arrived b else .atLink a target rest

/-- The names of a path, from where it starts; an absolute path starts at the name of its anchor. -/
def namesOf (p : Path) : Address := if p.isAbsolute then "/" :: p.parts else p.parts

/-- Follow names and links; `links` bounds the number of links. -/
def follow (d : Disk) (last : Bool) : Nat → Address → List String → Except DiskCause Address
  | links, a, names =>
    match descend d last a names with
    | .arrived b => .ok b
    | .refused cause => .error cause
    | .atLink parent target rest =>
      match links with
      | 0 => .error .linkLoop
      | links + 1 =>
        let p := Path.parse target
        follow d last links (if p.isAbsolute then [] else parent) (namesOf p ++ rest)

/-- The most links that one path may lead through. -/
def maxLinks : Nat := 40

/-- The address that a path leads to. With `last` a link at its very end is followed too. -/
def locate (d : Disk) (p : Path) (last : Bool := true) : Except DiskCause Address :=
  follow d last maxLinks (if p.isAbsolute then [] else d.home) (namesOf p)

/-- What a path leads to. -/
def lookup? (d : Disk) (p : Path) (last : Bool := true) : Option Entry :=
  match d.locate p last with
  | .ok a => d.find? a
  | .error _ => none

def exists? (d : Disk) (p : Path) : Bool := (d.lookup? p).isSome

def isDir (d : Disk) (p : Path) : Bool := d.lookup? p = some .dir

def isLink (d : Disk) (p : Path) : Bool :=
  match d.lookup? p false with
  | some (.link _) => true
  | _ => false

/-! ## Files -/

/-- The result of an operation on the disk. -/
abbrev Change := Except Fault Disk

def refuse (cause : DiskCause) (p : Path) : Attempt α := .error (.disk cause p.text none)

/-- A name may hold any character but the null character. -/
def checkName (text : String) : Attempt Unit :=
  if text.toList.contains '\x00' then Json.misuse (.outOfBounds "embedded null byte") else .ok ()

/-- The address that a path leads to, or the fault of an operation on that path. -/
def address (d : Disk) (p : Path) (last : Bool := true) : Attempt Address := do
  checkName p.text
  match d.locate p last with
  | .ok a => return a
  | .error cause => refuse cause p

/-- The content of a file. -/
def readContent (d : Disk) (p : Path) : Attempt Content := do
  match d.find? (← d.address p) with
  | some (.file c) => return c
  | some .dir => refuse .isDirectory p
  | _ => refuse .notFound p

def readText (d : Disk) (p : Path) : Attempt String := (d.readContent p).map Content.toText

/-- The value of a file: that of an artifact, or the one that its text denotes. -/
def Content.toJson : Content → Attempt Json
  | .json v => .ok v
  | .text s =>
    match Json.parse? s.toList with
    | some v => .ok v
    | none => .error .malformed

def readJson (d : Disk) (p : Path) : Attempt Json := do Content.toJson (← d.readContent p)

/-- The address of a file to be opened for writing. Its directory has to be there. -/
def fileAddress (d : Disk) (p : Path) : Attempt Address := do
  let a ← d.address p
  match d.find? a, d.find? a.dropLast with
  | some .dir, _ => refuse .isDirectory p
  | some _, _ | none, some .dir => return a
  | none, _ => refuse .notFound p

/-- Replace the text of a file, through a link if the path ends in one. -/
def writeText (d : Disk) (p : Path) (s : String) : Change := do
  return d.set (← d.fileAddress p) (.file (.text s))

/-- Make sure that there is a file, and keep what it holds. -/
def touch (d : Disk) (p : Path) : Change := do
  let a ← d.fileAddress p
  match d.find? a with
  | some _ => return d
  | none => return d.set a (.file (.text ""))

/-- Add text to the end of the file at an address, if it is one. -/
def append (d : Disk) (a : Address) (s : String) : Disk :=
  match d.find? a with
  | some (.file c) => d.set a (.file (.text (c.toText ++ s)))
  | _ => d

/-! ## Directories and links -/

/-- Make one directory. -/
def makeDir (d : Disk) (p : Path) : Change := do
  let a ← d.address p false
  match d.find? a, d.find? a.dropLast with
  | some _, _ => refuse .alreadyExists p
  | none, some .dir => return d.set a .dir
  | none, _ => refuse .notFound p

/-- Make one directory unless it is there. -/
def ensureDir (d : Disk) (p : Path) : Change :=
  if d.isDir p then .ok d else d.makeDir p

/-- Make a directory and those of its `n` parents that are missing. -/
def makeDirsUp (d : Disk) : Nat → Path → Change
  | 0, p => d.ensureDir p
  | n + 1, p =>
    match d.ensureDir p with
    | .error (.disk .notFound _ _) => do (← d.makeDirsUp n p.parent).ensureDir p
    | result => result

/-- Make a directory and its parents where they are missing. -/
def makeDirs (d : Disk) (p : Path) : Change := d.makeDirsUp p.parts.length p

/-- Put an entry in the place of what a path leads to; a directory stays. `source` is the path that
the entry comes from. -/
def replaceWith (d : Disk) (source target : Path) (e : Entry) : Change := do
  checkName target.text
  let a ← match d.locate target false with
    | .ok a => pure a
    | .error cause => .error (.disk cause source.text (some target.text))
  if d.find? a = some .dir then .error (.disk .isDirectory source.text (some target.text))
  else return d.set a e

/-- Write an artifact under a temporary name and move it into place, so that no one sees half of
it. Missing parents are made. -/
def writeJson (d : Disk) (p : Path) (v : Json) : Change := do
  let d ← d.makeDirs p.parent
  d.replaceWith (p.withName s!".{p.name}.tmp") p (.file (.json v.sortKeys))

/-- Make a link to a target that need not exist. -/
def makeLink (d : Disk) (target : String) (p : Path) : Change := do
  checkName target
  if target.isEmpty then .error (.disk .notFound target (some p.text))
  else
    let a ← d.address p false
    match d.find? a with
    | some _ => .error (.disk .alreadyExists target (some p.text))
    | none => return d.set a (.link target)

/-- Move a link over another one or over a file. A directory cannot take the place of one. -/
def moveLink (d : Disk) (source target : Path) : Change := do
  let a ← d.address source false
  match d.find? a with
  | some .dir => .error (.disk .notDirectory source.text (some target.text))
  | some e => return (← d.replaceWith source target e).erase a
  | none => .error (.disk .notFound source.text (some target.text))

/-- Remove a file or a link. -/
def unlink (d : Disk) (p : Path) : Change := do
  let a ← d.address p false
  match d.find? a with
  | some .dir => refuse .isDirectory p
  | some _ => return d.erase a
  | none => refuse .notFound p

end Disk

end FlowPlan

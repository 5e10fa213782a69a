import FlowPlan.Site

/-!
# The lock of a build root

One build at a time works in a build root: it holds a lock on a file there. The lock is advisory, so
the file itself may be read and written by anyone.
-/

namespace FlowPlan.Lock

/-- Where the lock of a build root is. -/
def path (root : Path) : Path := root.child ".lock"

def heldMessage (path : Path) : String :=
  s!"Another build is running in {path.parent.text} (lock held on {path.text})"

/-- Take the lock on the file at an address, and write the holder's mark into the file. Alone, a wait
for a lock that is held has no end. -/
def take (path : Path) (wait : Bool) (a : Address) : Session Unit := Action.atomic fun s =>
  if s.locked.contains a then
    (.error (if wait then .endless else .locked (heldMessage path) none), s)
  else
    (.ok (), { s with locked := a :: s.locked, disk := s.disk.set a (.file (.text "held\n")) })

/-- Take the lock. If another build holds it, wait for it or fail. -/
def acquire (path : Path) (wait : Bool) : Session Address := do
  Session.write (·.makeDirs path.parent)
  Session.write (·.touch path)
  let a ← Session.read (·.address path)
  take path wait a
  return a

def release (a : Address) : Session Unit :=
  Action.modify fun s => { s with locked := s.locked.erase a }

end FlowPlan.Lock

import FlowPlan.Disk.Basic

/-!
# Hosts

A build starts programs that are none of its own. What such a program does is up to the host: of it the
build sees what it writes to its two streams and how it ends, and finds the files and the locks as it
leaves them. A host is a parameter of everything that starts programs, and nothing is said about it here.

## Main definitions

* `Ground` — what a program finds and leaves.
* `Host` — what becomes of a command.
-/

namespace FlowPlan

abbrev Octets := List UInt8

/-- How a process ends. -/
inductive Process.Ending where
  | exited (status : Nat)
  | killed (signal : Nat)
  deriving DecidableEq, Repr

/-- What a process lets others see of it. -/
structure Process where
  output : Octets
  errors : Octets
  ending : Process.Ending

/-- The files of a host, and those of them on which someone holds a lock. A lock is on a file and not on
its name: where a file is removed its lock is gone, whatever has the name then. -/
structure Ground where
  disk : Disk
  locked : List Address

/-- What becomes of a command, which is given by its words: a process that has ended and the ground that
it has left, or what the system says if no process can be started. -/
structure Host where
  start : List String → Ground → Except String (Process × Ground)

/-- A host on which every command does the same and touches nothing. -/
def Host.uniform (p : Process) : Host := ⟨fun _ g => .ok (p, g)⟩

end FlowPlan

import FlowPlan.Proofs.Custody
import FlowPlan.Proofs.History

/-!
# On the way to the lock

Before a build has the lock it makes the build root, makes the lock file and looks it up. Others may do the
same at the same time: each of these steps can still be taken after any other, undoes none of them and
leaves what a build comes to as it is. Once the build root and the lock file are there they change nothing
at all.

## Main definitions

* `Action.turn` — a single step.
* `Disk.Furnished`, `Disk.Passable` — the lock file is there, or can be made.
* `Builder.Enters` — what is left of a build that has not obtained the lock.
* `Builder.Usable` — a build root that can be made, with a lock that is free.

## Main statements

* `Disk.Passable.approach` — what a step on the way to the lock leaves.
* `Builder.Enters.turn` — there is such a step, up to the last one.
* `Builder.run_approach` — what others have done on their way is already done.
-/

namespace FlowPlan

open FlowPlan.Action

/-! ## Single steps -/

namespace Action

variable {σ ε α β : Type} {P : σ → Prop} {a a' : Action σ ε α} {s s' : σ}

/-- The next step of an action that has not ended: what is left of it, and the state. -/
def turn : Action σ ε α → σ → Option (Action σ ε α × σ)
  | done _, _ => none
  | step change next, s => some (next s, change s)

theorem run_of_turn (h : a.turn s = some (a', s')) : a.run s = a'.run s' := by
  cases a with
  | done r => cases h
  | step change next =>
    cases h
    rfl

theorem Always.turn (h : Always P a s) (hturn : a.turn s = some (a', s')) : Always P a' s' := by
  cases a with
  | done r => cases hturn
  | step change next =>
    cases hturn
    exact h.2

theorem Always.head (h : Always P a s) : P s := by
  cases a with
  | done r => exact h
  | step change next => exact h.1

theorem turn_atomic_bind (f : σ → Except ε β × σ) (g : β → Action σ ε α) (s : σ) :
    (atomic f >>= g).turn s = some (lift (f s).1 >>= g, (f s).2) := rfl

theorem atomic_bind_ne_done (f : σ → Except ε β × σ) (g : β → Action σ ε α) (r : Except ε α) :
    atomic f >>= g ≠ done r := nofun

theorem ensuring_modify_ne_done (a : Action σ ε α) (f : σ → σ) (r : Except ε α) :
    ensuring a (modify f) ≠ done r := by
  cases a <;> nofun

end Action

/-! ## Ways to the lock -/

namespace Disk

/-- The build root and its lock file are there. -/
structure Furnished (root : Path) (A : Address) (d : Disk) : Prop where
  rooted : Rooted maxLinks d root A
  lock : ∃ c, d.find? (A ++ [".lock"]) = some (.file c)

/-- The build root can be made, with nothing in it that was not there, and its lock file too. -/
structure Passable (root : Path) (A : Address) (d : Disk) : Prop where
  made : ∃ d', d.makeDirs root = .ok d' ∧ Rooted maxLinks d' root A ∧
    ∀ a, Address.Below A a → d'.find? a = d.find? a
  lock : ∀ e, d.find? (A ++ [".lock"]) = some e → e.isFile = true

/-- One of the steps to the lock makes this of the disk. -/
def Approach (root : Path) (A : Address) (d d' : Disk) : Prop :=
  d.makeDirs root = .ok d' ∨ Rooted maxLinks d root A ∧ d.touch (Lock.path root) = .ok d'

/-- No more than an empty lock file is new in the build root, and elsewhere nothing is lost. -/
structure Harmless (A : Address) (d d' : Disk) : Prop where
  kept : ∀ a, d.find? a ≠ none → d'.find? a = d.find? a
  below : ∀ a, Address.Below A a → a ≠ A ++ [".lock"] → d'.find? a = d.find? a
  lock : d'.find? (A ++ [".lock"]) = d.find? (A ++ [".lock"]) ∨
    d'.find? (A ++ [".lock"]) = some (.file (.text ""))

variable {root : Path} {A : Address} {d d' : Disk}

theorem Harmless.refl (A : Address) (d : Disk) : Harmless A d d := ⟨fun _ _ => rfl, fun _ _ _ => rfl, .inl rfl⟩

theorem Furnished.touch (h : Furnished root A d) : d.touch (Lock.path root) = .ok d := by
  obtain ⟨c, hc⟩ := h.lock
  exact h.rooted.touch_file Lock.isName_lock.1 Lock.isName_lock.2 hc

theorem Furnished.address (h : Furnished root A d) : d.address (Lock.path root) = .ok (A ++ [".lock"]) := by
  obtain ⟨c, hc⟩ := h.lock
  exact h.rooted.address_child Lock.isName_lock.1 Lock.isName_lock.2 (by simp [hc])

theorem Furnished.passable (h : Furnished root A d) : Passable root A d := by
  refine ⟨⟨d, h.rooted.makeDirs, h.rooted, fun _ _ => rfl⟩, fun e he => ?_⟩
  obtain ⟨c, hc⟩ := h.lock
  rw [hc] at he
  cases he
  rfl

/-- Once all is there, the steps to the lock change nothing. -/
theorem Furnished.approach (h : Furnished root A d) (ha : Approach root A d d') : d' = d := by
  rcases ha with hmake | ⟨-, htouch⟩
  · exact Except.ok.inj (hmake.symm.trans h.rooted.makeDirs)
  · exact Except.ok.inj (htouch.symm.trans h.touch)

theorem Passable.rooted (h : Passable root A d) (hmake : d.makeDirs root = .ok d') : Rooted maxLinks d' root A := by
  obtain ⟨d'', hmade, hrooted, -⟩ := h.made
  obtain rfl := Except.ok.inj (hmake.symm.trans hmade)
  exact hrooted

/-- A lock file that is missing can be made. -/
theorem Passable.touch (h : Passable root A d) (hr : Rooted maxLinks d root A) :
    ∃ d', d.touch (Lock.path root) = .ok d' ∧ Furnished root A d' ∧
      (d' = d ∨ d.find? (A ++ [".lock"]) = none ∧ d' = d.set (A ++ [".lock"]) (.file (.text ""))) := by
  cases he : d.find? (A ++ [".lock"]) with
  | some e =>
    cases e with
    | file c =>
      have hf : Furnished root A d := ⟨hr, c, he⟩
      exact ⟨d, hf.touch, hf, .inl rfl⟩
    | dir => exact absurd (h.lock _ he) (by simp [Entry.isFile])
    | link t => exact absurd (h.lock _ he) (by simp [Entry.isFile])
  | none =>
    have hwrote : Wrote (A ++ [".lock"]) d (d.set (A ++ [".lock"]) (.file (.text ""))) := by
      refine wrote_set (by simp) (by simp [he]) (fun _ => ?_) _
      rw [List.dropLast_concat]
      exact hr.dir
    exact ⟨_, hr.touch Lock.isName_lock.1 Lock.isName_lock.2 he,
      ⟨hr.of_keepsWays (hwrote.grows.keepsWays A), hwrote.file⟩, .inr ⟨rfl, rfl⟩⟩

/-- The steps to the lock can still be taken after each of them. -/
theorem Passable.approach (h : Passable root A d) (ha : Approach root A d d') :
    Passable root A d' ∧ Harmless A d d' := by
  rcases ha with hmake | ⟨hr, htouch⟩
  · obtain ⟨d'', hmade, hr, hbelow⟩ := h.made
    obtain rfl := Except.ok.inj (hmake.symm.trans hmade)
    have hlock := hbelow _ (below_child A ".lock")
    exact ⟨⟨⟨d', hr.makeDirs, hr, fun _ _ => rfl⟩, hlock ▸ h.lock⟩, (of_makeDirs hmake).kept,
      fun a ha _ => hbelow a ha, .inl hlock⟩
  · obtain ⟨d'', htouch', hf, hsame | ⟨hnone, hset⟩⟩ := h.touch hr
    all_goals obtain rfl := Except.ok.inj (htouch.symm.trans htouch')
    · exact ⟨hf.passable, hsame ▸ .refl A d'⟩
    · have hother : ∀ a, a ≠ A ++ [".lock"] → d'.find? a = d.find? a := fun a ha => by
        rw [hset, find?_set_child, if_neg (Ne.symm ha)]
      refine ⟨hf.passable, fun a ha => hother a ?_, fun a _ => hother a, .inr ?_⟩
      · rintro rfl
        exact ha hnone
      · rw [hset, find?_set_child, if_pos rfl]

theorem IsTree.approach (ht : d.IsTree) (ha : Approach root A d d') : d'.IsTree := by
  rcases ha with hmake | ⟨hr, htouch⟩
  · exact ht.of_makeDirs hmake
  · obtain ⟨a, -, hwrote, -⟩ := of_touch htouch fun a => ht.locate
    exact hwrote.isTree ht

end Disk

namespace Builder

open Disk

/-- The build root can be made, no log is open and nobody holds the lock. -/
structure Usable (root : Path) (A : Address) (s : Site) : Prop where
  passable : Passable root A s.disk
  tree : s.disk.IsTree
  journal : s.journal.file = none
  free : A ++ [".lock"] ∉ s.locked

variable {b : Builder} {root : Path} {A : Address} {document : Json} {a a' : Session Built} {s t : Site} {d : Disk}

/-! ### What is left of a build on its way to the lock -/

/-- The lock file has been found. -/
def claimLock (b : Builder) (document : Json) (a : Address) : Session Built :=
  Lock.take (Lock.path b.settings.root) b.wait a >>= fun _ => ensuring (b.attempt document) (Lock.release a)

/-- The lock file is there. -/
def findLock (b : Builder) (document : Json) : Session Built :=
  Session.read (·.address (Lock.path b.settings.root)) >>= fun a => b.claimLock document a

/-- The build root is there. -/
def touchLock (b : Builder) (document : Json) : Session Built :=
  Session.write (·.touch (Lock.path b.settings.root)) >>= fun _ => b.findLock document

theorem run_eq_touchLock (b : Builder) (document : Json) : b.run document =
    Session.write (·.makeDirs b.settings.root) >>= fun _ => b.touchLock document := by
  unfold run touchLock findLock claimLock
  simp only [Lock.acquire_eq, bind_assoc, pure_bind]

/-- How far a build has come that has not obtained the lock. -/
inductive Enters (b : Builder) (document : Json) (A : Address) (d : Disk) : Session Built → Prop
  | begins : Enters b document A d (b.run document)
  | made (rooted : Rooted maxLinks d b.settings.root A) : Enters b document A d (b.touchLock document)
  | touched (furnished : Furnished b.settings.root A d) : Enters b document A d (b.findLock document)
  | found (furnished : Furnished b.settings.root A d) :
      Enters b document A d (b.claimLock document (A ++ [".lock"]))

theorem Enters.ne_done (h : b.Enters document A d a) (r : Except Fault Built) : a ≠ .done r := by
  cases h with
  | begins =>
    rw [run_eq_touchLock]
    exact atomic_bind_ne_done _ _ r
  | _ => exact atomic_bind_ne_done _ _ r

/-- What others do before they have the lock takes nothing back. -/
theorem Enters.approach {d' : Disk} (h : b.Enters document A d a) (hd : Passable b.settings.root A d)
    (ha : Approach b.settings.root A d d') : b.Enters document A d' a := by
  cases h with
  | begins => exact .begins
  | made rooted =>
    refine .made ?_
    rcases ha with hmake | ⟨-, htouch⟩
    · exact hd.rooted hmake
    · obtain ⟨d'', htouch', hf, -⟩ := hd.touch rooted
      obtain rfl := Except.ok.inj (htouch.symm.trans htouch')
      exact hf.rooted
  | touched furnished => exact .touched ((furnished.approach ha).symm ▸ furnished)
  | found furnished => exact .found ((furnished.approach ha).symm ▸ furnished)

/-- Nor does it matter whose build root it is. -/
theorem Enters.furnished {d' : Disk} (h : b.Enters document A d a) (hd : Furnished b.settings.root A d') :
    b.Enters document A d' a := by
  cases h with
  | begins => exact .begins
  | made _ => exact .made hd.rooted
  | touched _ => exact .touched hd
  | found _ => exact .found hd

/-- A step on the way to the lock, if it is not the last one. -/
theorem Enters.turn (h : b.Enters document A t.disk a) (hd : Passable b.settings.root A t.disk) :
    (a = b.claimLock document (A ++ [".lock"]) ∧ Furnished b.settings.root A t.disk) ∨
      ∃ a' d, a.turn t = some (a', { t with disk := d }) ∧ Approach b.settings.root A t.disk d ∧
        b.Enters document A d a' := by
  have hwrite : ∀ {f : Disk → Change} {d : Disk} {g : Unit → Session Built}, f t.disk = .ok d →
      (Session.write f >>= g).turn t = some (g (), { t with disk := d }) := by
    intro f d g hf
    unfold Session.write
    rw [turn_atomic_bind, hf]
    rfl
  cases h with
  | begins =>
    obtain ⟨d, hmake, hr, -⟩ := hd.made
    rw [run_eq_touchLock]
    exact .inr ⟨_, d, hwrite hmake, .inl hmake, .made hr⟩
  | made rooted =>
    obtain ⟨d, htouch, hf, -⟩ := hd.touch rooted
    exact .inr ⟨_, d, hwrite htouch, .inr ⟨rooted, htouch⟩, .touched hf⟩
  | touched furnished =>
    refine .inr ⟨_, t.disk, ?_, .inl furnished.rooted.makeDirs, .found furnished⟩
    unfold findLock Session.read
    rw [turn_atomic_bind]
    dsimp only
    rw [furnished.address]
    rfl
  | found furnished => exact .inl ⟨rfl, furnished⟩

/-- Who comes to the lock while it is held waits or is refused. -/
theorem claimLock_held (b : Builder) (document : Json) (h : A ++ [".lock"] ∈ t.locked) :
    (b.claimLock document (A ++ [".lock"])).turn t =
      some (.done (.error (if b.wait then .endless else .locked (Lock.heldMessage (Lock.path b.settings.root)) none)),
        t) := by
  unfold claimLock Lock.take
  rw [turn_atomic_bind]
  simp only [List.contains_iff_mem, h, if_true]
  rfl

theorem claimLock_free (b : Builder) (document : Json) (h : A ++ [".lock"] ∉ t.locked) :
    (b.claimLock document (A ++ [".lock"])).turn t =
      some (ensuring (b.attempt document) (Lock.release (A ++ [".lock"])),
        { t with locked := (A ++ [".lock"]) :: t.locked,
                 disk := t.disk.set (A ++ [".lock"]) (.file (.text "held\n")) }) := by
  unfold claimLock Lock.take
  rw [turn_atomic_bind]
  simp only [List.contains_iff_mem, h, if_false]
  rfl

/-! ### The same build at another time -/

theorem run_furnished (hf : Furnished b.settings.root A t.disk) (document : Json) :
    (b.run document).run t = (b.claimLock document (A ++ [".lock"])).run t := by
  rw [run_eq_touchLock, run_bind_ok (Session.makeDirs_run hf.rooted)]
  unfold touchLock
  rw [run_bind_ok (Session.run_write_ok (f := (·.touch (Lock.path b.settings.root))) hf.touch)]
  unfold findLock
  rw [Session.run_read_ok (f := (·.address (Lock.path b.settings.root))) hf.address]

/-- What others have done on their way to the lock is already done. -/
theorem run_approach (hd : Passable b.settings.root A t.disk) (ha : Approach b.settings.root A t.disk d)
    (document : Json) : (b.run document).run t = (b.run document).run { t with disk := d } := by
  rcases ha with hmake | ⟨hr, htouch⟩
  · exact Call.run_made hmake (hd.rooted hmake) document
  · obtain ⟨d', htouch', hf, -⟩ := hd.touch hr
    obtain rfl := Except.ok.inj (htouch.symm.trans htouch')
    have htouched : (b.touchLock document).run t = (b.findLock document).run { t with disk := d } :=
      run_bind_ok (Session.run_write_ok (f := (·.touch (Lock.path b.settings.root))) htouch)
    have hagain : (b.touchLock document).run { t with disk := d } = (b.findLock document).run { t with disk := d } :=
      run_bind_ok (Session.run_write_ok (f := (·.touch (Lock.path b.settings.root))) hf.touch)
    rw [run_eq_touchLock, run_bind_ok (Session.makeDirs_run hr), run_bind_ok (Session.makeDirs_run hf.rooted), htouched,
      hagain]

theorem Usable.approach (h : Usable root A s) (ha : Approach root A s.disk d) :
    Usable root A { s with disk := d } :=
  ⟨(h.passable.approach ha).1, h.tree.approach ha, h.journal, h.free⟩

theorem usable_vacant (h : Vacant root A s) (ht : s.disk.IsTree) : Usable root A s := by
  obtain ⟨d, hmake, hr, hnone⟩ := h.made
  have hbelow : ∀ a, Address.Below A a → s.disk.find? a = none := fun a ha => by
    by_contra hne
    exact hne (((of_makeDirs hmake).kept a hne).symm.trans (hnone a ha))
  refine ⟨⟨⟨d, hmake, hr, fun a ha => (hnone a ha).trans (hbelow a ha).symm⟩, ?_⟩, ht, h.journal, h.free⟩
  simp [hbelow _ (below_child A ".lock")]

theorem Guarded.furnished {locked : List Address} {now : Instant} (h : Guarded root A locked now s) :
    Furnished root A s.disk := ⟨h.ready.rooted, h.lock⟩

end Builder

end FlowPlan

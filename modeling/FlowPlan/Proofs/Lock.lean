import FlowPlan.Build.Lock
import FlowPlan.Proofs.Disk.Growth
import FlowPlan.Proofs.Site

/-!
# Taking the lock

Taking the lock of a build root touches one file and nothing else, whether it succeeds or not.

## Main statements

* `Lock.acquire_run` — what taking the lock changes.
* `Lock.acquire_free` — a lock that nobody holds is taken.
-/

namespace FlowPlan.Lock

open FlowPlan.Action Disk

variable {root : Path} {A : Address} {s : Site}

theorem isName_lock : Path.IsName ".lock" ∧ Path.NulFree ".lock" := by decide

theorem parent_path (root : Path) : (path root).parent = root := Path.parent_child root isName_lock.1

theorem acquire_eq (root : Path) (wait : Bool) : acquire (path root) wait =
    Session.write (·.makeDirs root) >>= fun _ => do
      Session.write (·.touch (path root))
      let a ← Session.read (·.address (path root))
      take (path root) wait a
      return a := by
  unfold acquire
  rw [parent_path]

/-- What taking the lock does, ending with `r` at `s'`. -/
structure Acquired (root : Path) (s : Site) (r : Except Fault Address) (s' : Site) : Prop where
  records : s'.records = s.records
  journal : s'.journal = s.journal
  clock : s'.clock = s.clock
  disk : s'.disk = s.disk ∨ ∃ a, s.disk.locate (path root) = .ok a ∧ Wrote a s.disk s'.disk
  locked : ∀ a, r = .ok a → s'.locked = a :: s.locked
  /-- The holder's mark is all that the file then holds. -/
  marked : ∀ a, r = .ok a → s.disk.locate (path root) = .ok a ∧
    s'.disk.find? a = some (.file (.text "held\n"))
  /-- At most an empty file is left by who does not get the lock. -/
  refused : ∀ f, r = .error f → s'.disk = s.disk ∨ ∃ a, s.disk.locate (path root) = .ok a ∧
    s.disk.find? a = none ∧ s'.disk.find? a = some (.file (.text ""))
  free : ∀ a d, s.disk.touch (path root) = .ok d → s.disk.locate (path root) = .ok a →
    a ∉ s.locked → r = .ok a

theorem acquire_run (hr : Rooted maxLinks s.disk root A)
    (hlink : ∀ a, s.disk.locate (path root) = .ok a → ∀ t, s.disk.find? a ≠ some (.link t))
    (wait : Bool) :
    ∃ r s', (acquire (path root) wait).run s = (r, s') ∧ Acquired root s r s' := by
  rw [acquire_eq, run_bind_ok (Session.makeDirs_run hr)]
  cases htouch : s.disk.touch (path root) with
  | error f =>
    exact ⟨_, _, run_bind_error (Session.run_write_error htouch), rfl, rfl, rfl, .inl rfl, by simp,
      by simp, fun _ _ => .inl rfl, by simp [htouch]⟩
  | ok d =>
    obtain ⟨a, haddress, hwrote, hnew⟩ := of_touch htouch hlink
    have hlocate := of_address haddress
    obtain ⟨c, hc⟩ := hwrote.file
    -- The path still leads there once the file is there.
    have haddress' : d.address (path root) = .ok a := by
      refine address_congr haddress (hwrote.grows.locate hlocate fun _ e he => ?_)
      rw [hc] at he
      cases he
      rfl
    rw [run_bind_ok (Session.run_write_ok (f := (·.touch (path root))) htouch),
      Session.run_read_ok (f := (·.address (path root))) haddress']
    unfold take
    by_cases hheld : a ∈ s.locked
    · refine ⟨.error (if wait then .endless else .locked (heldMessage (path root)) none),
        { s with disk := d }, run_bind_error ?_, rfl, rfl, rfl, .inr ⟨a, hlocate, hwrote⟩, by simp,
        by simp, fun _ _ => hnew.imp_right fun ⟨hnone, hempty⟩ => ⟨a, hlocate, hnone, hempty⟩, ?_⟩
      · simpa using hheld
      · intro b d' _ hb hfree
        rw [hlocate] at hb
        cases hb
        exact absurd hheld hfree
    · refine ⟨.ok a, { s with disk := d.set a (.file (.text "held\n")), locked := a :: s.locked },
        run_bind_ok (x := ()) ?_, rfl, rfl, rfl,
        .inr ⟨a, hlocate, hwrote.trans ?_⟩, ?_, ?_, by simp, ?_⟩
      · simpa using hheld
      · refine wrote_set hwrote.ne_nil (fun e he => ?_) (fun hnone => ?_) _
        · rw [hc] at he
          cases he
          rfl
        · simp [hc] at hnone
      · rintro b ⟨⟩
        rfl
      · rintro b ⟨⟩
        exact ⟨hlocate, by rw [find?_set d hwrote.ne_nil, if_pos rfl]⟩
      · intro b d' _ hb _
        rw [hlocate] at hb
        cases hb
        rfl

/-- The lock that nobody holds is taken. -/
theorem acquire_free (hr : Rooted maxLinks s.disk root A)
    (hfile : ∀ e, s.disk.find? (A ++ [".lock"]) = some e → e.isFile = true)
    (hfree : A ++ [".lock"] ∉ s.locked) (wait : Bool) :
    ∃ s', (acquire (path root) wait).run s = (.ok (A ++ [".lock"]), s') ∧
      Acquired root s (.ok (A ++ [".lock"])) s' := by
  have hlink : ∀ t, s.disk.find? (A ++ [".lock"]) ≠ some (.link t) :=
    fun t ht => by simpa [Entry.isFile] using hfile _ ht
  have hlocate : s.disk.locate (path root) = .ok (A ++ [".lock"]) :=
    hr.locate_child isName_lock.1 fun _ => hlink
  obtain ⟨r, s', hrun, hacq⟩ := acquire_run hr (fun a ha => by
    rw [hlocate] at ha
    cases ha
    exact hlink) wait
  have htouch : ∃ d, s.disk.touch (path root) = .ok d := by
    cases he : s.disk.find? (A ++ [".lock"]) with
    | none => exact ⟨_, hr.touch isName_lock.1 isName_lock.2 he⟩
    | some e =>
      cases e with
      | file c => exact ⟨_, hr.touch_file isName_lock.1 isName_lock.2 he⟩
      | _ => simpa [Entry.isFile] using hfile _ he
  obtain ⟨d, hd⟩ := htouch
  obtain rfl := hacq.free _ d hd hlocate hfree
  exact ⟨s', hrun, hacq⟩

end FlowPlan.Lock

import FlowPlan.Proofs.Bookkeeping

/-!
# Operations on a workspace

The record of a workspace is changed by a few operations: an artifact is written and listed, a name is
listed, a link is made and listed, or the record is written. After each of them the record on disk is the
one that is held, however the operation ends, if only the attempt that it is a part of writes the record
after every change.

## Main definitions

* `Workspace.Operation` — what is done to a workspace.
* `Workspace.Reaches` — a run comes to an operation.
* `Workspace.Oblivious` — the steps do not see the record.

## Main statements

* `Workspace.Oblivious.fails` — where such steps fail, the workspace holds the record.
* `Workspace.Attended.settled_after` — after an operation the workspace holds the record.
-/

namespace FlowPlan

open FlowPlan.Action Site Pointers

namespace Workspace

/-- What can be done to a workspace: an artifact is written and listed, a name is listed, a link is made and
listed, or the record is written. -/
inductive Operation where
  | write (name : String) (v : Json)
  | list (name : String)
  | link (name target : String)
  | save

def Operation.action (w : Workspace) : Operation → Session Unit
  | write name v => discard (w.writeArtifact name v)
  | list name => w.addArtifact name
  | link name target => discard (w.link name target)
  | save => w.saveRecord

variable {α β γ : Type} {w : Workspace} {A : Address} {Y : String → Prop} {s s' t : Site} {a : Session α}
  {m n : String}

/-- In its run from the one site the action comes to the other action, at the other site. -/
def Reaches (a : Session α) (s : Site) (op : Session β) (t : Site) : Prop :=
  ∃ k g, Trail (fun _ => True) a s k (Action.outcome op >>= g) t

/-- An action that begins with another one comes to it. -/
theorem reaches_bind (op : Session β) (f : β → Session α) (s : Site) : Reaches (op >>= f) s op s := by
  rw [bind_eq_outcome_bind]
  exact ⟨0, _, .nil⟩

/-- What follows an action comes to what it comes to. -/
theorem Reaches.behind {op : Session β} {p : Session γ} {f : γ → Session α} {x : γ} (hrun : p.run s = (.ok x, s'))
    (h : Reaches (f x) s' op t) : Reaches (p >>= f) s op t := by
  obtain ⟨k, g, htrail⟩ := h
  have hall : Always (fun _ => True) p s := always_iff.2 fun _ => trivial
  exact ⟨_, g, (hall.trail_bind hrun f).trans htrail⟩

theorem Reaches.bind {op : Session β} {p : Session γ} (h : Reaches p s op t) (f : γ → Session α) :
    Reaches (p >>= f) s op t := by
  obtain ⟨k, g, htrail⟩ := h
  have hbind := htrail.bind f
  rw [bind_assoc] at hbind
  exact ⟨k, _, hbind⟩

theorem Reaches.outcome {op : Session β} {p : Session γ} (h : Reaches p s op t) :
    Reaches (Action.outcome p) s op t := by
  obtain ⟨k, g, htrail⟩ := h
  have houtcome := htrail.outcome
  rw [outcome_bind_outcome] at houtcome
  exact ⟨k, _, houtcome⟩

/-! ## Steps that do not see the record -/

/-- The steps go on in the same way whatever the records are, and those that fail change nothing. -/
def Oblivious : Session α → Prop
  | Action.done _ => True
  | Action.step change next => (∀ s m, next { s with records := m } = next s) ∧
      (∀ s e, next s = Action.done (.error e) → change s = s) ∧ ∀ s, Oblivious (next s)

theorem oblivious_read {f : Disk → Attempt α} {q : α → Session β} (hq : ∀ x, Oblivious (q x)) :
    Oblivious (Session.read f >>= q) := by
  refine ⟨fun _ _ => rfl, fun _ _ _ => rfl, fun s => ?_⟩
  change Oblivious (Action.bind (Action.done (f s.disk)) q)
  cases f s.disk with
  | ok x => exact hq x
  | error e => trivial

/-- What follows a write fails at a step of its own, if it fails. -/
theorem oblivious_write_bind {f : Disk → Disk.Change} {q : Unit → Session α} (hq : Oblivious (q ()))
    (hstep : ∀ e, q () ≠ Action.done (.error e)) : Oblivious (Session.write f >>= q) := by
  refine ⟨fun s _ => ?_, fun s e => ?_, fun s => ?_⟩ <;> dsimp only <;> cases f s.disk
  case refine_1.error | refine_1.ok => rfl
  case refine_2.error => exact fun _ => rfl
  case refine_2.ok => exact fun hfail => absurd hfail (hstep e)
  case refine_3.error => trivial
  case refine_3.ok => exact hq

theorem oblivious_write (f : Disk → Disk.Change) : Oblivious (Session.write f) := by
  rw [← bind_pure (Session.write f)]
  exact oblivious_write_bind trivial nofun

theorem oblivious_bindLink (t : String) (link : Path) : Oblivious (bindLink (.str t) link) := by
  have hplace : ∀ temporary, Oblivious (placeLink (.str t) temporary link) := fun temporary =>
    oblivious_write_bind (oblivious_write _) nofun
  rw [bindLink_eq]
  refine oblivious_read fun present => ?_
  split
  · exact oblivious_write_bind (hplace _) nofun
  · exact hplace _

/-- A step that does not see the record is not the one that looks it up to write it. -/
theorem save_sees_records (h : Tidy w A Y s) {change : Site → Site} {next : Site → Session α}
    {k : Except Fault Unit → Session α} (hblind : ∀ m, next { s with records := m } = next s) :
    Action.step change next ≠ Action.outcome w.saveRecord >>= k := by
  intro heq
  cases heq
  -- A record of another status would have been written alike.
  obtain ⟨r, hr⟩ : ∃ r : Record, r.status = .null := ⟨{ w.recordIn s with status := .null }, rfl⟩
  have hother : w.recordIn { s with records := Assoc.set s.records w.path.text r } = r := recordIn_setRecord w s r
  have hsame : Action.outcome (Session.write (·.writeJson w.recordPath r.toJson)) >>= k =
      Action.outcome (Session.write (·.writeJson w.recordPath (w.recordIn s).toJson)) >>= k := by
    rw [← hother]
    exact hblind _
  obtain ⟨hsite, -⟩ := of_step_eq_write hsame (writeRecord_run h.stands (w.recordIn s))
  have hrun : ((Session.write (·.writeJson w.recordPath r.toJson)).run s).2 = _ := hsite
  rw [writeRecord_run h.stands r] at hrun
  have hjson : r.toJson.sortKeys = (w.recordIn s).toJson.sortKeys := by
    have hfile := congrArg (fun t : Site => t.disk.find? (A ++ [w.key] ++ [recordName])) hrun
    dsimp only at hfile
    rw [Disk.find?_set_child, if_pos rfl, Disk.find?_set_child, if_pos rfl] at hfile
    simpa using hfile
  obtain ⟨fs, hfs, hstatus⟩ := find?_status_toJson r
  obtain ⟨gs, hgs, hstatus'⟩ := find?_status_toJson (w.recordIn s)
  cases hfs.symm.trans (hjson.trans hgs)
  obtain ⟨u, hu⟩ := h.plain.status
  rw [hr] at hstatus
  rw [hu] at hstatus'
  cases hstatus.symm.trans hstatus'

/-- Where a step that does not see the record changes nothing, the workspace holds the record. -/
theorem Attended.settled_of_blind {change : Site → Site} {next : Site → Session α}
    (h : Attended w A Y (Action.step change next) s) (hblind : ∀ m, next { s with records := m } = next s)
    (hkept : change s = s) : Settled w A Y (w.recordIn s) s := by
  rcases h with hd | ⟨htidy, k, hk | hk, -⟩
  · exact hd.settled
  · exact absurd hk (save_sees_records htidy hblind)
  · obtain ⟨hstored, -⟩ := of_step_eq_write hk (writeRecord_run htidy.stands _)
    have hstore := htidy.store
    rwa [show w.stored A s = s from hstored.symm.trans hkept] at hstore

/-- Where steps that do not see the record fail, the workspace holds it. -/
theorem Oblivious.fails {p : Session β} {q : β → Session γ} {k : Except Fault γ → Session α} {e : Fault}
    (hp : Oblivious p) (hstep : ∀ e, p ≠ Action.done (.error e))
    (h : Attended w A Y (Action.outcome (p >>= q) >>= k) s) (hrun : p.run s = (.error e, s')) :
    Settled w A Y (w.recordIn s') s' := by
  induction p generalizing s with
  | done r =>
    cases hrun
    exact absurd rfl (hstep e)
  | step change next ih =>
    by_cases hfails : ∃ e, next s = Action.done (.error e)
    · obtain ⟨e', he⟩ := hfails
      have hkept := hp.2.1 s e' he
      have hend : s = s' := by
        rw [run_step, he, hkept] at hrun
        exact (Prod.mk.inj hrun).2
      rw [← hend]
      refine Attended.settled_of_blind h (fun m => ?_) hkept
      exact congrArg (fun a : Session β => Action.outcome (a >>= q) >>= k) (hp.1 s m)
    · exact ih s (hp.2.2 s) (fun e' he => hfails ⟨e', he⟩) h.step.1 hrun

/-! ## After an operation -/

theorem settled_after_save (h : Tidy w A Y s) :
    Settled w A Y (w.recordIn (w.saveRecord.run s).2) (w.saveRecord.run s).2 := by
  rw [saveRecord_run h.stands]
  exact h.store

/-- Steps that do not see the record are followed by the listing of an artifact. -/
theorem settled_after_listing {p : Session β} {k : Except Fault Unit → Session α} (hp : Oblivious p)
    (hstep : ∀ e, p ≠ Action.done (.error e))
    (h : Attended w A Y (Action.outcome (p >>= fun _ => w.addArtifact n) >>= k) s) :
    Settled w A Y (w.recordIn ((p >>= fun _ => w.addArtifact n).run s).2)
      ((p >>= fun _ => w.addArtifact n).run s).2 := by
  cases hrun : p.run s with
  | mk r s' =>
    cases r with
    | error e =>
      rw [run_bind_error hrun]
      exact hp.fails hstep h hrun
    | ok x =>
      rw [run_bind_ok hrun]
      have hall : Always (fun _ => True) p s := always_iff.2 fun _ => trivial
      have hlist : Attended w A Y (Action.outcome (w.addArtifact n) >>= k) s' :=
        h.along (((hall.trail_bind hrun _).outcome).bind k)
      exact settled_after_save hlist.step.1.tidy

theorem action_write (w : Workspace) (n : String) (v : Json) :
    (Operation.write n v).action w =
      Session.write (·.writeJson (w.artifactPath n) v) >>= fun _ => w.addArtifact n := by
  simp only [Operation.action, discard_eq, writeArtifact, bind_assoc, pure_bind, bind_pure_unit]

/-- What a link is made by, before it is listed. -/
def tryLink (w : Workspace) (n t : String) : Session Unit :=
  Session.read (fun d => .ok (d.exists? (w.artifactPath t))) >>= fun present =>
    if !present then Action.fail (.workspace s!"Cannot link {n}: {t} does not exist" none)
    else bindLink (.str t) (w.artifactPath n)

theorem action_link (w : Workspace) (n t : String) :
    (Operation.link n t).action w = w.tryLink n t >>= fun _ => w.addArtifact n := by
  unfold Operation.action link tryLink
  simp only [discard_eq, bind_assoc]
  refine congrArg (_ >>= ·) (funext fun present => ?_)
  cases present
  · rfl
  · simp only [Bool.not_true, Bool.false_eq_true, if_false, bind_assoc, pure_bind, bind_pure_unit]

/-- After an operation the workspace holds the record, however the operation ends. -/
theorem Attended.settled_after {op : Operation} (h : Attended w A Y a s) (hop : Reaches a s (op.action w) t) :
    Settled w A Y (w.recordIn ((op.action w).run t).2) ((op.action w).run t).2 := by
  obtain ⟨k, g, htrail⟩ := hop
  have hthere := h.along htrail
  cases op with
  | write n v =>
    rw [action_write] at hthere ⊢
    exact settled_after_listing (oblivious_write _) nofun hthere
  | list n => exact settled_after_listing (p := (pure () : Session Unit)) trivial nofun hthere
  | link n t =>
    rw [action_link] at hthere ⊢
    refine settled_after_listing (oblivious_read fun present => ?_) nofun hthere
    split
    · trivial
    · exact oblivious_bindLink t _
  | save => exact settled_after_save hthere.tidy

/-! ## Accurate records -/

/-- What is loaded from the workspace is the record that is held. -/
def Current (w : Workspace) (s : Site) : Prop := w.load s.disk = .ok (w.recordIn s)

/-- At the end the workspace holds the record. At every moment the record lists no artifact twice, and each of
them can be read; what it lists stays listed, in its place. -/
structure Faithful (w : Workspace) (a : Session α) (s : Site) : Prop where
  exit : w.Current (a.run s).2
  nodup : ∀ i, (w.recordIn (a.after i s)).artifacts.Nodup
  grows : ∀ i j, i ≤ j → (w.recordIn (a.after i s)).artifacts <+: (w.recordIn (a.after j s)).artifacts
  readable : ∀ i, ∀ x ∈ (w.recordIn (a.after i s)).artifacts,
    ∃ n v, x = .str n ∧ (a.after i s).disk.readJson (w.artifactPath n) = .ok v

/-- Moreover the workspace holds the record at the start and after every operation. -/
structure Accurate (w : Workspace) (a : Session α) (s : Site) : Prop extends Faithful w a s where
  start : w.Current s
  operation : ∀ (op : Operation) (t : Site), Reaches a s (op.action w) t → w.Current ((op.action w).run t).2

theorem Careful.faithful (h : Careful w A Y a s) : Faithful w a s where
  exit := h.settled.load
  nodup i := by
    obtain ⟨ns, hns, hnodup⟩ := (h.orderly.after i).plain.artifacts
    exact hns ▸ hnodup.map fun _ _ => Json.str.inj
  grows _ _ hij := h.orderly.prefix_of_le hij
  readable i x hx := by
    have htidy := h.orderly.after i
    obtain ⟨ns, hns, -⟩ := htidy.plain.artifacts
    obtain ⟨n, -, rfl⟩ := List.mem_map.1 (hns ▸ hx)
    obtain ⟨v, hv⟩ := (htidy.listed n hx).readJson htidy.workable
    exact ⟨n, v, rfl, hv⟩

theorem Diligent.accurate (h : Diligent w A Y a s) : Accurate w a s where
  toFaithful := h.careful.faithful
  start := h.settled.load
  operation _ _ hop := (Attended.settled_after (.inl h) hop).load

end Workspace

end FlowPlan

import FlowPlan.Proofs.Moments
import FlowPlan.Proofs.Supervision

/-!
# What survives the two ends of an attempt

The beginning and the end of an attempt are made of a few kinds of steps: reports, the record of the
attempt and updates of aliases that have nothing to do with the compiled key. What survives each of them
survives the whole. An update in turn only changes single entries of the build root.

## Main definitions

* `Pointers.Indifferent` — a predicate that survives reports and changes of the pointers' entries.
* `Supervision.Survives` — a predicate that survives the steps of the beginning and the end.

## Main statements

* `Pointers.bindLink_upholds` — one link.
* `Pointers.Indifferent.update` — an update, whatever the pointers are.
* `Supervision.Survives.enter`, `Supervision.Survives.complete`, `Supervision.Survives.abort` — the
  beginning and the two ends.
-/

namespace FlowPlan

open FlowPlan.Action Site

/-! ## Steps on the disk -/

namespace Session

variable {P : Site → Prop} {s : Site}

theorem always_write {g : Disk → Disk.Change} (hs : P s)
    (h : ∀ d, g s.disk = .ok d → P { s with disk := d }) : Always P (Session.write g) s := by
  refine ⟨hs, ?_⟩
  cases hd : g s.disk with
  | error f => simpa [Always, hd] using hs
  | ok d => simpa [Always, hd] using h d hd

/-- Making a directory that is there changes nothing. -/
theorem always_makeDirs {p : Path} {B : Address} (h : Disk.Rooted Disk.maxLinks s.disk p B) (hs : P s) :
    Always P (Session.write (·.makeDirs p)) s :=
  always_write hs fun d hd => by
    cases h.makeDirs.symm.trans hd
    exact hs

end Session

namespace Pointers

variable {I : Site → Prop} {root : Path} {A : Address} {n : String}

/-! ## Links -/

section Links

variable (hn : Path.IsName n) (hopens : ∀ s, I s → s.disk.Opens root A) {v : Json}
  (hprepare : ∀ s t, v = .str t → I s → s.disk.find? (A ++ [Path.temporary n]) = none →
    I { s with disk := s.disk.set (A ++ [Path.temporary n]) (.link t) })
  (hplace : ∀ s t, v = .str t → I s → s.disk.find? (A ++ [Path.temporary n]) = some (.link t) →
    s.disk.find? (A ++ [n]) ≠ some .dir →
    I { s with disk := (s.disk.set (A ++ [n]) (.link t)).erase (A ++ [Path.temporary n]) })
include hn hopens hprepare hplace

/-- What is moved to its place is the link that was prepared. -/
theorem placeLink_upholds : Upholds I (placeLink v (root.child (Path.temporary n)) (root.child n)) := by
  have hm : Path.IsName (Path.temporary n) := Path.isName_temporary hn.2.2.2
  cases v with
  | str t =>
    intro s hs
    refine (Session.always_write hs fun d hd => ?_).bind fun _ s₁ hrun => ?_
    · obtain ⟨hnone, rfl⟩ := (hopens s hs).of_makeLink hm hd
      exact hprepare s t rfl hs hnone
    obtain ⟨d, hd, rfl⟩ := Session.of_run_write hrun
    obtain ⟨hnone, rfl⟩ := (hopens s hs).of_makeLink hm hd
    have hs₁ := hprepare s t rfl hs hnone
    have hlink : (s.disk.set (A ++ [Path.temporary n]) (.link t)).find? (A ++ [Path.temporary n]) = some (.link t) := by
      rw [Disk.find?_set_child, if_pos rfl]
    refine Session.always_write hs₁ fun d hd => ?_
    obtain ⟨e, he, -, hdir, rfl⟩ := (hopens _ hs₁).of_moveLink hm hn hd
    cases hlink.symm.trans he
    exact hplace _ t rfl hs₁ hlink hdir
  | _ => exact (keeps_fail _).upholds

theorem bindLink_upholds
    (hremove : ∀ s, I s → s.disk.find? (A ++ [Path.temporary n]) ≠ some .dir →
      I { s with disk := s.disk.erase (A ++ [Path.temporary n]) }) :
    Upholds I (bindLink v (root.child n)) := by
  have hm : Path.IsName (Path.temporary n) := Path.isName_temporary hn.2.2.2
  have htemporary : (root.child n).withName s!".{(root.child n).name}.tmp" = root.child (Path.temporary n) := by
    rw [Path.name_child root hn]
    exact Path.withName_child root hn hm
  have hsecond := placeLink_upholds hn hopens hprepare hplace
  simp only [bindLink_eq, htemporary]
  refine (Session.keeps_read _).upholds.bind fun _ => upholds_ite (fun _ => ?_) fun _ => hsecond
  refine Upholds.bind (fun s hs => Session.always_write hs fun d hd => ?_) fun _ => hsecond
  obtain ⟨hdir, rfl⟩ := (hopens s hs).of_unlink hm hd
  exact hremove s hs hdir

end Links

/-! ## Updates -/

/-- Neither reports nor the entries of the pointers in the build root make the predicate false. -/
structure Indifferent (root : Path) (A : Address) (I : Site → Prop) : Prop where
  ready : ∀ s, I s → Ready root A s
  log : ∀ s s', I s → Differs (fun _ => False) s s' → I s'
  entry : ∀ s n d, I s → IsReserved n → d.home = s.disk.home →
    (∀ a, a ≠ A ++ [n] → d.find? a = s.disk.find? a) → s.disk.find? (A ++ [n]) ≠ some .dir →
    I { s with disk := d }

namespace Indifferent

variable {s : Site} (h : Indifferent root A I)
include h

theorem set (hs : I s) (hn : IsReserved n) (hdir : s.disk.find? (A ++ [n]) ≠ some .dir) (e : Entry) :
    I { s with disk := s.disk.set (A ++ [n]) e } :=
  h.entry s n _ hs hn rfl (fun a ha => by rw [Disk.find?_set_child, if_neg (Ne.symm ha)]) hdir

theorem erase (hs : I s) (hn : IsReserved n) (hdir : s.disk.find? (A ++ [n]) ≠ some .dir) :
    I { s with disk := s.disk.erase (A ++ [n]) } :=
  h.entry s n _ hs hn rfl (fun a ha => by rw [Disk.find?_erase_child, if_neg (Ne.symm ha)]) hdir

theorem report (r : LogRecord) : Upholds I (Session.report r) := (Session.keeps_report h.log r).upholds

theorem bindLink (hn : n ∈ aliases) (v : Json) : Upholds I (Pointers.bindLink v (root.child n)) := by
  have hplace : IsReserved n := .inr ⟨n, hn, .inl rfl⟩
  have hprepared : IsReserved (Path.temporary n) := .inr ⟨n, hn, .inr rfl⟩
  refine bindLink_upholds (isName_of_alias n hn).1 (fun s hs => (h.ready s hs).rooted.opens)
    (fun s t _ hs hnone => h.set hs hprepared (by simp [hnone]) _) (fun s t _ hs hlink hdir => ?_)
    fun s hs hdir => h.erase hs hprepared hdir
  refine h.erase (h.set hs hplace hdir (.link t)) hprepared ?_
  dsimp only
  rw [Disk.find?_set_child, if_neg (by simpa using (Path.temporary_ne n).symm), hlink]
  simp

theorem updateLink (links : Bool) (hn : n ∈ aliases) (v : Json) :
    Upholds I (Pointers.updateLink ⟨root, links⟩ (n, v)) := by
  by_cases hv : v = .null
  · subst hv
    refine (Session.keeps_read _).upholds.bind fun _ => upholds_ite (fun _ => fun s hs => ?_) fun _ =>
      (keeps_pure _).upholds
    refine Session.always_write hs fun d hd => ?_
    obtain ⟨hdir, rfl⟩ := (h.ready s hs).rooted.opens.of_unlink (isName_of_alias n hn).1 hd
    exact h.erase hs (.inr ⟨n, hn, .inl rfl⟩) hdir
  · rw [updateLink_of_ne_null ⟨root, links⟩ n hv]
    exact h.bindLink hn v

/-- The pointers are updated, or cannot be, whatever they are. -/
theorem update (links : Bool) (changes : Bindings) (hal : ∀ c ∈ changes, c.1 ∈ aliases) :
    Upholds I (Pointers.update ⟨root, links⟩ changes) := by
  have hlinks : Upholds I (changes.forM (Pointers.updateLink ⟨root, links⟩)) :=
    upholds_forM fun c hc => h.updateLink links (hal c hc) c.2
  have hlog : ∀ B : Bindings, Upholds I (do
      Session.debug Pointers.logger "Pointers updated" (some "pointers_updated") (some (.obj changes))
      return B) := fun _ => (h.report _).bind fun _ => (keeps_pure _).upholds
  unfold Pointers.update
  refine (keeps_forM fun _ _ => keeps_lift _).upholds.bind fun _ => (Session.keeps_read _).upholds.bind fun B => ?_
  refine Upholds.bind (fun s hs => Session.always_makeDirs (h.ready s hs).rooted hs) fun _ => ?_
  refine Upholds.bind (fun s hs => Session.always_write hs fun d hd => ?_) fun _ => ?_
  · obtain ⟨hdir, rfl⟩ := (h.ready s hs).rooted.of_writeJson isName_storeName.1 hd
    exact h.set hs (.inl rfl) hdir _
  · dsimp only
    split
    · exact hlinks.bind fun _ => hlog _
    · exact hlog _

end Indifferent

end Pointers

namespace Supervision

open Pointers

/-- The predicate survives the steps of the beginning and the two ends of an attempt. -/
structure Survives (v : Supervision) (P : Site → Prop) : Prop where
  report : ∀ r, Upholds P (Session.report r)
  changeRecord : ∀ f, Upholds P (v.workspace.changeRecord f)
  saveRecord : Upholds P v.workspace.saveRecord
  excerpt : ∀ f : Site → List String, Upholds P (Action.modify fun s => { s with excerpt := f s } : Session Unit)
  update : ∀ changes : Bindings, (∀ c ∈ changes, c.1 ∈ [latest, running, aborted]) →
    Upholds P (v.directory.pointers.update changes)

variable {v : Supervision} {P : Site → Prop}

theorem upholds_read {α : Type} (f : Disk → Attempt α) : Upholds P (Session.read f) :=
  (Session.keeps_read f).upholds

theorem upholds_pure {α : Type} (x : α) : Upholds P (pure x : Session α) := (keeps_pure x).upholds

theorem upholds_get (p : Pointers) (n : String) : Upholds P (p.get n) :=
  ((keeps_lift _).bind fun _ => (Session.keeps_read _).bind fun _ => keeps_pure _).upholds

/-- A binding is removed by an update, if it is. -/
theorem upholds_removeIf {p : Pointers} {n : String} (h : Upholds P (p.update [(n, .null)])) (v : Json) :
    Upholds P (p.removeIf n v) :=
  (upholds_get p n).bind fun _ =>
    upholds_ite (fun _ => h.discard.bind fun _ => upholds_pure _) fun _ => upholds_pure _

namespace Survives

variable (h : v.Survives P)
include h

theorem removeRunning : Upholds P (discard (v.directory.pointers.removeIf running v.key) : Session Unit) :=
  (upholds_removeIf (h.update _ (by simp)) _).discard

theorem enter : Upholds P v.enter :=
  (h.update _ (by simp)).discard.bind fun _ => h.report _

theorem complete : Upholds P v.complete := by
  have hrecord : Upholds P v.completeRecord :=
    (keeps_look _).upholds.bind fun _ => upholds_ite (fun _ => h.changeRecord _) fun _ => upholds_pure _
  exact hrecord.bind fun _ => h.saveRecord.bind fun _ => h.removeRunning.bind fun _ => h.report _

theorem abort (f : Fault) : Upholds P (v.abort f) := by
  have hfailure : Upholds P (v.recordFailure f) :=
    (h.changeRecord _).bind fun _ => h.saveRecord.bind fun _ => (h.update _ (by simp)).discard.bind fun _ =>
      h.removeRunning
  have hend : Upholds P (if v.quiet then v.reportFailure else pure ()) :=
    upholds_ite (fun _ => (upholds_read _).bind fun _ => h.excerpt _) fun _ => upholds_pure _
  unfold Supervision.abort
  refine (h.report _).bind fun _ => hfailure.outcome.bind fun r => ?_
  cases r with
  | ok u => exact hend
  | error g => exact (h.report _).bind fun _ => hend

/-- What survives the attempt itself as well survives the whole. -/
theorem supervise {α : Type} {attempt : Session α} (ha : Upholds P attempt) :
    Upholds P (v.supervise attempt) := by
  unfold Supervision.supervise
  refine h.enter.bind fun _ => ha.outcome.bind fun r => ?_
  cases r with
  | ok x => exact h.complete.bind fun _ => upholds_pure _
  | error f => exact (h.abort f).bind fun _ => (keeps_fail f).upholds

end Survives

end Supervision

end FlowPlan

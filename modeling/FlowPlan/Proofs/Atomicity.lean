import FlowPlan.Proofs.Moments
import FlowPlan.Proofs.Supervision

/-!
# The moments of an update

The bindings change in one step: at every moment of an update they are the old ones or the new ones. A
promotion has two such steps if another key is the compiled one, and one step otherwise.

## Main definitions

* `Pointers.firstWrite`, `Pointers.lastWrite` — a promotion up to its writes of the pointers' file.
* `Pointers.Linked` — only links have changed.
* `Pointers.Holds` — the pointers' file holds certain bindings.

## Main statements

* `Pointers.update_turns` — an update.
* `Pointers.promote_turns` — a promotion.
-/

namespace FlowPlan.Pointers

open FlowPlan.Action Site

/-- An update up to the write of the pointers' file. -/
def store (p : Pointers) (changes : Bindings) : Session Unit := do
  changes.forM fun change => Action.lift (checkAlias change.1)
  let bindings := changes.foldl rebind (← p.read)
  Session.write (·.makeDirs p.root)
  Session.write (·.writeJson p.path (.obj bindings))

/-- A promotion up to its first write of the pointers' file. -/
def firstWrite (p : Pointers) (key : Json) : Session Unit := do
  let previous ← p.get compiled
  if previous ≠ .null && !Json.same previous key then p.store [(compiledBackup, previous)]
  else p.store [(compiled, key)]

/-- A promotion up to the write that binds the compiled key. -/
def lastWrite (p : Pointers) (key : Json) : Session Unit := do
  let previous ← p.get compiled
  if previous ≠ .null && !Json.same previous key then p.set compiledBackup previous
  p.store [(compiled, key)]

variable {p : Pointers} {A : Address} {s s' t : Site} {n : String} {v : Json}

/-! ## Links -/

/-- Only links and their preparations have changed, and no directory is in the way of one. -/
structure Linked (A : Address) (s t : Site) : Prop where
  differs : Differs (IsLinkOf A aliases) s t
  clear : ∀ n ∈ aliases, t.disk.Clear A n

theorem Linked.refl (h : ∀ n ∈ aliases, s.disk.Clear A n) : Linked A s s := ⟨.refl _ s, h⟩

theorem isLinkOf_alias (h : n ∈ aliases) :
    IsLinkOf A aliases (A ++ [n]) ∧ IsLinkOf A aliases (A ++ [Path.temporary n]) :=
  ⟨⟨n, h, .inl rfl⟩, ⟨n, h, .inr rfl⟩⟩

/-- An entry at the address of a link is no directory. -/
theorem Linked.ne_dir (h : Linked A s t) {a : Address} (ha : IsLinkOf A aliases a) :
    t.disk.find? a ≠ some .dir := by
  obtain ⟨n, hn, rfl | rfl⟩ := ha
  · exact (h.clear n hn).1
  · exact (h.clear n hn).2

theorem Linked.change (h : Linked A s t) {d : Disk} {a : Address} (ha : IsLinkOf A aliases a)
    (hhome : d.home = t.disk.home) (hkept : ∀ b, b ≠ a → d.find? b = t.disk.find? b)
    (hnot : d.find? a ≠ some .dir) : Linked A s { t with disk := d } := by
  have hne : ∀ b, t.disk.find? b ≠ some .dir → d.find? b ≠ some .dir := by
    intro b hb
    by_cases heq : b = a
    · exact heq ▸ hnot
    · rwa [hkept b heq]
  refine ⟨h.differs.trans (differs_disk hhome fun b hb => hkept b ?_),
    fun n hn => ⟨hne _ (h.clear n hn).1, hne _ (h.clear n hn).2⟩⟩
  rintro rfl
  exact hb ha

theorem Linked.set (h : Linked A s t) {a : Address} (ha : IsLinkOf A aliases a) {e : Entry} (he : e ≠ .dir) :
    Linked A s { t with disk := t.disk.set a e } := by
  have hnil := Disk.Address.Below.ne_nil (isLinkOf_below ha)
  refine h.change ha rfl (fun b hb => ?_) ?_
  · rw [Disk.find?_set _ hnil, if_neg (Ne.symm hb)]
  · rw [Disk.find?_set _ hnil, if_pos rfl]
    simpa using he

theorem Linked.erase (h : Linked A s t) {a : Address} (ha : IsLinkOf A aliases a) :
    Linked A s { t with disk := t.disk.erase a } := by
  have hnil := Disk.Address.Below.ne_nil (isLinkOf_below ha)
  refine h.change ha rfl (fun b hb => ?_) ?_
  · rw [Disk.find?_erase _ hnil, if_neg (Ne.symm hb)]
  · rw [Disk.find?_erase _ hnil, if_pos rfl]
    simp

theorem Linked.of_log (h : Linked A s s') (hd : Differs (fun _ => False) s' t) : Linked A s t :=
  ⟨h.differs.trans (hd.mono fun _ ha => ha.elim), fun n hn => (hd.sameDirs.clear A n).2 (h.clear n hn)⟩

theorem Linked.repoints (h : Linked A s t) (hclear : ∀ n ∈ aliases, s.disk.Clear A n) : Repoints A s t := by
  refine ⟨h.differs.mono fun _ ha => .inr ha, fun a => ?_⟩
  by_cases ha : IsLinkOf A aliases a
  · exact iff_of_false (h.ne_dir ha) ((Linked.refl hclear).ne_dir ha)
  · rcases h.differs.kept a ha with heq | ⟨-, c, c', hc, hc'⟩
    · rw [heq]
    · simp [hc, hc']

section Links

variable (hs : Ready p.root A s) (hn : n ∈ aliases)
include hs hn

theorem keeps_bindLink (v : Json) : Action.Keeps (Linked A s) (bindLink v (p.root.child n)) := by
  obtain ⟨hlink, htemporary⟩ := isLinkOf_alias (A := A) hn
  refine bindLink_keeps (isName_of_alias n hn).1
    (fun t ht => (ht.differs.ready hs fun _ => isLinkOf_below).rooted.opens)
    (fun t target ht _ => ht.set htemporary (by simp)) (fun t e ht _ he _ => ht.set hlink he)
    (fun t ht _ => ht.erase htemporary) v

theorem keeps_updateLink (v : Json) : Action.Keeps (Linked A s) (p.updateLink (n, v)) := by
  by_cases hv : v = .null
  · subst hv
    refine (Session.keeps_read _).bind fun _ => keeps_ite (fun _ => ?_) fun _ => keeps_pure _
    refine Session.keeps_write fun t d ht hd => ?_
    rw [((ht.differs.ready hs fun _ => isLinkOf_below).rooted.opens.of_unlink (isName_of_alias n hn).1 hd).2]
    exact ht.erase (isLinkOf_alias hn).1
  · rw [updateLink_of_ne_null p n hv]
    exact keeps_bindLink hs hn v

end Links

/-! ## Bindings -/

/-- Nothing but the pointers, their links and the log has changed, and the pointers' file holds these
bindings. -/
structure Holds (p : Pointers) (A : Address) (s : Site) (f : String → Option Json) (t : Site) : Prop where
  repoints : Repoints A s t
  stored : ∃ fs, t.disk.find? (A ++ [storeName]) = some (.file (.json (.obj fs)))
  bound : p.bound t.disk = f

/-- Nothing happens before the write of the pointers' file. -/
theorem store_trail (hs : Ready p.root A s) {B : Bindings} (hload : p.load s.disk = .ok B)
    (changes : Bindings) (hal : ∀ c ∈ changes, c.1 ∈ aliases) :
    ∃ n, (p.store changes).steps s = n + 1 ∧ ∀ (β : Type) (f : Bindings → Session β),
      Trail (· = s) (do
        changes.forM fun change => Action.lift (checkAlias change.1)
        let bindings := changes.foldl rebind (← p.read)
        Session.write (·.makeDirs p.root)
        f bindings) s n (f (changes.foldl rebind B)) s := by
  have hchecks : Always (· = s)
      (changes.forM fun change => (Action.lift (checkAlias change.1) : Session Unit)) s :=
    (keeps_forM fun _ _ => keeps_lift _).always rfl
  have hread : Always (· = s) p.read s := (Session.keeps_read _).always rfl
  have hmake := Session.makeDirs_run hs.rooted
  have hmakes : Always (· = s) (Session.write (·.makeDirs p.root)) s := ⟨rfl, congrArg Prod.snd hmake⟩
  have hload' : p.read.run s = (.ok B, s) := by rw [Pointers.read, Session.run_read, hload]
  have htrail : ∀ (β : Type) (f : Bindings → Session β), Trail (· = s) (do
      changes.forM fun change => Action.lift (checkAlias change.1)
      let bindings := changes.foldl rebind (← p.read)
      Session.write (·.makeDirs p.root)
      f bindings) s _ (f (changes.foldl rebind B)) s := fun β f =>
    (hchecks.trail_bind (checkAliases_run hal s) _).trans
      ((hread.trail_bind hload' _).trans (hmakes.trail_bind hmake _))
  exact ⟨_, (htrail _ fun bindings => Session.write (·.writeJson p.path (.obj bindings))).steps, htrail⟩

/-- Before the write of an update nothing has happened yet; from then on the bindings are the new ones. -/
theorem update_turns (hs : Ready p.root A s) (hclear : ∀ n ∈ aliases, s.disk.Clear A n) {B : Bindings}
    (hload : p.load s.disk = .ok B) (changes : Bindings) (hal : ∀ c ∈ changes, c.1 ∈ aliases) :
    Turns (· = s) (Holds p A s (changes.foldl rebound (p.bound s.disk))) (p.update changes) s
      ((p.store changes).steps s) := by
  obtain ⟨s₁, hstore, hdiff₁, hdirs₁, fs, hf, hbound⟩ := store_run hs hload hal
  have hs₁ : Ready p.root A s₁ := hdiff₁.ready hs (by rintro a rfl; exact Disk.below_child A _)
  have hclear₁ : ∀ n ∈ aliases, s₁.disk.Clear A n := fun n hn => (hdirs₁.clear A n).2 (hclear n hn)
  -- What follows the file touches only the links, so the file says what it says now.
  have hholds : ∀ t, Linked A s₁ t → Holds p A s (changes.foldl rebound (p.bound s.disk)) t := by
    intro t ht
    have hf' : t.disk.find? (A ++ [storeName]) = some (.file (.json (.obj fs))) := by
      rw [ht.differs.find? (not_isLinkOf_storeName fun _ hn => hn) (hs₁.not_isLog_child _), hf]
    refine ⟨.trans ⟨hdiff₁.mono fun _ ha => .inl ha, hdirs₁⟩ (ht.repoints hclear₁), ⟨fs, hf'⟩, ?_⟩
    exact hbound _ (ht.differs.ready hs₁ fun _ => isLinkOf_below).rooted hf'
  obtain ⟨n, hsteps, htrail⟩ := store_trail hs hload changes hal
  unfold update
  rw [hsteps]
  refine (htrail _ fun bindings => do
    Session.write (·.writeJson p.path (.obj bindings))
    if p.links then changes.forM p.updateLink
    Session.debug logger "Pointers updated" (some "pointers_updated") (some (.obj changes))
    return bindings).turns (Turns.bind (turns_atomic rfl ?_) fun _ s' hrun => ?_)
  · exact (congrArg Prod.snd hstore).symm ▸ hholds s₁ (.refl hclear₁)
  · obtain rfl : s₁ = s' := congrArg Prod.snd (hstore.symm.trans hrun)
    refine Always.mono (Keeps.always ?_ (.refl hclear₁)) hholds
    have hlog : Action.Keeps (Linked A s₁) (Session.debug logger "Pointers updated"
        (some "pointers_updated") (some (.obj changes)) >>= fun _ => pure (changes.foldl rebind B)) :=
      (Session.keeps_report (fun _ _ ht hd => ht.of_log hd) _).bind fun _ => keeps_pure _
    have hlinks : Action.Keeps (Linked A s₁) (changes.forM p.updateLink) :=
      keeps_forM fun c hc => keeps_updateLink hs₁ (hal c hc) c.2
    dsimp only
    split
    · exact hlinks.bind fun _ => hlog
    · exact hlog

theorem set_turns (hs : Ready p.root A s) (hclear : ∀ n ∈ aliases, s.disk.Clear A n) {B : Bindings}
    (hload : p.load s.disk = .ok B) (name : String) (hname : name ∈ aliases) (v : Json) :
    Turns (· = s) (Holds p A s (rebound (p.bound s.disk) (name, v))) (p.set name v) s
      ((p.store [(name, v)]).steps s) :=
  (update_turns hs hclear hload [(name, v)] (by simpa using hname)).bind_pure _

theorem Holds.ready {f : String → Option Json} (h : Holds p A s f t) (hs : Ready p.root A s) :
    Ready p.root A t :=
  h.repoints.differs.ready hs fun _ ha =>
    ha.elim (by rintro rfl; exact Disk.below_child A _) isLinkOf_below

/-- A change from bindings that the file holds already. -/
theorem Holds.trans {f g : String → Option Json} (h : Holds p A s f s') (h' : Holds p A s' g t) :
    Holds p A s g t :=
  ⟨h.repoints.trans h'.repoints, h'.stored, h'.bound⟩

theorem get_always (p : Pointers) (n : String) (s : Site) : Always (· = s) (p.get n) s :=
  ((keeps_lift _).bind fun _ => (Session.keeps_read _).bind fun _ => keeps_pure _).always rfl

/-- Before its first write nothing has happened of a promotion yet. From then on the backup is bound, and
from the last write on the compiled key as well. There are two writes only if another key is superseded. -/
theorem promote_turns (hs : Ready p.root A s) (hclear : ∀ n ∈ aliases, s.disk.Clear A n) {B : Bindings}
    (hload : p.load s.disk = .ok B) (k : String)
    (hunblocked : p.Supersedes s.disk k → ¬ p.Blocked s.disk A (compiledBackup, p.previous s.disk)) :
    ∃ g, (p.Supersedes s.disk k → g = rebound (p.bound s.disk) (compiledBackup, p.previous s.disk)) ∧
      (¬ p.Supersedes s.disk k → g = p.bound s.disk) ∧
      ∃ a s' m, (p.lastWrite (.str k)).steps s = (p.firstWrite (.str k)).steps s + m ∧
        Trail (· = s) (p.promote (.str k)) s ((p.firstWrite (.str k)).steps s) a s' ∧
        Turns (fun t => p.Supersedes s.disk k ∧ Holds p A s g t)
          (Holds p A s (rebound g (compiled, .str k))) a s' m := by
  obtain ⟨v, hv, hprev, hsupersedes⟩ := previous_of_load hload k
  have hrunget : (p.get compiled).run s = _ := get_run hload (by decide)
  rw [← hv] at hrunget
  have hget := get_always p compiled s
  have hfirst : (p.firstWrite (.str k)).steps s = _ := steps_bind_ok hrunget _
  have hlast : (p.lastWrite (.str k)).steps s = _ := steps_bind_ok hrunget _
  have hstart := hget.trail_bind hrunget fun previous => do
    if previous ≠ .null && !Json.same previous (.str k) then p.set compiledBackup previous
    p.set compiled (.str k)
    return previous
  by_cases hsup : p.Supersedes s.disk k
  · rw [if_pos (hsupersedes.1 hsup)] at hstart hfirst hlast
    obtain ⟨g, hg⟩ : ∃ g, g = rebound (p.bound s.disk) (compiledBackup, p.previous s.disk) := ⟨_, rfl⟩
    refine ⟨g, fun _ => hg, fun hnot => absurd hsup hnot, ?_⟩
    obtain ⟨r, s₂, hrun₂, hup⟩ := set_run hs hload compiledBackup (by decide) v
    obtain ⟨u, rfl⟩ := hup.ok.2 (by
      simpa [← blocked_sortKeys (v := v), ← hprev] using hunblocked hsup)
    obtain ⟨a, s₁, htrail, hholds⟩ := set_turns hs hclear hload compiledBackup (by decide) v
    have hg' : rebound (p.bound s.disk) (compiledBackup, v) = g := by rw [hg, hprev, rebound_sortKeys]
    rw [hg'] at hholds
    have hrun : a.run s₁ = (.ok u, s₂) := htrail.run.symm.trans hrun₂
    have hend : Holds p A s g s₂ := by
      have := hholds.run
      rwa [hrun] at this
    refine ⟨_, _, a.steps s₁ + (p.store [(compiled, .str k)]).steps s₂, ?_,
      hfirst ▸ hstart.trans (htrail.bind _),
      ((hholds.trail_bind hrun _).mono fun t ht => ⟨hsup, ht⟩).turns ?_⟩
    · have hset : (p.set compiledBackup v >>= fun _ => p.store [(compiled, .str k)]).steps s =
          (p.set compiledBackup v).steps s + (p.store [(compiled, .str k)]).steps s₂ := steps_bind_ok hrun₂ _
      rw [htrail.steps] at hset
      have hlast' := hlast.trans (congrArg ((p.get compiled).steps s + ·) hset)
      omega
    -- From here the second half runs on the state that the first half has left.
    obtain ⟨B₂, hload₂⟩ := load_isOk_of_stored (hend.ready hs).rooted hend.stored
    have hclear₂ : ∀ n ∈ aliases, s₂.disk.Clear A n := fun n hn =>
      (hend.repoints.sameDirs.clear A n).2 (hclear n hn)
    have hturns := set_turns (hend.ready hs) hclear₂ hload₂ compiled (by decide) (.str k)
    refine (hturns.bind_pure _).mono ?_ fun t ht => hend.trans (hend.bound ▸ ht)
    rintro t rfl
    exact ⟨hsup, hend⟩
  · rw [if_neg (mt hsupersedes.2 hsup)] at hstart hfirst hlast
    refine ⟨p.bound s.disk, fun h => absurd h hsup, fun _ => rfl, ?_⟩
    have hturns := set_turns hs hclear hload compiled (by decide) (.str k)
    obtain ⟨a, s', htrail, hholds⟩ := hturns.bind_pure fun _ => v
    refine ⟨a, s', 0, ?_, hfirst ▸ hstart.trans htrail, a, s', .nil, hholds⟩
    rw [hlast, hfirst]
    rfl

end FlowPlan.Pointers

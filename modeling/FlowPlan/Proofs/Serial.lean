import FlowPlan.Proofs.Entrance
import FlowPlan.Proofs.Status

/-!
# Builds that come together

Any number of builds are called on one build root and take turns, one atomic step at a time. The lock
makes them serial: those that obtain it are served one after another, as if each had been called after
the one before it had ended. A build that finds the lock held waits, or is refused and leaves nothing
behind.

Between its steps a build that holds the lock may rely on all others to leave the site alone, since all
that they do until they have the lock is already done. They rely on it to leave the build root and the
lock file in their place.

## Main definitions

* `Crowd` — builds that share a site, and `Crowd.play`, the turns that they take.
* `Crowd.Holds` — a build that holds the lock.
* `Crowd.Watch` — what holds after any turns.
* `Crowd.Serial` — the builds have been served one after another.

## Main statements

* `Crowd.Holds.turn` — a step of the build that holds the lock.
* `Crowd.Watch.advance`, `Crowd.Watch.play` — one turn, and any number of them.
* `Crowd.Watch.progress` — not all of them wait.
* `Crowd.serial_play` — the lock makes the builds serial.
-/

namespace FlowPlan

open FlowPlan.Action

/-! ## Crowds -/

namespace Call

/-- The build as it goes alone: how it ends, and what it leaves. -/
def alone (c : Call) (s : Site) : Except Fault Built × Site := (c.builder.run c.document).run (c.found s)

/-- What the builds leave that have been called one after another. -/
def left (s : Site) (calls : List Call) : Site := (history s calls).1

theorem left_concat (s : Site) (calls : List Call) (c : Call) :
    left s (calls ++ [c]) = (c.alone (left s calls)).2 := by
  unfold left history
  rw [List.foldl_append]
  rfl

theorem found_of_clock {c : Call} {s : Site} (h : s.clock = c.clock) : c.found s = s := by
  unfold found
  rw [← h]

end Call

/-- Builds that share a site: what is left of each of them, and which of them have obtained the lock, in
this order. -/
structure Crowd (ι : Type) where
  site : Site
  rest : ι → Session Built
  order : List ι

namespace Crowd

open Builder Disk

variable {ι : Type} (calls : ι → Call) (A : Address)

def start (s : Site) : Crowd ι := ⟨s, fun i => (calls i).builder.run (calls i).document, []⟩

/-- A step at which a build would wait for the lock without end, since somebody holds it. -/
def waits (a : Session Built) (s : Site) : Bool :=
  match a with
  | .done (.error .endless) => s.locked.contains (A ++ [".lock"])
  | _ => false

/-- The next step of a build, at its own time, if it has not ended and does not wait. -/
def step? (p : Crowd ι) (i : ι) : Option (Session Built × Site) :=
  ((p.rest i).turn ((calls i).found p.site)).filter fun x => !waits A x.1 x.2

/-- The turn of a build. -/
def advance [DecidableEq ι] (p : Crowd ι) (i : ι) : Crowd ι :=
  match p.step? calls A i with
  | none => p
  | some (a, s) =>
    ⟨s, Function.update p.rest i a,
      if A ++ [".lock"] ∈ s.locked ∧ A ++ [".lock"] ∉ p.site.locked then p.order ++ [i] else p.order⟩

/-- The builds take these turns. -/
def play [DecidableEq ι] (p : Crowd ι) (turns : List ι) : Crowd ι := turns.foldl (advance calls A) p

/-- The failure of a build that finds the lock held. -/
def refusal (root : Path) : Fault := .locked (Lock.heldMessage (Lock.path root)) none

/-- Nothing has happened to the site, except that its lock file may be there for the first time. -/
structure Quiet (A : Address) (s s' : Site) : Prop where
  disk : Harmless A s.disk s'.disk
  locked : s'.locked = s.locked
  records : s'.records = s.records
  journal : s'.journal = s.journal
  console : s'.console = s.console
  excerpt : s'.excerpt = s.excerpt

variable {calls A} {root : Path} {s t t' : Site} {p : Crowd ι} {i : ι} {a : Session Built} {c : Call}

theorem advance_none [DecidableEq ι] (h : p.step? calls A i = none) : p.advance calls A i = p := by
  unfold advance
  rw [h]

theorem advance_some [DecidableEq ι] (h : p.step? calls A i = some (a, t)) :
    p.advance calls A i = ⟨t, Function.update p.rest i a,
      if A ++ [".lock"] ∈ t.locked ∧ A ++ [".lock"] ∉ p.site.locked then p.order ++ [i] else p.order⟩ := by
  unfold advance
  rw [h]

theorem step?_done {r : Except Fault Built} (h : p.rest i = .done r) : p.step? calls A i = none := by
  unfold step?
  rw [h]
  rfl

theorem step?_of_turn (h : (p.rest i).turn ((calls i).found p.site) = some (a, t)) (hwaits : waits A a t = false) :
    p.step? calls A i = some (a, t) := by
  unfold step?
  rw [h]
  simp [Option.filter, hwaits]

theorem waits_of_ne_done (h : ∀ r, a ≠ .done r) : waits A a t = false := by
  unfold waits
  split
  · exact absurd rfl (h _)
  · rfl

theorem waits_of_free (h : A ++ [".lock"] ∉ t.locked) : waits A a t = false := by
  unfold waits
  split
  · simpa using h
  · rfl

/-! ### Who holds the lock -/

/-- A build that holds the lock. It keeps the lock in its place, and comes to what it comes to alone. -/
structure Holds (c : Call) (root : Path) (A : Address) (s t : Site) (a : Session Built) : Prop where
  attempt : ∃ locked rest, a = ensuring rest (Lock.release (A ++ [".lock"])) ∧ A ++ [".lock"] ∉ locked ∧
    Always (Guarded root A ((A ++ [".lock"]) :: locked) c.clock) rest (c.found t) ∧
    (rest.run (c.found t)).2.journal.file = none
  run : a.run (c.found t) = c.alone s

theorem Holds.ne_done (h : Holds c root A s t a) (r : Except Fault Built) : a ≠ .done r := by
  obtain ⟨locked, rest, rfl, -⟩ := h.attempt
  exact ensuring_modify_ne_done _ _ r

theorem Holds.guarded (h : Holds c root A s t a) :
    ∃ locked, A ++ [".lock"] ∉ locked ∧ Guarded root A ((A ++ [".lock"]) :: locked) c.clock (c.found t) := by
  obtain ⟨locked, rest, -, hfree, halways, -⟩ := h.attempt
  exact ⟨locked, hfree, halways.head⟩

theorem Holds.held (h : Holds c root A s t a) : A ++ [".lock"] ∈ t.locked := by
  obtain ⟨locked, -, hguarded⟩ := h.guarded
  have hlocked : t.locked = _ := hguarded.locked
  rw [hlocked]
  exact List.mem_cons_self

theorem Holds.furnished (h : Holds c root A s t a) : Furnished root A t.disk := by
  obtain ⟨locked, -, hguarded⟩ := h.guarded
  exact hguarded.furnished

/-- A build that has ended with `r`, and nothing more has happened since. -/
structure Leaves (c : Call) (root : Path) (A : Address) (s t : Site) (r : Except Fault Built) : Prop where
  alone : c.alone s = (r, t)
  usable : Usable root A t
  furnished : Furnished root A t.disk

/-- A step of who holds the lock. The last one gives it back. -/
theorem Holds.turn (h : Holds c root A s t a) : ∃ a' t', a.turn (c.found t) = some (a', t') ∧
    (Holds c root A s t' a' ∨ ∃ r, a' = .done r ∧ Leaves c root A s t' r) := by
  obtain ⟨locked, rest, rfl, hfree, halways, hjournal⟩ := h.attempt
  have hrun := h.run
  cases rest with
  | done r =>
    have hguarded : Guarded root A ((A ++ [".lock"]) :: locked) c.clock (c.found t) := halways
    refine ⟨.done r, { c.found t with locked := (c.found t).locked.erase (A ++ [".lock"]) }, rfl, .inr ⟨r, rfl,
      hrun.symm, ⟨hguarded.furnished.passable, hguarded.tree, hjournal, ?_⟩, hguarded.furnished⟩⟩
    dsimp only
    rw [hguarded.locked, List.erase_cons_head]
    exact hfree
  | step change next =>
    obtain ⟨-, halways'⟩ := halways
    have hfound : c.found (change (c.found t)) = change (c.found t) := Call.found_of_clock halways'.head.clock
    refine ⟨_, _, rfl, .inl ⟨⟨locked, next (c.found t), rfl, hfree, ?_, ?_⟩, ?_⟩⟩
    · rw [hfound]
      exact halways'
    · rw [hfound]
      exact hjournal
    · rw [hfound]
      exact hrun

/-- The step at which a build obtains the lock. -/
theorem holds_claimed (hroot : c.builder.settings.root = root) (hheedful : c.builder.Heedful A)
    (hu : Usable root A t) (hf : Furnished root A t.disk) (hsame : c.alone t = c.alone s) :
    ∃ a t', (c.builder.claimLock c.document (A ++ [".lock"])).turn (c.found t) = some (a, t') ∧
      Holds c root A s t' a := by
  subst hroot
  have hturn := claimLock_free (t := c.found t) c.builder c.document hu.free
  refine ⟨_, _, hturn, ?_⟩
  obtain ⟨t', ht'⟩ : ∃ t', t' = { c.found t with
      locked := (A ++ [".lock"]) :: (c.found t).locked,
      disk := (c.found t).disk.set (A ++ [".lock"]) (.file (.text "held\n")) } := ⟨_, rfl⟩
  have hwrote : Wrote (A ++ [".lock"]) t.disk (t.disk.set (A ++ [".lock"]) (.file (.text "held\n"))) := by
    refine wrote_set (by simp) hu.passable.lock (fun _ => ?_) _
    rw [List.dropLast_concat]
    exact hf.rooted.dir
  have hguarded : Guarded c.builder.settings.root A ((A ++ [".lock"]) :: t.locked) c.clock t' := by
    subst ht'
    exact ⟨Site.ready_of_journal (hf.rooted.of_keepsWays (hwrote.grows.keepsWays A)) hu.journal,
      hwrote.isTree hu.tree, hwrote.file, rfl, rfl⟩
  have hfound : c.found t' = t' := Call.found_of_clock hguarded.clock
  obtain ⟨halways, hjournal⟩ := guarded_attempt hheedful hguarded (by rw [ht']; exact hu.journal) c.document
  rw [← ht'] at hturn ⊢
  refine ⟨⟨t.locked, _, rfl, hu.free, hfound.symm ▸ halways, hfound.symm ▸ hjournal⟩, ?_⟩
  rw [hfound, ← run_of_turn hturn, ← run_furnished (t := c.found t) hf]
  exact hsame

/-! ### What a turn keeps -/

/-- These builds have ended as they end alone, each after those before it. -/
def Served (calls : ι → Call) (s : Site) (order : List ι) (rest : ι → Session Built) : Prop :=
  ∀ before i, before ++ [i] <+: order → rest i = .done ((calls i).alone (Call.left s (before.map calls))).1

theorem Served.done {order : List ι} (h : Served calls s order p.rest) (hi : i ∈ order) : ∃ r, p.rest i = .done r := by
  obtain ⟨before, after, rfl⟩ := List.append_of_mem hi
  exact ⟨_, h before i ⟨after, by simp⟩⟩

theorem Served.update [DecidableEq ι] {order : List ι} {rest : ι → Session Built} (h : Served calls s order rest)
    (hi : i ∉ order) (a : Session Built) : Served calls s order (Function.update rest i a) := by
  intro before j hprefix
  have hj : j ∈ order := hprefix.subset (by simp)
  rw [Function.update_of_ne (by rintro rfl; exact hi hj)]
  exact h before j hprefix

theorem Served.concat {order : List ι} {rest : ι → Session Built} (h : Served calls s order rest)
    (hi : rest i = .done ((calls i).alone (Call.left s (order.map calls))).1) :
    Served calls s (order ++ [i]) rest := by
  intro before j hprefix
  rcases List.prefix_concat_iff.1 hprefix with heq | hprefix
  · obtain ⟨rfl, hlast⟩ := List.append_inj' heq rfl
    obtain rfl : j = i := by simpa using hlast
    exact hi
  · exact h before j hprefix

/-- Nobody holds the lock. It is as if those that have had it had been called one after another. -/
structure Idle (calls : ι → Call) (root : Path) (A : Address) (s : Site) (p : Crowd ι) : Prop where
  usable : Usable root A p.site
  served : Served calls s p.order p.rest
  same : ∀ c : Call, c.builder.settings.root = root → c.alone p.site = c.alone (Call.left s (p.order.map calls))
  settled : p.order ≠ [] → Furnished root A p.site.disk ∧
    p.site = { Call.left s (p.order.map calls) with clock := p.site.clock }

/-- The last that has obtained the lock still holds it. -/
structure Busy (calls : ι → Call) (root : Path) (A : Address) (s : Site) (p : Crowd ι) (before : List ι) (k : ι) :
    Prop where
  order : p.order = before ++ [k]
  served : Served calls s before p.rest
  holds : Holds (calls k) root A (Call.left s (before.map calls)) p.site (p.rest k)

/-- A build without the lock is on its way to it, or has been refused. -/
def Outside (c : Call) (root : Path) (A : Address) (d : Disk) (order : List ι) (a : Session Built) : Prop :=
  c.builder.Enters c.document A d a ∨ a = .done (.error (refusal root)) ∧ c.builder.wait = false ∧ order ≠ []

/-- What holds after any turns. -/
structure Watch (calls : ι → Call) (root : Path) (A : Address) (s : Site) (p : Crowd ι) : Prop where
  nodup : p.order.Nodup
  outside : ∀ i ∉ p.order, Outside (calls i) root A p.site.disk p.order (p.rest i)
  phase : Idle calls root A s p ∨ ∃ before k, Busy calls root A s p before k

theorem Quiet.refl (A : Address) (s : Site) : Quiet A s s := ⟨.refl A _, rfl, rfl, rfl, rfl, rfl⟩

theorem watch_start (h : Usable root A s) : Watch calls root A s (start calls s) where
  nodup := List.nodup_nil
  outside _ _ := .inl .begins
  phase := by
    refine .inl ⟨h, fun before i hprefix => ?_, fun _ _ => rfl, fun hne => absurd rfl hne⟩
    simpa [start] using hprefix.length_le

/-- As long as not all builds have ended, one of them has a turn: who waits waits for another one. -/
theorem Watch.progress (hc : ∀ i, (calls i).builder.settings.root = root ∧ (calls i).builder.Heedful A)
    (h : Watch calls root A s p) {i : ι} (hi : ∀ r, p.rest i ≠ .done r) :
    ∃ j, (p.step? calls A j).isSome := by
  rcases h.phase with hidle | ⟨before, k, hbusy⟩
  · refine ⟨i, ?_⟩
    obtain ⟨hroot, hheedful⟩ := hc i
    have hnot : i ∉ p.order := fun hmem => by
      obtain ⟨r, hr⟩ := hidle.served.done hmem
      exact hi r hr
    rcases h.outside i hnot with henters | ⟨hrefused, -, -⟩
    · rcases henters.turn (t := (calls i).found p.site) (hroot.symm ▸ hidle.usable.passable) with
        ⟨hclaim, hfurnished⟩ | ⟨a, d, hturn, -, henters'⟩
      · obtain ⟨a, t, hturn, hholds⟩ := holds_claimed hroot hheedful hidle.usable (hroot ▸ hfurnished)
          (hidle.same _ hroot)
        rw [← hclaim] at hturn
        rw [step?_of_turn hturn (waits_of_ne_done hholds.ne_done)]
        rfl
      · rw [step?_of_turn hturn (waits_of_ne_done henters'.ne_done)]
        rfl
    · exact absurd hrefused (hi _)
  · obtain ⟨a, t, hturn, hnext⟩ := hbusy.holds.turn
    refine ⟨k, ?_⟩
    rw [step?_of_turn hturn ?_]
    · rfl
    · rcases hnext with hholds | ⟨r, -, hleaves⟩
      · exact waits_of_ne_done hholds.ne_done
      · exact waits_of_free hleaves.usable.free

section Turns

variable [DecidableEq ι]

/-- A build that has ended has no turn. -/
theorem Watch.of_done (h : Watch calls root A s p) {r : Except Fault Built} (hi : p.rest i = .done r) :
    Watch calls root A s (p.advance calls A i) ∧ Quiet A p.site (p.advance calls A i).site := by
  rw [advance_none (step?_done hi)]
  exact ⟨h, .refl A _⟩

variable (hc : ∀ i, (calls i).builder.settings.root = root ∧ (calls i).builder.Heedful A)
include hc

/-- A turn while nobody holds the lock. -/
theorem Watch.advance_idle (h : Watch calls root A s p) (hidle : Idle calls root A s p) (i : ι) :
    Watch calls root A s (p.advance calls A i) ∧
      (i ∉ (p.advance calls A i).order → Quiet A p.site (p.advance calls A i).site) := by
  obtain ⟨hroot, hheedful⟩ := hc i
  have hdone : ∀ {r}, p.rest i = .done r → Watch calls root A s (p.advance calls A i) ∧
      (i ∉ (p.advance calls A i).order → Quiet A p.site (p.advance calls A i).site) := fun hr =>
    (h.of_done hr).imp_right fun hquiet _ => hquiet
  by_cases hi : i ∈ p.order
  · obtain ⟨r, hr⟩ := hidle.served.done hi
    exact hdone hr
  rcases h.outside i hi with henters | ⟨hrefused, -, -⟩
  · have hpassable := hidle.usable.passable
    rcases henters.turn (t := (calls i).found p.site) (hroot.symm ▸ hpassable) with
      ⟨hclaim, hfurnished⟩ | ⟨a, d, hturn, happroach, henters'⟩
    -- The lock is obtained.
    · obtain ⟨a, t, hturn, hholds⟩ := holds_claimed hroot hheedful hidle.usable (hroot ▸ hfurnished)
        (hidle.same _ hroot)
      rw [← hclaim] at hturn
      rw [advance_some (step?_of_turn hturn (waits_of_ne_done hholds.ne_done)),
        if_pos ⟨hholds.held, hidle.usable.free⟩]
      refine ⟨⟨?_, fun j hj => ?_, .inr ⟨p.order, i, rfl, hidle.served.update hi a, ?_⟩⟩, fun hmem => ?_⟩
      · exact List.nodup_append.2 ⟨h.nodup, by simp, by simpa using fun j hj => ne_of_mem_of_not_mem hj hi⟩
      · have hj' : j ∉ p.order ∧ j ≠ i := by simpa [not_or] using hj
        dsimp only
        rw [Function.update_of_ne hj'.2]
        rcases h.outside j hj'.1 with hj'' | ⟨hrefused, hwait, -⟩
        · exact .inl (hj''.furnished ((hc j).1.symm ▸ hholds.furnished))
        · exact .inr ⟨hrefused, hwait, by simp⟩
      · dsimp only
        rw [Function.update_self]
        exact hholds
      · exact absurd (by simp) hmem
    -- A step on the way to the lock.
    · rw [hroot] at happroach
      have hstep := step?_of_turn (A := A) hturn (waits_of_ne_done henters'.ne_done)
      have hadvance : p.advance calls A i = ⟨{ (calls i).found p.site with disk := d }, Function.update p.rest i a,
          p.order⟩ := by
        rw [advance_some hstep, if_neg (fun hlock => hidle.usable.free hlock.1)]
      rw [hadvance]
      refine ⟨⟨h.nodup, fun j hj => ?_, .inl ⟨?_, hidle.served.update hi a, fun c hroot' => ?_, fun hne => ?_⟩⟩,
        fun _ => ⟨(hpassable.approach happroach).2, rfl, rfl, rfl, rfl, rfl⟩⟩
      · dsimp only
        by_cases hji : j = i
        · subst hji
          rw [Function.update_self]
          exact .inl henters'
        · rw [Function.update_of_ne hji]
          refine (h.outside j hj).imp_left fun hj' => hj'.approach ?_ ?_
          · exact (hc j).1.symm ▸ hpassable
          · exact (hc j).1.symm ▸ happroach
      · exact ⟨(hpassable.approach happroach).1, hidle.usable.tree.approach happroach, hidle.usable.journal,
          hidle.usable.free⟩
      · rw [← hidle.same c hroot']
        subst hroot'
        exact (run_approach (t := c.found p.site) hpassable happroach c.document).symm
      · obtain ⟨hfurnished, hsite⟩ := hidle.settled hne
        obtain rfl := hfurnished.approach happroach
        refine ⟨hfurnished, ?_⟩
        dsimp only
        rw [hsite]
        rfl
  · exact hdone hrefused

/-- A turn of the build that holds the lock. -/
theorem Watch.advance_holder (h : Watch calls root A s p) {before : List ι} {k : ι}
    (hbusy : Busy calls root A s p before k) : Watch calls root A s (p.advance calls A k) ∧
      k ∈ (p.advance calls A k).order := by
  have hk : k ∈ p.order := by simp [hbusy.order]
  have hnew : k ∉ before := by
    have hnodup := hbusy.order ▸ h.nodup
    simpa using (List.nodup_append.1 hnodup).2.2 k
  obtain ⟨a, t, hturn, hnext⟩ := hbusy.holds.turn
  have hwaits : waits A a t = false := by
    rcases hnext with hholds | ⟨r, -, hleaves⟩
    · exact waits_of_ne_done hholds.ne_done
    · exact waits_of_free hleaves.usable.free
  have hfurnished : Furnished root A t.disk := by
    rcases hnext with hholds | ⟨r, -, hleaves⟩
    · exact hholds.furnished
    · exact hleaves.furnished
  have hadvance : p.advance calls A k = ⟨t, Function.update p.rest k a, p.order⟩ := by
    rw [advance_some (step?_of_turn hturn hwaits), if_neg (fun hlock => hlock.2 hbusy.holds.held)]
  have hserved := hbusy.served.update hnew a
  rw [hadvance]
  refine ⟨⟨h.nodup, fun j hj => ?_, ?_⟩, hk⟩
  · have hjk : j ≠ k := by
      rintro rfl
      exact hj hk
    dsimp only
    rw [Function.update_of_ne hjk]
    exact (h.outside j hj).imp_left fun hj' => hj'.furnished ((hc j).1.symm ▸ hfurnished)
  · rcases hnext with hholds | ⟨r, rfl, hleaves⟩
    · refine .inr ⟨before, k, hbusy.order, hserved, ?_⟩
      dsimp only
      rw [Function.update_self]
      exact hholds
    -- The lock is given back, and the build has been served.
    · have hleft : Call.left s (p.order.map calls) = t := by
        rw [hbusy.order, List.map_append, List.map_singleton, Call.left_concat, hleaves.alone]
      refine .inl ⟨hleaves.usable, ?_, fun c _ => by rw [hleft], fun _ => ⟨hfurnished, by rw [hleft]⟩⟩
      dsimp only
      rw [hbusy.order]
      refine hserved.concat ?_
      rw [Function.update_self, hleaves.alone]

/-- A turn of another one while the lock is held. -/
theorem Watch.advance_other (h : Watch calls root A s p) {before : List ι} {k : ι}
    (hbusy : Busy calls root A s p before k) {i : ι} (hik : i ≠ k) :
    Watch calls root A s (p.advance calls A i) ∧ Quiet A p.site (p.advance calls A i).site := by
  obtain ⟨hroot, -⟩ := hc i
  by_cases hi : i ∈ p.order
  · have hmem : i ∈ before := by
      rw [hbusy.order] at hi
      simpa [hik] using hi
    obtain ⟨r, hr⟩ := hbusy.served.done hmem
    exact h.of_done hr
  have hfurnished := hbusy.holds.furnished
  -- A step that leaves the site as it is.
  have hstay : ∀ a, p.step? calls A i = some (a, (calls i).found p.site) →
      Outside (calls i) root A p.site.disk p.order a →
      Watch calls root A s (p.advance calls A i) ∧ Quiet A p.site (p.advance calls A i).site := by
    intro a hstep houtside
    rw [advance_some hstep, if_neg (fun hlock => hlock.2 hbusy.holds.held)]
    refine ⟨⟨h.nodup, fun j hj => ?_, .inr ⟨before, k, hbusy.order, hbusy.served.update ?_ a, ?_⟩⟩,
      ⟨.refl A _, rfl, rfl, rfl, rfl, rfl⟩⟩
    · dsimp only
      by_cases hji : j = i
      · subst hji
        rw [Function.update_self]
        exact houtside
      · rw [Function.update_of_ne hji]
        exact h.outside j hj
    · intro hmem
      exact hi (by simp [hbusy.order, hmem])
    · dsimp only
      rw [Function.update_of_ne (Ne.symm hik)]
      exact ⟨hbusy.holds.attempt, hbusy.holds.run⟩
  rcases h.outside i hi with henters | ⟨hrefused, -, -⟩
  · rcases henters.turn (t := (calls i).found p.site) (hroot.symm ▸ hfurnished.passable) with
      ⟨hclaim, -⟩ | ⟨a, d, hturn, happroach, henters'⟩
    · have hturn := claimLock_held (t := (calls i).found p.site) (calls i).builder (calls i).document
        hbusy.holds.held
      rw [← hclaim] at hturn
      cases hwait : (calls i).builder.wait with
      | false =>
        rw [hwait, hroot] at hturn
        exact hstay _ (step?_of_turn hturn rfl) (.inr ⟨rfl, hwait, by simp [hbusy.order]⟩)
      | true =>
        have hnone : p.step? calls A i = none := by
          unfold step?
          rw [hturn, hwait]
          simpa [Option.filter, waits, Call.found] using hbusy.holds.held
        rw [advance_none hnone]
        exact ⟨h, .refl A _⟩
    · obtain rfl := hfurnished.approach (hroot ▸ happroach)
      exact hstay a (step?_of_turn hturn (waits_of_ne_done henters'.ne_done)) (.inl henters')
  · exact h.of_done hrefused

theorem Watch.advance (h : Watch calls root A s p) (i : ι) : Watch calls root A s (p.advance calls A i) ∧
    (i ∉ (p.advance calls A i).order → Quiet A p.site (p.advance calls A i).site) := by
  rcases h.phase with hidle | ⟨before, k, hbusy⟩
  · exact h.advance_idle hc hidle i
  · by_cases hik : i = k
    · subst hik
      exact (h.advance_holder hc hbusy).imp_right fun hmem hnot => absurd hmem hnot
    · exact (h.advance_other hc hbusy hik).imp_right fun hquiet _ => hquiet

theorem Watch.play (h : Watch calls root A s p) (turns : List ι) : Watch calls root A s (p.play calls A turns) := by
  induction turns generalizing p with
  | nil => exact h
  | cons i turns ih => exact ih (h.advance hc i).1

end Turns

/-! ### One after another -/

/-- The builds that have obtained the lock have been served one after another, and all others were
refused. -/
structure Serial [DecidableEq ι] (calls : ι → Call) (root : Path) (A : Address) (s : Site) (p : Crowd ι) : Prop where
  /-- No build obtains the lock twice. -/
  nodup : p.order.Nodup
  /-- Who has ended with the lock has ended as it does alone, after those before it. -/
  outcome : ∀ before i r, before ++ [i] <+: p.order → p.rest i = .done r →
    r = ((calls i).alone (Call.left s (before.map calls))).1
  /-- Who has ended without it has been refused, since another one held it. -/
  refused : ∀ i r, i ∉ p.order → p.rest i = .done r →
    r = .error (refusal root) ∧ (calls i).builder.wait = false ∧ p.order ≠ []
  /-- The lock is held by the last one that has obtained it, until it has ended. -/
  held : A ++ [".lock"] ∈ p.site.locked ↔ ∃ k ∈ p.order.getLast?, ∀ r, p.rest k ≠ .done r
  /-- All others that have obtained it have ended. -/
  ended : ∀ i ∈ p.order, p.order.getLast? ≠ some i → ∃ r, p.rest i = .done r
  /-- While nobody holds the lock the site is as they leave it one after another. -/
  site : A ++ [".lock"] ∉ p.site.locked → p.order ≠ [] →
    p.site = { Call.left s (p.order.map calls) with clock := p.site.clock }
  /-- A turn without the lock leaves nothing behind. -/
  quiet : ∀ i, i ∉ (p.advance calls A i).order → Quiet A p.site (p.advance calls A i).site
  /-- The builds do not wait for each other in vain. -/
  progress : (∀ i, ∃ r, p.rest i = .done r) ∨ ∃ j, (p.step? calls A j).isSome

theorem Watch.serial [DecidableEq ι] (hc : ∀ i, (calls i).builder.settings.root = root ∧ (calls i).builder.Heedful A)
    (h : Watch calls root A s p) : Serial calls root A s p := by
  have hrefused : ∀ i r, i ∉ p.order → p.rest i = .done r →
      r = .error (refusal root) ∧ (calls i).builder.wait = false ∧ p.order ≠ [] := by
    intro i r hi hr
    rcases h.outside i hi with henters | ⟨hrefused, hrest⟩
    · exact absurd hr (henters.ne_done r)
    · exact ⟨Action.done.inj (hr.symm.trans hrefused), hrest⟩
  have hprogress : (∀ i, ∃ r, p.rest i = .done r) ∨ ∃ j, (p.step? calls A j).isSome := by
    by_cases hall : ∀ i, ∃ r, p.rest i = .done r
    · exact .inl hall
    · obtain ⟨i, hi⟩ := not_forall.1 hall
      exact .inr (h.progress hc (not_exists.1 hi))
  rcases h.phase with hidle | ⟨before, k, hbusy⟩
  · refine ⟨h.nodup, fun before i r hprefix hr => ?_, hrefused, ?_, fun i hi _ => hidle.served.done hi,
      fun _ hne => (hidle.settled hne).2, fun i => (h.advance hc i).2, hprogress⟩
    · exact Action.done.inj (hr.symm.trans (hidle.served before i hprefix))
    · refine iff_of_false hidle.usable.free ?_
      rintro ⟨k, hk, hunended⟩
      obtain ⟨r, hr⟩ := hidle.served.done (List.mem_of_mem_getLast? hk)
      exact hunended r hr
  · have hlast : p.order.getLast? = some k := by simp [hbusy.order]
    have hunended := hbusy.holds.ne_done
    refine ⟨h.nodup, fun before' i r hprefix hr => ?_, hrefused, iff_of_true hbusy.holds.held ⟨k, hlast, hunended⟩,
      fun i hi hne => ?_, fun hfree => absurd hbusy.holds.held hfree, fun i => (h.advance hc i).2, hprogress⟩
    · rw [hbusy.order] at hprefix
      rcases List.prefix_concat_iff.1 hprefix with heq | hprefix
      · obtain ⟨-, hsame⟩ := List.append_inj' heq rfl
        obtain rfl : i = k := by simpa using hsame
        exact absurd hr (hunended r)
      · exact Action.done.inj (hr.symm.trans (hbusy.served before' i hprefix))
    · refine hbusy.served.done ?_
      rw [hbusy.order] at hi
      rcases List.mem_append.1 hi with hi | hi
      · exact hi
      · obtain rfl : i = k := by simpa using hi
        exact absurd hlast hne

/-- However builds with units of plain names and heedful commands take turns in a build root, the lock makes
them serial. -/
theorem serial_play [DecidableEq ι] (hu : Usable root A s)
    (hc : ∀ i, (calls i).builder.settings.root = root ∧ (calls i).builder.Heedful A) (turns : List ι) :
    Serial calls root A s ((start calls s).play calls A turns) :=
  ((watch_start hu).play hc turns).serial hc

theorem heedful_lone {commands : Assoc String CommandSettings} {A : Address} :
    (Call.lone "5.00" commands).builder.Heedful A :=
  ⟨Builder.plain_lone, fun _ _ c _ => c.heedful_uniform _ _ A⟩

theorem serial_play_pair :
    let calls : Bool → Call := fun _ => Call.lone "5.00" []
    let A := ["/", "p", "run"]
    let p := (start calls Call.bare).play calls A [false, true, false, true, true, false, false, true]
    Usable ⟨"/", ["p", "run"]⟩ A Call.bare ∧ (∀ i, (calls i).builder.settings.root = ⟨"/", ["p", "run"]⟩ ∧
      (calls i).builder.Heedful A) ∧ p.order = [false] ∧ Serial calls ⟨"/", ["p", "run"]⟩ A Call.bare p := by
  intro calls A p
  have hu : Usable ⟨"/", ["p", "run"]⟩ A Call.bare := usable_vacant Call.vacant_bare Call.isTree_bare
  have hc : ∀ i, (calls i).builder.settings.root = ⟨"/", ["p", "run"]⟩ ∧ (calls i).builder.Heedful A :=
    fun _ => ⟨(by decide +kernel : (Call.lone "5.00" []).builder.settings.root = ⟨"/", ["p", "run"]⟩),
      heedful_lone⟩
  exact ⟨hu, hc, by decide +kernel, serial_play hu hc _⟩

/-! ### Who obtains no lock -/

/-- A site where the lock is a directory. -/
def barred : Site :=
  .ofDisk ⟨[(["/"], .dir), (["/", "p"], .dir), (["/", "p", "run"], .dir), (["/", "p", "run", ".lock"], .dir)], []⟩
    ⟨2024, 3, 1, 10, 0, 0, 0, none⟩

/-- A site where the way to the build root leads through a link. -/
def linked : Site :=
  .ofDisk ⟨[(["/"], .dir), (["/", "p"], .dir), (["/", "p", "run"], .dir), (["/", "p", "link.json"], .link "run")],
    []⟩ ⟨2024, 3, 1, 10, 0, 0, 0, none⟩

/-- A build whose stage writes where that link is. -/
def away : Call :=
  let c := Call.lone "5.00/../../../link" []
  { c with builder := { c.builder with settings := { c.builder.settings with buildRoot := ⟨"", ["link.json"]⟩ } } }

theorem vacant_linked : Builder.Vacant ⟨"/", ["p", "link.json"]⟩ ["/", "p", "run"] linked := by
  refine ⟨⟨linked.disk, rfl, ⟨by unfold Path.Clean; decide, by decide, fun d' hd => ?_⟩, ?_⟩,
    rfl, by decide⟩
  · have hways : ∀ a e, linked.disk.find? a = some e → e.isFile = false → a.length < 4 → d'.find? a = some e := by
      intro a e he hfile hlength
      refine hd.ways a e ?_ he hfile
      rintro ⟨n, rest, rfl⟩
      simp at hlength
      omega
    have hslash := hways ["/"] .dir (by decide) rfl (by decide)
    have hproject := hways ["/", "p"] .dir (by decide) rfl (by decide)
    have hlink := hways ["/", "p", "link.json"] (.link "run") (by decide) rfl (by decide)
    have hrun := hways ["/", "p", "run"] .dir (by decide) rfl (by decide)
    have hparse : Path.parse "run" = ⟨"", ["run"]⟩ := by decide
    rw [Disk.follow]
    simp [Disk.startOf, Disk.namesOf, Path.isAbsolute, Disk.descend, Disk.maxLinks, hslash, hproject, hlink, hparse]
    rw [Disk.follow]
    simp [Disk.descend, hrun]
  · rintro a ⟨n, rest, rfl⟩
    simp [linked, Site.ofDisk, Disk.find?, Assoc.find?_cons]

theorem isTree_linked : linked.disk.IsTree := by
  refine .of_entries ?_ (by decide)
  decide

/-- A build with a plain name in the same build root as the one that strays. -/
def beside : Call :=
  { away with builder := { away.builder with catalogs := (Call.lone "5.00" []).builder.catalogs } }

/-- The build has ended with a failure, and not because the lock was held. -/
def fails (a : Session Built) : Bool :=
  match a with
  | .done (.error (.locked _ _)) => false
  | .done (.error _) => true
  | _ => false

def ended (a : Session Built) : Bool :=
  match a with
  | .done _ => true
  | .step _ _ => false

/-- A host whose programs remove the lock file, with the lock that is held on it. -/
def unlocking : Host where
  start _ g := .ok (⟨[], [], .exited 0⟩,
    ⟨g.disk.erase ["/", "p", "run", ".lock"], g.locked.erase ["/", "p", "run", ".lock"]⟩)

/-- A build with a command on such a host. -/
def releasing : Call := (Call.lone "5.00" [("rm", ⟨"rm", .str "plan", [.str "rm", .str "-f"]⟩)]).on unlocking

theorem plain_releasing : releasing.builder.Plain := ⟨Builder.plain_lone.stages, Builder.plain_lone.generators⟩

set_option maxRecDepth 100000 in
/-- Where the lock is a directory a build fails without it, and so does one that comes after a build whose
stage has written where the way to the build root leads. Where a command removes the lock a build obtains it
while another one has not ended. -/
theorem unserved_barred :
    (let p := (start (fun _ : Unit => Call.lone "5.00" []) barred).play (fun _ => Call.lone "5.00" []) ["/", "p", "run"]
        [(), ()];
      barred.disk.IsTree ∧ (Call.lone "5.00" []).builder.Heedful ["/", "p", "run"] ∧ p.order = [] ∧
        fails (p.rest ()) = true) ∧
    (let calls : Bool → Call := fun i => if i then beside else away
      let p := (start calls linked).play calls ["/", "p", "run"] (List.replicate 48 false ++ [true]);
      Usable ⟨"/", ["p", "link.json"]⟩ ["/", "p", "run"] linked ∧
        (∀ i, (calls i).builder.settings.root = ⟨"/", ["p", "link.json"]⟩) ∧ p.order = [false] ∧
        fails (p.rest true) = true) ∧
    let calls : Bool → Call := fun _ => releasing
    let p := (start calls Call.bare).play calls ["/", "p", "run"] (List.replicate 52 false ++ List.replicate 4 true);
    Usable ⟨"/", ["p", "run"]⟩ ["/", "p", "run"] Call.bare ∧
      (∀ i, (calls i).builder.settings.root = ⟨"/", ["p", "run"]⟩ ∧ (calls i).builder.Plain) ∧
      p.order = [false, true] ∧ ∀ i, ended (p.rest i) = false := by
  refine ⟨⟨.of_entries ?_ (by decide +kernel), heedful_lone, by decide +kernel, by decide +kernel⟩,
    ⟨usable_vacant vacant_linked isTree_linked, ?_, by decide +kernel, by decide +kernel⟩,
    usable_vacant Call.vacant_bare Call.isTree_bare, fun _ => ⟨?_, plain_releasing⟩, by decide +kernel,
    ?_⟩
  · decide +kernel
  · decide +kernel
  · change (Call.lone "5.00" []).builder.settings.root = _
    decide +kernel
  · decide +kernel

end Crowd

end FlowPlan

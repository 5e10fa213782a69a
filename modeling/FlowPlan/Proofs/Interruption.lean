import FlowPlan.Proofs.Outcome
import FlowPlan.Proofs.Steadiness

/-!
# The moments of a build

At every moment of a build the build root is sound. Up to the promotion, and throughout if there is
none, the compiled key and its backup are as before. The first write of a promotion makes the compiled
key its own backup, and the last one puts the new key in its place.

## Main definitions

* `Supervision.ending` — what follows an attempt.
* `Builder.Shown` — a sound build root with a compiled key and a backup.

## Main statements

* `Builder.run_leads` — a build up to its promotion.
* `Builder.conclusion_turns` — the promotion and what follows it.
* `Builder.run_shown` — the moments of a whole build.
-/

namespace FlowPlan

open FlowPlan.Action Site Pointers Workspace

namespace Supervision

/-- What follows an attempt. -/
def ending {α : Type} (v : Supervision) : Except Fault α → Session α
  | .ok x => do
    v.complete
    return x
  | .error f => do
    v.abort f
    Action.fail f

theorem supervise_eq {α : Type} (v : Supervision) (attempt : Session α) :
    v.supervise attempt = v.enter >>= fun _ => Action.outcome attempt >>= v.ending := by
  unfold supervise
  refine congrArg (v.enter >>= ·) (funext fun _ =>
    congrArg (Action.outcome attempt >>= ·) (funext fun r => ?_))
  cases r <;> rfl

end Supervision

namespace Builder

variable {b : Builder} {w : Workspace} {A : Address} {s t : Site} {α β : Type}

/-! ## Up to the promotion -/

theorem steady_ending (hroot : b.directory.root = w.root) (r : Except Fault α) :
    Steady w A ((b.supervision w).ending r) := by
  cases r with
  | ok x => exact (steady_complete hroot).bind fun _ => steady_pure _
  | error f => exact (steady_abort hroot f).bind fun _ => steady_done _

theorem supervise_leads (hroot : b.directory.root = w.root) (hd : b.Discreet A) (h : Amid w A s)
    (document : Json) :
    Leads (fun t => Calm w.root A s.disk t.disk) (b.trial document w)
      ((b.supervision w).supervise (b.phases document w)) s fun w' t a => w' = w ∧ Amid w A t ∧
        Calm w.root A s.disk t.disk ∧
        ∃ j, a = Action.outcome (b.promoted w j) >>= (b.supervision w).ending := by
  rw [Supervision.supervise_eq, phases_eq]
  have henter := steady_enter hroot s h
  refine (leads_bind (henter.mono fun _ ht => ht.2) _).bind fun _ s₁ a hrun₁ ha => ?_
  subst ha
  have h₁ := henter.run
  rw [hrun₁] at h₁
  have hjudged := (steady_judged hroot hd document s₁ h₁.1).mono fun t ht =>
    (⟨ht.1, h₁.2.trans ht.2⟩ : Amid w A t ∧ Calm w.root A s.disk t.disk)
  have hleads : Leads (fun t => Calm w.root A s.disk t.disk) (b.judged document w)
      (Action.outcome (b.judged document w >>= b.promoted w) >>= (b.supervision w).ending) s₁
      fun j _ a => a = Action.outcome (b.promoted w j) >>= (b.supervision w).ending := by
    refine leads_outcome (hjudged.mono fun _ ht => ht.2) fun f t hrun => ?_
    have ht := hjudged.run
    rw [hrun] at ht
    exact (steady_ending hroot _ t ht.1).mono fun _ hu => ht.2.trans hu.2
  refine Leads.bind (Leads.bind hleads fun j t a hrun ha => ?_) fun _ t a _ ha => leads_pure ha
  have ht := hjudged.run
  rw [hrun] at ht
  exact leads_pure ⟨rfl, ht.1, ht.2, j, ha⟩

/-- An attempt up to its promotion, with its log. -/
def logged (b : Builder) (document : Json) (w : Workspace) : Session Workspace := do
  Session.openLog w.logPath b.settings.logLevel b.style !b.quiet
  b.trial document w

theorem remainder_leads (hroot : b.directory.root = w.root) (hd : b.Discreet A) (h : Amid w A s)
    (hnone : s.disk.find? (A ++ [w.key] ++ [logName]) = none) (document : Json) :
    Leads (fun t => Calm w.root A s.disk t.disk) (b.logged document w) (b.remainder document w) s
      fun w' t a => w' = w ∧ Amid w A t ∧ Calm w.root A s.disk t.disk ∧
        ∃ j, a = Action.ensuring (Action.outcome (b.promoted w j) >>= (b.supervision w).ending)
          Session.closeLog := by
  have hlog := openLog_always h hnone b.settings.logLevel b.style !b.quiet
  refine (leads_bind hlog _).bind fun _ s₁ a hrun ha => ?_
  subst ha
  have hcalm := hlog.run
  rw [hrun] at hcalm
  have hamid : Amid w A s₁ := by
    rcases openLog_run h.stands hnone b.settings.logLevel b.style !b.quiet with
      ⟨f, -, hrun'⟩ | ⟨s', hrun', hopened⟩
    · rw [hrun] at hrun'
      cases hrun'
    · rw [hrun] at hrun'
      cases hrun'
      exact ⟨hopened.stands h.stands hnone, hcalm.sound⟩
  have hclose : ∀ t : Site, Calm w.root A s.disk t.disk →
      Always (fun t => Calm w.root A s.disk t.disk) Session.closeLog t := fun t ht => ⟨ht, ht⟩
  refine (((supervise_leads hroot hd hamid document).mono (fun _ ht => hcalm.trans ht)
    fun _ _ _ _ hq => hq).ensuring hclose).mono (fun _ ht => ht) ?_
  rintro w' t a - ⟨a', rfl, hw', ht, hcalm', j, rfl⟩
  exact ⟨hw', ht, hcalm.trans hcalm', j, rfl⟩

theorem attempt_leads (hd : b.Discreet A) (h : Sound b.settings.root A s.disk)
    (hj : s.journal.file = none) (document : Json) :
    Leads (fun t => Calm b.settings.root A s.disk t.disk)
      (b.directory.allocate >>= b.logged document) (b.attempt document) s fun w t a =>
        b.directory.root = w.root ∧ Key.IsKeyName w.key ∧
        s.disk.find? (A ++ [w.key]) = none ∧ Amid w A t ∧ Calm b.settings.root A s.disk t.disk ∧
        ∃ j, a = Action.ensuring (Action.outcome (b.promoted w j) >>= (b.supervision w).ending)
          Session.closeLog := by
  have halways := allocate_always (e := b.directory) h hj
  have hready : Ready b.directory.root A s := ready_of_journal h.rooted hj
  refine (leads_bind halways (b.remainder document)).bind fun w s₁ a hrun ha => ?_
  subst ha
  have hcalm := halways.run
  rw [hrun] at hcalm
  obtain ⟨B, hload⟩ := h.load b.settings.links
  rcases BuildDir.allocate_run (b := b.directory) hready h.closed hj hload with
    ⟨f, hrun', -⟩ | ⟨key, l, s', hrun', hallocated, -, -⟩
  · rw [hrun] at hrun'
    cases hrun'
  rw [hrun] at hrun'
  cases hrun'
  have hnone : s₁.disk.find? (A ++ [key] ++ [logName]) = none := by
    rw [hallocated.kept _ (by simp) (by simp; decide)]
    exact h.closed key _ (by simp [hallocated.free])
  have hamid : Amid (b.directory.workspace key) A s₁ :=
    ⟨hallocated.stands hready.rooted h.closed hj, hcalm.sound⟩
  refine (remainder_leads rfl hd hamid hnone document).mono (fun _ ht => hcalm.trans ht) ?_
  rintro w' t a - ⟨rfl, ht, hcalm', j, rfl⟩
  exact ⟨rfl, hallocated.name, hallocated.free, ht, hcalm.trans hcalm', j, rfl⟩

theorem approach_eq (b : Builder) (document : Json) :
    b.approach document = Lock.acquire (Lock.path b.settings.root) b.wait >>= fun _ =>
      b.directory.allocate >>= b.logged document := by
  simp only [approach, opening, discard_eq, bind_assoc, pure_bind]
  rfl

/-- What a build has to report of its promotion. -/
def reported (w : Workspace) (j : Judged) (previous : Json) : Session Built := do
  Session.info Pointers.logger s!"Promoted workspace {w.key}" "workspace_promoted" none
    (some (.obj [("compiled", .str w.key), ("backup", previous)]))
  return ⟨w.key, j.start, ← Session.now, j.compiled, j.finished, j.generated, previous⟩

/-- What is left of a build when so much is left of its promotion. -/
def conclusion (b : Builder) (w : Workspace) (j : Judged) (lock : Address) (promotion : Session Json) :
    Session Built :=
  Action.ensuring
    (Action.ensuring (Action.outcome (promotion >>= reported w j) >>= (b.supervision w).ending)
      Session.closeLog)
    (Lock.release lock)

theorem promoted_eq (b : Builder) (w : Workspace) (j : Judged) :
    b.promoted w j = b.pointers.promote (.str w.key) >>= reported w j := by
  simp only [promoted, BuildDir.promote, bind_assoc, pure_bind]
  rfl

/-- Up to the promotion a build leaves the build root calm. -/
theorem run_leads (hd : b.Discreet A) (h : Sound b.settings.root A s.disk)
    (hj : s.journal.file = none) (document : Json) :
    Leads (fun t => Calm b.settings.root A s.disk t.disk) (b.approach document) (b.run document) s
      fun w t a => b.settings.root = w.root ∧ Key.IsKeyName w.key ∧
        s.disk.find? (A ++ [w.key]) = none ∧ Amid w A t ∧ Calm b.settings.root A s.disk t.disk ∧
        ∃ j lock, a = b.conclusion w j lock (b.pointers.promote (.str w.key)) := by
  rw [approach_eq]
  have halways := acquire_always h b.wait
  refine (leads_bind halways _).bind fun lock s₁ a hrun ha => ?_
  subst ha
  have hcalm := halways.run
  rw [hrun] at hcalm
  obtain ⟨r, s', hrun', hacq⟩ := Lock.acquire_run h.rooted h.lock_ne_link b.wait
  rw [hrun] at hrun'
  cases hrun'
  have hj₁ : s₁.journal.file = none := by rw [hacq.journal, hj]
  have hrelease : ∀ t : Site, Calm b.settings.root A s.disk t.disk →
      Always (fun t => Calm b.settings.root A s.disk t.disk) (Lock.release lock) t := fun t ht => ⟨ht, ht⟩
  refine (((attempt_leads hd hcalm.sound hj₁ document).mono (fun _ ht => hcalm.trans ht)
    fun _ _ _ _ hq => hq).ensuring hrelease).mono (fun _ ht => ht) ?_
  rintro w t a - ⟨a', rfl, hroot, hname, hnone, ht, hcalm', j, rfl⟩
  refine ⟨hroot, hname, ?_, ht, hcalm.trans hcalm', j, lock, by rw [promoted_eq, conclusion]⟩
  rcases hacq.disk with hdisk | ⟨a, hlocate, hwrote⟩
  · rw [← hdisk, hnone]
  · rw [h.locate_lock] at hlocate
    cases hlocate
    rw [← hwrote.kept _ (by simpa using hname.ne (by decide)), hnone]

/-! ## From the promotion on -/

/-- The build root is sound, and these are its compiled key and the backup. -/
structure Shown (root : Path) (A : Address) (k k' : Option Json) (d : Disk) : Prop where
  sound : Sound root A d
  compiled : Pointers.bound ⟨root, true⟩ d compiled = k
  backup : Pointers.bound ⟨root, true⟩ d compiledBackup = k'

variable {root : Path} {k k' : Option Json} {d d' : Disk}

theorem Shown.calm (h : Shown root A k k' d) (hc : Calm root A d d') : Shown root A k k' d' :=
  ⟨hc.sound, (hc.bound _ (by simp)).trans h.compiled, (hc.bound _ (by simp)).trans h.backup⟩

/-- What is steady shows the same keys as before. -/
theorem Steady.follow {a : Session α} {f : α → Session β} (hf : ∀ x, Steady w A (f x))
    (h : Always (fun t => Amid w A t ∧ Shown w.root A k k' t.disk) a s) :
    Always (fun t => Amid w A t ∧ Shown w.root A k k' t.disk) (a >>= f) s :=
  h.bind fun x s' hrun => by
    have hend := h.run
    rw [hrun] at hend
    exact (hf x s' hend.1).mono fun t ht => ⟨ht.1, hend.2.calm ht.2⟩

theorem Steady.ensure {a : Session α} {fin : Session Unit} (hf : Steady w A fin)
    (h : Always (fun t => Amid w A t ∧ Shown w.root A k k' t.disk) a s) :
    Always (fun t => Amid w A t ∧ Shown w.root A k k' t.disk) (Action.ensuring a fin) s :=
  Steady.follow (fun r => hf.bind fun _ => steady_done r) h.outcome

theorem steady_closeLog : Steady w A Session.closeLog := fun _ hs =>
  ⟨hs.refl, ⟨⟨ready_of_journal hs.stands.ready.rooted rfl, hs.stands.name, hs.stands.dir,
    hs.stands.record⟩, hs.sound⟩, hs.sound.calm_refl⟩

theorem steady_release (lock : Address) : Steady w A (Lock.release lock) :=
  steady_of_keeps fun _ => keeps_modify fun _ ht => ht

theorem steady_reported (j : Judged) (previous : Json) : Steady w A (reported w j previous) :=
  (steady_report _).bind fun _ => (steady_of_keeps fun _ => keeps_look _).bind fun _ => steady_pure _

/-- Behind the promotion the keys stay. -/
theorem conclusion_always (hroot : b.directory.root = w.root) {j : Judged} {lock : Address}
    {a : Session Json} (h : Always (fun t => Amid w A t ∧ Shown w.root A k k' t.disk) a s) :
    Always (fun t => Amid w A t ∧ Shown w.root A k k' t.disk) (b.conclusion w j lock a) s :=
  (steady_release lock).ensure <| steady_closeLog.ensure <| Steady.follow (steady_ending hroot)
    (Steady.follow (steady_reported j) h).outcome

theorem conclusion_trail {P : Site → Prop} {a a' : Session Json} {n : Nat} (j : Judged) (lock : Address)
    (h : Trail P a s n a' t) :
    Trail P (b.conclusion w j lock a) s n (b.conclusion w j lock a') t :=
  ((((h.bind _).outcome.bind _).ensuring _).ensuring _)

/-- The compiled key of a sound build root can be shown as the backup. -/
theorem Sound.not_blocked (h : Sound root A d) {p : Pointers} (hp : p.root = root) {key : String}
    (hsup : p.Supersedes d key) : ¬ p.Blocked d A (compiledBackup, p.previous d) := by
  subst hp
  unfold Supersedes previous at hsup
  unfold previous
  cases hv : p.bound d compiled with
  | none => simp [hv] at hsup
  | some v =>
    obtain ⟨k, rfl, hname, -⟩ := h.named v hv
    rw [Option.getD_some, blocked_key hname]
    exact fun hb => hb.2 (h.clear _ (by simp [aliases]))

/-- A key that is not the compiled one supersedes the one that is, if there is one. -/
theorem Sound.supersedes_iff (h : Sound root A d) {p : Pointers} (hp : p.root = root) {key : String}
    (hne : p.bound d compiled ≠ some (.str key)) : p.Supersedes d key ↔ p.bound d compiled ≠ none := by
  subst hp
  unfold Supersedes previous
  cases hv : p.bound d compiled with
  | none => simp
  | some v =>
    obtain ⟨k, rfl, -, -⟩ := h.named v hv
    simpa [hv] using hne

/-- The first write makes the compiled key its own backup, if there is one, and the last write binds the
new key. -/
theorem conclusion_turns (hroot : b.settings.root = w.root) (h : Amid w A t) (hname : Key.IsKeyName w.key)
    (hne : Pointers.bound ⟨w.root, true⟩ t.disk compiled ≠ some (.str w.key)) (j : Judged)
    (lock : Address) :
    ∃ a t' m, (b.pointers.lastWrite (.str w.key)).steps t =
        (b.pointers.firstWrite (.str w.key)).steps t + m ∧
      Trail (fun u => Calm w.root A t.disk u.disk)
        (b.conclusion w j lock (b.pointers.promote (.str w.key))) t
        ((b.pointers.firstWrite (.str w.key)).steps t) a t' ∧
      Turns (fun u => Pointers.bound ⟨w.root, true⟩ t.disk compiled ≠ none ∧
          Shown w.root A (Pointers.bound ⟨w.root, true⟩ t.disk compiled)
            (Pointers.bound ⟨w.root, true⟩ t.disk compiled) u.disk)
        (fun u => Shown w.root A (some (.str w.key))
          ((Pointers.bound ⟨w.root, true⟩ t.disk compiled).or
            (Pointers.bound ⟨w.root, true⟩ t.disk compiledBackup)) u.disk) a t' m := by
  obtain ⟨c, hc⟩ : ∃ c, c = Pointers.bound ⟨w.root, true⟩ t.disk compiled := ⟨_, rfl⟩
  have hp : b.pointers = ⟨w.root, b.settings.links⟩ := by
    rw [← hroot]
    rfl
  rw [← hc] at hne ⊢
  rw [hp]
  obtain ⟨B, hload⟩ := h.sound.load b.settings.links
  obtain ⟨g, hsup, hnot, a, t', m, hsteps, htrail, a', t'', htrail', hend⟩ := promote_turns
    (p := ⟨w.root, b.settings.links⟩) h.stands.ready h.sound.clear hload w.key fun hs =>
      h.sound.not_blocked rfl hs
  have hiff := h.sound.supersedes_iff (p := ⟨w.root, b.settings.links⟩) rfl (hc ▸ hne)
  have hnames : compiled ≠ compiledBackup := by decide
  -- The bindings between the writes.
  have hg : g compiled = c ∧
      g compiledBackup = c.or (Pointers.bound ⟨w.root, true⟩ t.disk compiledBackup) := by
    cases hcase : c with
    | none =>
      have hnone := hc.symm.trans hcase
      rw [hnot fun hs => hiff.1 hs hnone]
      exact ⟨hnone, rfl⟩
    | some v =>
      have hsome := hc.symm.trans hcase
      obtain ⟨k, rfl, -, -⟩ := h.sound.named v hsome
      have hprevious : Pointers.previous ⟨w.root, b.settings.links⟩ t.disk = .str k := by
        unfold previous
        exact congrArg (·.getD .null) hsome
      rw [hsup (hiff.2 (by
        intro hnone
        cases hsome.symm.trans hnone)), hprevious]
      exact ⟨(rebound_of_ne _ hnames.symm _).trans hsome, rebound_str _ _ _⟩
  refine ⟨_, t', m, hsteps, conclusion_trail j lock (htrail.mono ?_), _, t'',
    conclusion_trail j lock (htrail'.mono ?_), (conclusion_always hroot (hend.mono ?_)).mono fun _ hu => hu.2⟩
  · rintro u rfl
    exact h.sound.calm_refl
  · rintro u ⟨hs, hu⟩
    have hsome := hiff.1 hs
    have hamid := h.of_named hu fun v hv => h.sound.named v (hc ▸ hg.1 ▸ hv)
    refine ⟨hc ▸ hsome, hamid.sound, (congrFun hu.bound _).trans hg.1, (congrFun hu.bound _).trans ?_⟩
    obtain ⟨v, hv⟩ := Option.ne_none_iff_exists'.1 hsome
    rw [hg.2, hc, show Pointers.bound ⟨w.root, true⟩ t.disk compiled = some v from hv]
    rfl
  · intro u hu
    have hamid := h.of_named hu fun v hv => by
      rw [rebound_str] at hv
      cases hv
      exact ⟨w.key, rfl, hname, h.stands.dir⟩
    refine ⟨hamid, hamid.sound, (congrFun hu.bound _).trans (rebound_str _ _ _),
      (congrFun hu.bound _).trans ?_⟩
    rw [rebound_of_ne _ hnames, hg.2]

/-! ## The moments of a build -/

/-- Once a build has ended no log is open any more. -/
theorem run_journal (hd : b.Discreet A) (h : Sound b.settings.root A s.disk) (hj : s.journal.file = none)
    (document : Json) : ((b.run document).run s).2.journal.file = none := by
  obtain ⟨r, s₁, hlock, hacq, hlocked⟩ := acquire_standing (h.standing hj)
  have hj₁ : s₁.journal.file = none := by rw [hacq.journal, hj]
  cases r with
  | error f => rw [run_unlocked hlock, hj₁]
  | ok a =>
    obtain ⟨B, hload⟩ := h.load b.settings.links
    rcases BuildDir.allocate_run (b := b.directory) hlocked.ready hlocked.closed hj₁
      ((hlocked.kept h.apart).2.trans hload) with ⟨f, hrun, -⟩ | ⟨key, l, s₂, hrun, hallocated, -, -⟩
    · rw [run_of_attempt hlock (attempt_unallocated hrun document)]
      exact hj₁
    · rcases allocated_run hd (h.standing hj) hlock hlocked h.apart hrun hallocated document with
        ⟨f, -, -, hended⟩ | ⟨r, s₃, s₄, -, -, -, -, -, -, hended⟩
      · rw [hended]
        exact (congrArg Journal.file hallocated.journal).trans hj₁
      · rw [hended]

theorem run_calm (hd : b.Discreet A) (h : Sound b.settings.root A s.disk) (hj : s.journal.file = none)
    {document : Json} {f : Fault} (hrun : (b.approach document).run s = (.error f, t)) (n : Nat) :
    Calm b.settings.root A s.disk ((b.run document).after n s).disk :=
  always_iff.1 ((run_leads hd h hj document).fails f t hrun) n

/-- The moments of a build that has a promotion. -/
structure Promotes (b : Builder) (A : Address) (document : Json) (w : Workspace) (s t : Site) : Prop where
  fresh : s.disk.find? (A ++ [w.key]) = none
  /-- At the promotion the compiled key is the same as at the start. -/
  former : Pointers.bound ⟨b.settings.root, true⟩ t.disk compiled =
    Pointers.bound ⟨b.settings.root, true⟩ s.disk compiled
  ordered : (b.pointers.firstWrite (.str w.key)).steps t ≤ (b.pointers.lastWrite (.str w.key)).steps t
  before : ∀ n, n < (b.approach document).steps s + (b.pointers.firstWrite (.str w.key)).steps t →
    Calm b.settings.root A s.disk ((b.run document).after n s).disk
  between : ∀ n, (b.approach document).steps s + (b.pointers.firstWrite (.str w.key)).steps t ≤ n →
    n < (b.approach document).steps s + (b.pointers.lastWrite (.str w.key)).steps t →
    Shown b.settings.root A (Pointers.bound ⟨b.settings.root, true⟩ s.disk compiled)
      (Pointers.bound ⟨b.settings.root, true⟩ s.disk compiled) ((b.run document).after n s).disk
  behind : ∀ n, (b.approach document).steps s + (b.pointers.lastWrite (.str w.key)).steps t ≤ n →
    Shown b.settings.root A (some (.str w.key))
      ((Pointers.bound ⟨b.settings.root, true⟩ s.disk compiled).or
        (Pointers.bound ⟨b.settings.root, true⟩ s.disk compiledBackup)) ((b.run document).after n s).disk

theorem run_promotes (hd : b.Discreet A) (h : Sound b.settings.root A s.disk)
    (hj : s.journal.file = none) {document : Json} (hrun : (b.approach document).run s = (.ok w, t)) :
    Promotes b A document w s t := by
  obtain ⟨a, htrail, hroot, hname, hfresh, hamid, hcalm, j, lock, rfl⟩ :=
    (run_leads hd h hj document).goes w t hrun
  have hformer := hcalm.bound compiled (by simp)
  have hne : Pointers.bound ⟨w.root, true⟩ t.disk compiled ≠ some (.str w.key) := by
    rw [← hroot, hformer]
    exact h.compiled_ne hfresh
  obtain ⟨a, t', m, hsteps, htrail', a', t'', hbetween, hbehind⟩ :=
    conclusion_turns hroot hamid hname hne j lock
  rw [← hroot] at htrail' hbetween hbehind
  have hbegin := htrail.trans (htrail'.mono fun _ hu => hcalm.trans hu)
  refine ⟨hfresh, hformer, by omega, fun n hn => hbegin.after_lt hn, fun n hn hn' => ?_, fun n hn => ?_⟩
  · obtain ⟨i, rfl⟩ := Nat.exists_eq_add_of_le hn
    rw [hbegin.after_add, ← hformer]
    exact (hbetween.after_lt (by omega)).2
  · obtain ⟨i, rfl⟩ := Nat.exists_eq_add_of_le hn
    rw [hsteps, ← Nat.add_assoc, Nat.add_assoc _ m, hbegin.after_add, hbetween.after_add, ← hformer,
      ← hcalm.bound compiledBackup (by simp)]
    exact always_iff.1 hbehind i

end Builder

end FlowPlan

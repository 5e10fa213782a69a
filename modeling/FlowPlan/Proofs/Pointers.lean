import FlowPlan.Build.Pointers
import FlowPlan.Proofs.Disk.Growth
import FlowPlan.Proofs.Json.Sorted
import FlowPlan.Proofs.Json.Texts
import FlowPlan.Proofs.Site

/-!
# What the pointers say

An update of the pointers replaces their file in one step; only then are the links made. So the new
bindings are there however the links turn out, and the update fails exactly if a link cannot be
made: its target is no name, or a directory is in the way.

## Main definitions

* `Pointers.bound` — what an alias is bound to on disk.
* `Pointers.Shows` — a change of an alias can be shown as a link.

## Main statements

* `Pointers.bindLink_run`, `Pointers.bindLink_keeps` — one link, and its steps.
* `Pointers.update_run` — an update: the bindings that it leaves, what it touches and when it fails.
* `Pointers.promote_run` — the move to a new compiled key.
* `Pointers.keeps_update_of_detached` — an update leaves alone what is not on the disk.
-/

namespace FlowPlan

open Site FlowPlan.Action

/-! ## Directories stay -/

/-- The directories of two disks are the same. -/
def Disk.SameDirs (d d' : Disk) : Prop := ∀ a, d'.find? a = some .dir ↔ d.find? a = some .dir

namespace Disk

variable {d d' d'' : Disk}

theorem SameDirs.refl (d : Disk) : SameDirs d d := fun _ => .rfl

theorem SameDirs.trans (h : SameDirs d d') (h' : SameDirs d' d'') : SameDirs d d'' :=
  fun a => (h' a).trans (h a)

theorem sameDirs_set {a : Address} {e : Entry} (ha : a ≠ []) (hd : d.find? a ≠ some .dir)
    (he : e ≠ .dir) : SameDirs d (d.set a e) := by
  intro b
  rw [find?_set d ha]
  split
  · subst_vars
    simp [he, hd]
  · rfl

theorem sameDirs_erase {a : Address} (ha : a ≠ []) (hd : d.find? a ≠ some .dir) :
    SameDirs d (d.erase a) := by
  intro b
  rw [find?_erase d ha]
  split
  · subst_vars
    simp [hd]
  · rfl

end Disk

theorem Site.Differs.sameDirs {s s' : Site} (h : Differs (fun _ => False) s s') :
    s.disk.SameDirs s'.disk := by
  intro a
  rcases h.kept a (by simp) with h | ⟨-, c, c', hc, hc'⟩
  · rw [h]
  · simp [hc, hc']

/-! ## Links -/

namespace Disk

/-- No directory is in the way of a link of that name, nor of its preparation. -/
def Clear (d : Disk) (A : Address) (n : String) : Prop :=
  d.find? (A ++ [n]) ≠ some .dir ∧ d.find? (A ++ [Path.temporary n]) ≠ some .dir

theorem SameDirs.clear {d d' : Disk} (h : SameDirs d d') (A : Address) (n : String) :
    d'.Clear A n ↔ d.Clear A n := by
  unfold Clear
  exact and_congr (not_congr (h _)) (not_congr (h _))

end Disk

namespace Pointers

/-- A link can be made to the value. -/
def IsTarget : Json → Prop
  | .str t => t ≠ "" ∧ Path.NulFree t
  | _ => False

variable {root : Path} {A : Address} {s : Site} {n : String}

/-- The second half of making a link: it is prepared, and moved to its place. -/
def placeLink (target : Json) (temporary link : Path) : Session Unit :=
  match target with
  | .str t => Session.write (·.makeLink t temporary) >>= fun _ =>
      Session.write (·.moveLink temporary link)
  | v => fail (.misuse (.wrongKind
      s!"symlink: src should be string, bytes or os.PathLike, not {v.kindName}"))

theorem bindLink_eq (target : Json) (link : Path) :
    bindLink target link =
      let temporary := link.withName s!".{link.name}.tmp"
      Session.read (fun d => .ok (d.isLink temporary || d.exists? temporary)) >>= fun present =>
        if present then Session.write (·.unlink temporary) >>= fun _ => placeLink target temporary link
        else placeLink target temporary link := by
  cases target <;> rfl

/-- What the steps of making a link keep: the preparation, the move to its place, and the removal of what
was prepared. -/
theorem bindLink_keeps {I : Site → Prop} (hn : Path.IsName n)
    (hopens : ∀ s, I s → s.disk.Opens root A)
    (hprepare : ∀ s t, I s → s.disk.find? (A ++ [Path.temporary n]) = none →
      I { s with disk := s.disk.set (A ++ [Path.temporary n]) (.link t) })
    (hplace : ∀ s e, I s → s.disk.find? (A ++ [Path.temporary n]) = some e → e ≠ .dir →
      s.disk.find? (A ++ [n]) ≠ some .dir → I { s with disk := s.disk.set (A ++ [n]) e })
    (hremove : ∀ s, I s → s.disk.find? (A ++ [Path.temporary n]) ≠ some .dir →
      I { s with disk := s.disk.erase (A ++ [Path.temporary n]) }) (v : Json) :
    Action.Keeps I (bindLink v (root.child n)) := by
  have hm : Path.IsName (Path.temporary n) := Path.isName_temporary hn.2.2.2
  have hname : (root.child n).withName s!".{(root.child n).name}.tmp" =
      root.child (Path.temporary n) := by
    rw [Path.name_child root hn]
    exact Path.withName_child root hn hm
  have hsecond : Action.Keeps I (placeLink v (root.child (Path.temporary n)) (root.child n)) := by
    cases v with
    | str t =>
      refine (Session.keeps_write fun s d hs hd => ?_).bind fun _ => Session.keeps_write fun s d hs hd => ?_
      · obtain ⟨hnone, rfl⟩ := (hopens s hs).of_makeLink hm hd
        exact hprepare s t hs hnone
      · obtain ⟨e, he, hne, hdir, rfl⟩ := (hopens s hs).of_moveLink hm hn hd
        refine hremove _ (hplace s e hs he hne hdir) ?_
        rw [Disk.find?_set_child, if_neg (by simpa using Ne.symm (Path.temporary_ne n)), he]
        simpa using hne
    | _ => exact keeps_fail _
  simp only [bindLink_eq, hname]
  refine (Session.keeps_read _).bind fun _ => keeps_ite (fun _ => ?_) fun _ => hsecond
  refine (Session.keeps_write fun s d hs hd => ?_).bind fun _ => hsecond
  obtain ⟨hdir, rfl⟩ := (hopens s hs).of_unlink hm hd
  exact hremove s hs hdir

/-- A link is placed exactly if its target is a name and no directory is in its place. -/
theorem placeLink_run (hr : Disk.Rooted Disk.maxLinks s.disk root A) (hn : Path.IsName n) (hnul : Path.NulFree n)
    (hnone : s.disk.find? (A ++ [Path.temporary n]) = none) (v : Json) :
    ∃ r s', (placeLink v (root.child (Path.temporary n)) (root.child n)).run s = (r, s') ∧
      Differs (fun a => a = A ++ [n] ∨ a = A ++ [Path.temporary n]) s s' ∧
      s.disk.SameDirs s'.disk ∧
      (r = .ok () ↔ IsTarget v ∧ s.disk.find? (A ++ [n]) ≠ some .dir) ∧
      (∀ t, r = .ok () → v = .str t → s'.disk.find? (A ++ [n]) = some (.link t)) := by
  have hm : Path.IsName (Path.temporary n) := Path.isName_temporary hn.2.2.2
  have hmnul : Path.NulFree (Path.temporary n) := Path.nulFree_temporary hnul
  cases v with
  | str t =>
    by_cases ht : t ≠ "" ∧ Path.NulFree t
    · have hmake := hr.makeLink hm hmnul hnone ht.1 ht.2
      have hset := differs_set s (a := A ++ [Path.temporary n]) (by simp) (.link t)
      have hdirs := Disk.sameDirs_set (d := s.disk) (a := A ++ [Path.temporary n]) (e := .link t)
        (by simp) (by simp [hnone]) (by simp)
      have hne : A ++ [Path.temporary n] ≠ A ++ [n] := by
        simpa using Path.temporary_ne n
      have hr' := hr.of_keepsWays (Disk.keepsWays_set s.disk (.link t)
        (Disk.below_child A (Path.temporary n)))
      have hmove := hr'.moveLink hm hmnul hn hnul (t := t) (by simp [Disk.find?_set_child])
      simp only [Disk.find?_set_child, if_neg hne] at hmove
      unfold placeLink
      rw [run_bind_ok (Session.run_write_ok hmake)]
      by_cases hdir : s.disk.find? (A ++ [n]) = some .dir
      · rw [if_pos hdir] at hmove
        exact ⟨_, _, Session.run_write_error hmove, hset.mono fun a ha => .inr ha, hdirs,
          by simp [hdir], by simp⟩
      · rw [if_neg hdir] at hmove
        refine ⟨_, _, Session.run_write_ok hmove, ?_, ?_, ?_, ?_⟩
        · refine (hset.mono fun a ha => .inr ha).trans ?_
          refine differs_disk rfl fun a ha => ?_
          rw [not_or] at ha
          rw [Disk.find?_erase_child, if_neg (Ne.symm ha.2), Disk.find?_set_child,
            if_neg (Ne.symm ha.1)]
        · refine (hdirs.trans (Disk.sameDirs_set (by simp) ?_ (by simp))).trans
            (Disk.sameDirs_erase (by simp) ?_)
          · simpa [Disk.find?_set_child, hne] using hdir
          · simp [Disk.find?_set_child, Ne.symm hne]
        · simp [IsTarget, ht, hdir]
        · rintro t' - ⟨⟩
          simp [Disk.find?_erase_child, Disk.find?_set_child, hne]
    · obtain ⟨f, hf⟩ := Disk.makeLink_error (d := s.disk) (p := root) (n := Path.temporary n) ht
      refine ⟨_, _, run_bind_error (Session.run_write_error hf), .refl _ s, .refl _, ?_, by simp⟩
      simp [IsTarget, ht]
  | _ => exact ⟨_, _, rfl, .refl _ s, .refl _, by simp [IsTarget], by simp⟩

/-- A link is made exactly if its target is a name and no directory is in the way. -/
theorem bindLink_run (hr : Disk.Rooted Disk.maxLinks s.disk root A) (hn : Path.IsName n)
    (hnul : Path.NulFree n) (v : Json) :
    ∃ r s', (bindLink v (root.child n)).run s = (r, s') ∧
      Differs (fun a => a = A ++ [n] ∨ a = A ++ [Path.temporary n]) s s' ∧
      s.disk.SameDirs s'.disk ∧
      (r = .ok () ↔ IsTarget v ∧ s.disk.Clear A n) ∧
      (∀ t, r = .ok () → v = .str t → s'.disk.find? (A ++ [n]) = some (.link t)) := by
  have hm : Path.IsName (Path.temporary n) := Path.isName_temporary hn.2.2.2
  have hmnul : Path.NulFree (Path.temporary n) := Path.nulFree_temporary hnul
  have hname : (root.child n).withName s!".{(root.child n).name}.tmp" =
      root.child (Path.temporary n) := by
    rw [Path.name_child root hn]
    exact Path.withName_child root hn hm
  simp only [bindLink_eq, hname]
  rw [Session.run_read_total, hr.present_child hm]
  cases he : s.disk.find? (A ++ [Path.temporary n]) with
  | none =>
    obtain ⟨r, s', hrun, hdiff, hdirs, hok, hlink⟩ := placeLink_run hr hn hnul he v
    exact ⟨r, s', hrun, hdiff, hdirs, by simp [hok, Disk.Clear, he], hlink⟩
  | some e =>
    have hunlink := hr.unlink hm hmnul he
    by_cases hdir : e = .dir
    · rw [if_pos hdir] at hunlink
      refine ⟨_, s, run_bind_error (Session.run_write_error hunlink), .refl _ s, .refl _, ?_, by simp⟩
      simp [Disk.Clear, he, hdir]
    · rw [if_neg hdir] at hunlink
      have hdirs₁ : s.disk.SameDirs (s.disk.erase (A ++ [Path.temporary n])) :=
        Disk.sameDirs_erase (by simp) (by simpa [he] using hdir)
      have hdiff₁ := differs_erase s (a := A ++ [Path.temporary n]) (by simp)
      have hr₁ := hr.of_keepsWays (Disk.keepsWays_erase s.disk
        (Disk.below_child A (Path.temporary n)))
      obtain ⟨r, s', hrun, hdiff, hdirs, hok, hlink⟩ :=
        placeLink_run (s := { s with disk := s.disk.erase (A ++ [Path.temporary n]) }) hr₁ hn hnul
          (by simp [Disk.find?_erase_child]) v
      refine ⟨r, s', ?_, (hdiff₁.mono fun a ha => .inr ha).trans hdiff, hdirs₁.trans hdirs, ?_, hlink⟩
      · rw [Option.isSome_some, if_pos rfl,
          run_bind_ok (Session.run_write_ok (f := (·.unlink (root.child (Path.temporary n)))) hunlink),
          hrun]
      · exact hok.trans (and_congr_right fun _ => (not_congr (hdirs₁ _)).trans
          (by simp [Disk.Clear, he, hdir]))

/-- Where nothing has been prepared, a link changes nothing but its place. -/
theorem bindLink_new {t : String}
    (hr : Disk.Rooted Disk.maxLinks s.disk root A) (hn : Path.IsName n) (hnul : Path.NulFree n)
    (ht : t ≠ "" ∧ Path.NulFree t) (hdir : s.disk.find? (A ++ [n]) ≠ some .dir)
    (hnone : s.disk.find? (A ++ [Path.temporary n]) = none) :
    ∃ s', (bindLink (.str t) (root.child n)).run s = (.ok (), s') ∧ Differs (· = A ++ [n]) s s' ∧
      s.disk.SameDirs s'.disk ∧ s'.disk.find? (A ++ [n]) = some (.link t) := by
  have hm : Path.IsName (Path.temporary n) := Path.isName_temporary hn.2.2.2
  have hmnul : Path.NulFree (Path.temporary n) := Path.nulFree_temporary hnul
  have hne : A ++ [Path.temporary n] ≠ A ++ [n] := by simpa using Path.temporary_ne n
  have hname : (root.child n).withName s!".{(root.child n).name}.tmp" =
      root.child (Path.temporary n) := by
    rw [Path.name_child root hn]
    exact Path.withName_child root hn hm
  obtain ⟨d₁, hd₁⟩ : ∃ d, d = s.disk.set (A ++ [Path.temporary n]) (.link t) := ⟨_, rfl⟩
  have hmake : s.disk.makeLink t (root.child (Path.temporary n)) = .ok d₁ :=
    hd₁ ▸ hr.makeLink hm hmnul hnone ht.1 ht.2
  have hr₁ : Disk.Rooted Disk.maxLinks d₁ root A :=
    hr.of_keepsWays (hd₁ ▸ Disk.keepsWays_set _ _ (Disk.below_child A _))
  have hmove := hr₁.moveLink hm hmnul hn hnul (t := t) (by simp [hd₁, Disk.find?_set_child])
  rw [if_neg (by rw [hd₁, Disk.find?_set_child, if_neg hne]; exact hdir)] at hmove
  obtain ⟨d₂, hd₂⟩ : ∃ d, d = (d₁.set (A ++ [n]) (.link t)).erase (A ++ [Path.temporary n]) := ⟨_, rfl⟩
  rw [← hd₂] at hmove
  -- The preparation is gone again.
  have hfind : ∀ a, d₂.find? a = if a = A ++ [n] then some (.link t) else s.disk.find? a := by
    intro a
    rw [hd₂, Disk.find?_erase_child, Disk.find?_set_child, hd₁, Disk.find?_set_child]
    by_cases htemporary : A ++ [Path.temporary n] = a
    · rw [if_pos htemporary, ← htemporary, if_neg hne, hnone]
    · simp [htemporary, eq_comm]
  refine ⟨{ s with disk := d₂ }, ?_, differs_disk (hd₂ ▸ hd₁ ▸ rfl) fun a ha => ?_, fun a => ?_, ?_⟩
  · simp only [bindLink_eq, hname]
    rw [Session.run_read_total, hr.present_child hm, hnone, Option.isSome_none, if_neg (by simp)]
    exact (run_bind_ok (Session.run_write_ok (f := (·.makeLink t _)) hmake)).trans
      (Session.run_write_ok (s := { s with disk := d₁ }) hmove)
  · rw [hfind, if_neg ha]
  · rw [hfind]
    split
    · rename_i ha
      simp [ha, hdir]
    · rfl
  · rw [hfind, if_pos rfl]

/-! ## Bindings -/

/-- The name of the pointers' file. -/
def storeName : String := "pointers.json"

theorem isName_storeName : Path.IsName storeName ∧ Path.NulFree storeName := by decide

theorem path_eq (p : Pointers) : p.path = p.root.child storeName := rfl

theorem isName_of_alias : ∀ n ∈ aliases, Path.IsName n ∧ Path.NulFree n := by decide

theorem ne_storeName_of_alias : ∀ n ∈ aliases, n ≠ storeName ∧ Path.temporary n ≠ storeName := by
  decide

/-- What an alias is bound to on disk, whatever the order of the parts. -/
def bound (p : Pointers) (d : Disk) (name : String) : Option Json :=
  match p.load d with
  | .ok bindings => (Assoc.find? bindings name).map Json.sortKeys
  | .error _ => none

/-- The bindings after one change. -/
def rebound (f : String → Option Json) (change : String × Json) (name : String) : Option Json :=
  if change.1 = name then change.2.toOption.map Json.sortKeys else f name

theorem rebound_of_ne (f : String → Option Json) {m n : String} (h : m ≠ n) (v : Json) :
    rebound f (m, v) n = f n := if_neg h

theorem rebound_text (f : String → Option Json) (m k n : String) :
    rebound f (m, .str k) n = if m = n then some (.str k) else f n := rfl

theorem rebound_absent (f : String → Option Json) (m n : String) :
    rebound f (m, .null) n = if m = n then none else f n := rfl

theorem rebound_str (f : String → Option Json) (n k : String) :
    rebound f (n, .str k) n = some (.str k) := if_pos rfl

theorem rebound_null (f : String → Option Json) (n : String) : rebound f (n, .null) n = none :=
  if_pos rfl

variable {p : Pointers} {d : Disk}

theorem load_of_absent (h : Disk.Rooted Disk.maxLinks d p.root A)
    (hf : d.find? (A ++ [storeName]) = none) : p.load d = .ok [] := by
  unfold load
  rw [path_eq, h.exists?_child isName_storeName.1 (by simp [hf]), hf]
  rfl

theorem load_of_file (h : Disk.Rooted Disk.maxLinks d p.root A) {fs : Fields}
    (hf : d.find? (A ++ [storeName]) = some (.file (.json (.obj fs)))) :
    p.load d = .ok (fs.filter (aliases.contains ·.1)) := by
  unfold load
  rw [path_eq, h.exists?_child isName_storeName.1 (by simp [hf]),
    h.readJson isName_storeName.1 isName_storeName.2 hf, hf]
  rfl

/-- A text that is no value is no pointer file. -/
theorem load_of_text {T : Address} {text : String} (hclean : p.path.Clean)
    (hl : d.locate p.path = .ok T) (hT : d.find? T = some (.file (.text text)))
    (hparse : Json.parse? text.toList = none) : ∃ f, p.load d = .error f := by
  have hread : d.readJson p.path = .error .malformed := by
    unfold Disk.readJson Disk.readContent
    rw [Disk.address_of_clean hclean hl]
    simp [bind, Except.bind, hT, Disk.Content.toJson, hparse, pure, Except.pure]
  have hexists : d.exists? p.path = true := by
    unfold Disk.exists? Disk.lookup?
    rw [hl]
    simp [hT]
  unfold load
  rw [hexists, hread]
  exact ⟨_, rfl⟩

theorem bound_of_missing {T : Address} (hl : d.locate p.path = .ok T)
    (hT : d.find? T = none) (n : String) : p.bound d n = none := by
  have hexists : d.exists? p.path = false := by
    unfold Disk.exists? Disk.lookup?
    rw [hl]
    simp [hT]
  unfold bound load
  rw [hexists]
  rfl

theorem bound_of_load_error {f : Fault} (h : p.load d = .error f)
    (n : String) : p.bound d n = none := by
  unfold bound
  rw [h]

/-- The bindings are those that the file at the end of the path holds. -/
theorem load_congr {d' : Disk} {T : Address} (hl : d.locate p.path = .ok T)
    (hl' : d'.locate p.path = .ok T) (hT : d'.find? T = d.find? T) : p.load d' = p.load d := by
  have haddress : d'.address p.path = d.address p.path := by
    unfold Disk.address
    rw [hl, hl']
  have hread : d'.readJson p.path = d.readJson p.path := by
    unfold Disk.readJson Disk.readContent
    rw [haddress]
    cases h : d.address p.path with
    | error f => rfl
    | ok a =>
      have := Disk.of_address h
      rw [hl] at this
      cases this
      simp only [bind, Except.bind, hT]
  have hexists : d'.exists? p.path = d.exists? p.path := by
    unfold Disk.exists? Disk.lookup?
    rw [hl, hl']
    simp only [hT]
  unfold load
  rw [hexists, hread]

/-- What cannot be read is no pointer file. -/
theorem not_dir_of_load (h : Disk.Rooted Disk.maxLinks d p.root A) {B : Bindings}
    (hload : p.load d = .ok B) : d.find? (A ++ [storeName]) ≠ some .dir := by
  intro hdir
  unfold load at hload
  rw [path_eq, h.exists?_child isName_storeName.1 (by simp [hdir]), hdir] at hload
  have hread : d.readJson (p.root.child storeName) =
      Disk.refuse .isDirectory (p.root.child storeName) := by
    unfold Disk.readJson Disk.readContent
    rw [h.address_child isName_storeName.1 isName_storeName.2 (by simp [hdir])]
    simp [bind, Except.bind, hdir, Disk.refuse]
  rw [hread] at hload
  cases hload

theorem bound_of_load {B : Bindings} (h : p.load d = .ok B) (n : String) :
    p.bound d n = (Assoc.find? B n).map Json.sortKeys := by
  unfold bound
  rw [h]

theorem alias_of_load {B : Bindings} (h : p.load d = .ok B) {n : String} (hn : n ∉ aliases) :
    Assoc.find? B n = none := by
  have hfilter : ∀ fs : Fields, Assoc.find? (fs.filter (aliases.contains ·.1)) n = none := by
    intro fs
    rw [Assoc.find?_filter_key fs (aliases.contains ·)]
    simp [hn]
  unfold load at h
  split at h
  · cases h; rfl
  · split at h
    · rename_i v hv
      cases v <;> cases h
      exact hfilter _
    · split at h <;> cases h

theorem find?_rebind (B : Bindings) (change : String × Json) (n : String) :
    Assoc.find? (rebind B change) n =
      if change.1 = n then change.2.toOption else Assoc.find? B n := by
  obtain ⟨name, v⟩ := change
  cases v <;> simp [rebind, Assoc.find?_erase, Assoc.find?_set, Json.toOption]

theorem find?_foldl_rebind (B : Bindings) (changes : Bindings) (n : String) :
    (Assoc.find? (changes.foldl rebind B) n).map Json.sortKeys =
      changes.foldl rebound (fun m => (Assoc.find? B m).map Json.sortKeys) n := by
  induction changes generalizing B with
  | nil => rfl
  | cons change changes ih =>
    have hstep : (fun m => (Assoc.find? (rebind B change) m).map Json.sortKeys) =
        rebound (fun m => (Assoc.find? B m).map Json.sortKeys) change := by
      funext m
      rw [find?_rebind, rebound]
      split <;> rfl
    rw [List.foldl_cons, List.foldl_cons, ih, hstep]

theorem rebound_of_not_alias {f : String → Option Json} {changes : Bindings} {n : String}
    (hal : ∀ c ∈ changes, c.1 ∈ aliases) (hn : n ∉ aliases) : changes.foldl rebound f n = f n := by
  induction changes generalizing f with
  | nil => rfl
  | cons change changes ih =>
    rw [List.foldl_cons, ih fun c hc => hal c (List.mem_cons_of_mem change hc), rebound, if_neg]
    rintro rfl
    exact hn (hal change List.mem_cons_self)

/-! ## Updates -/

/-- The change of an alias can be shown: it is a removal, or a link can be made. -/
def Shows (d : Disk) (A : Address) (change : String × Json) : Prop :=
  change.2 = .null ∨ IsTarget change.2 ∧ d.Clear A change.1

/-- The links are shown, and this change cannot be. -/
def Blocked (p : Pointers) (d : Disk) (A : Address) (change : String × Json) : Prop :=
  p.links = true ∧ ¬ Shows d A change

theorem blocked_congr {d' : Disk} (h : d.SameDirs d') (change : String × Json) :
    p.Blocked d' A change ↔ p.Blocked d A change := by
  unfold Blocked Shows
  rw [h.clear]

/-- Only a directory is in the way of a link to a name. -/
theorem blocked_name {key : String} (h : Path.IsName key ∧ Path.NulFree key) (n : String) :
    p.Blocked d A (n, .str key) ↔ p.links = true ∧ ¬ d.Clear A n := by
  have htarget : IsTarget (.str key) := ⟨h.1.1, h.2⟩
  simp [Blocked, Shows, htarget]

/-- The addresses of some aliases: their links, and where these are prepared. -/
def IsLinkOf (A : Address) (names : List String) (a : Address) : Prop :=
  ∃ n ∈ names, a = A ++ [n] ∨ a = A ++ [Path.temporary n]

/-- What an update of the pointers does, ending with `r` at `s'`. -/
structure Updated (p : Pointers) (A : Address) (changes : Bindings) {α : Type} (s : Site)
    (r : Except Fault α) (s' : Site) : Prop where
  differs : Differs (fun a => a = A ++ [storeName] ∨ IsLinkOf A (changes.map (·.1)) a) s s'
  sameDirs : s.disk.SameDirs s'.disk
  stored : ∃ fs, s'.disk.find? (A ++ [storeName]) = some (.file (.json (.obj fs)))
  bound : p.bound s'.disk = changes.foldl rebound (p.bound s.disk)
  ok : (∃ x, r = .ok x) ↔ ∀ c ∈ changes, ¬ p.Blocked s.disk A c

theorem updateLink_of_ne_null (p : Pointers) (name : String) {v : Json} (hv : v ≠ .null) :
    p.updateLink (name, v) = bindLink v (p.root.child name) := by
  cases v <;> first | exact absurd rfl hv | rfl

theorem updateLink_run (hs : Ready p.root A s) {change : String × Json} (hc : change.1 ∈ aliases) :
    ∃ r s', (p.updateLink change).run s = (r, s') ∧
      Differs (IsLinkOf A [change.1]) s s' ∧ s.disk.SameDirs s'.disk ∧
      (r = .ok () ↔ Shows s.disk A change) := by
  obtain ⟨name, v⟩ := change
  obtain ⟨hn, hnul⟩ := isName_of_alias name hc
  have hmono : ∀ a, a = A ++ [name] ∨ a = A ++ [Path.temporary name] → IsLinkOf A [name] a :=
    fun a ha => ⟨name, List.mem_singleton_self name, ha⟩
  by_cases hv : v = .null
  · subst hv
    unfold updateLink
    dsimp only
    rw [Session.run_read_total]
    by_cases hlink : ∃ t, s.disk.find? (A ++ [name]) = some (.link t)
    · obtain ⟨t, ht⟩ := hlink
      rw [(hs.rooted.isLink_child hn).2 ⟨t, ht⟩, if_pos rfl]
      have hunlink := hs.rooted.unlink hn hnul ht
      rw [if_neg (by simp)] at hunlink
      exact ⟨_, _, Session.run_write_ok hunlink,
        (differs_erase s (by simp)).mono fun a ha => hmono a (.inl ha),
        Disk.sameDirs_erase (by simp) (by simp [ht]), by simp [Shows]⟩
    · rw [if_neg (mt (hs.rooted.isLink_child hn).1 hlink)]
      exact ⟨_, _, rfl, .refl _ s, .refl _, by simp [Shows]⟩
  · obtain ⟨r, s', hrun, hdiff, hdirs, hok, -⟩ := bindLink_run hs.rooted hn hnul v
    exact ⟨r, s', by rw [updateLink_of_ne_null p name hv, hrun], hdiff.mono hmono, hdirs, by simp [hok, Shows, hv]⟩

theorem isLinkOf_below {names : List String} {a : Address} (h : IsLinkOf A names a) :
    Address.Below A a := by
  obtain ⟨n, -, rfl | rfl⟩ := h <;> exact Disk.below_child A _

theorem updateLinks_run (hs : Ready p.root A s) {changes : Bindings}
    (hal : ∀ c ∈ changes, c.1 ∈ aliases) :
    ∃ r s', (changes.forM p.updateLink).run s = (r, s') ∧
      Differs (IsLinkOf A (changes.map (·.1))) s s' ∧ s.disk.SameDirs s'.disk ∧
      (r = .ok () ↔ ∀ c ∈ changes, Shows s.disk A c) := by
  induction changes generalizing s with
  | nil => exact ⟨_, _, rfl, .refl _ s, .refl _, by simp⟩
  | cons change changes ih =>
    obtain ⟨r₁, s₁, hrun₁, hdiff₁, hdirs₁, hok₁⟩ := updateLink_run hs (hal _ List.mem_cons_self)
    have hmono₁ : ∀ a, IsLinkOf A [change.1] a → IsLinkOf A ((change :: changes).map (·.1)) a := by
      rintro a ⟨n, hn, ha⟩
      exact ⟨n, by simp_all, ha⟩
    rw [forM_cons]
    cases r₁ with
    | error e =>
      refine ⟨_, _, run_bind_error hrun₁, hdiff₁.mono hmono₁, hdirs₁, ?_⟩
      simp only [List.forall_mem_cons, reduceCtorEq, false_iff] at hok₁ ⊢
      exact fun h => hok₁ h.1
    | ok u =>
      obtain ⟨r₂, s₂, hrun₂, hdiff₂, hdirs₂, hok₂⟩ :=
        ih (hdiff₁.ready hs fun a => isLinkOf_below) fun c hc => hal c (List.mem_cons_of_mem _ hc)
      refine ⟨r₂, s₂, (run_bind_ok hrun₁).trans hrun₂, (hdiff₁.mono hmono₁).trans (hdiff₂.mono ?_),
        hdirs₁.trans hdirs₂, ?_⟩
      · rintro a ⟨n, hn, ha⟩
        exact ⟨n, List.mem_cons_of_mem _ hn, ha⟩
      · simp only [true_iff] at hok₁
        rw [hok₂, List.forall_mem_cons, and_iff_right hok₁]
        unfold Shows
        simp only [hdirs₁.clear]

theorem checkAliases_run {changes : Bindings} (hal : ∀ c ∈ changes, c.1 ∈ aliases) (s : Site) :
    (changes.forM fun change => (Action.lift (checkAlias change.1) : Session Unit)).run s =
      (.ok (), s) := by
  induction changes with
  | nil => rfl
  | cons change changes ih =>
    have hcheck : checkAlias change.1 = .ok () := by
      simp [checkAlias, hal change List.mem_cons_self]
    rw [forM_cons, hcheck, Action.lift_ok_bind]
    exact ih fun c hc => hal c (List.mem_cons_of_mem _ hc)

theorem not_isLinkOf_storeName {names : List String} (h : ∀ n ∈ names, n ∈ aliases) :
    ¬ IsLinkOf A names (A ++ [storeName]) := by
  rintro ⟨n, hn, ha | ha⟩
  · exact (ne_storeName_of_alias n (h n hn)).1 (by simpa using ha.symm)
  · exact (ne_storeName_of_alias n (h n hn)).2 (by simpa using ha.symm)

theorem load_isOk_of_stored (h : Disk.Rooted Disk.maxLinks d p.root A)
    (hstored : ∃ fs, d.find? (A ++ [storeName]) = some (.file (.json (.obj fs)))) :
    ∃ B, p.load d = .ok B := by
  obtain ⟨fs, hf⟩ := hstored
  exact ⟨_, load_of_file h hf⟩

theorem bound_of_stored (h : Disk.Rooted Disk.maxLinks d p.root A) {B : Bindings}
    (hf : d.find? (A ++ [storeName]) = some (.file (.json (Json.obj B).sortKeys))) (n : String) :
    p.bound d n = if n ∈ aliases then (Assoc.find? B n).map Json.sortKeys else none := by
  rw [Json.sortKeys] at hf
  rw [bound_of_load (load_of_file h hf), Assoc.find?_filter_key _ (aliases.contains ·),
    Json.find?_sortKeysFields]
  by_cases hn : n ∈ aliases
  · simp [hn, Function.comp_def, Json.sortKeys_sortKeys]
  · simp [hn]

/-- The file of the pointers is written in one step. -/
theorem store_run (hs : Ready p.root A s) {B : Bindings} (hload : p.load s.disk = .ok B)
    {changes : Bindings} (hal : ∀ c ∈ changes, c.1 ∈ aliases) :
    ∃ s', (Session.write (·.writeJson p.path (.obj (changes.foldl rebind B)))).run s = (.ok (), s') ∧
      Differs (· = A ++ [storeName]) s s' ∧ s.disk.SameDirs s'.disk ∧
      ∃ fs, s'.disk.find? (A ++ [storeName]) = some (.file (.json (.obj fs))) ∧
        ∀ d, Disk.Rooted Disk.maxLinks d p.root A →
          d.find? (A ++ [storeName]) = some (.file (.json (.obj fs))) →
          p.bound d = changes.foldl rebound (p.bound s.disk) := by
  have hnodir := not_dir_of_load hs.rooted hload
  have hwrite := hs.rooted.writeJson isName_storeName.1 isName_storeName.2 hnodir
    (.obj (changes.foldl rebind B))
  refine ⟨_, Session.run_write_ok hwrite, differs_set s (by simp) _,
    Disk.sameDirs_set (by simp) hnodir (by simp), _,
    by rw [Disk.find?_set_child, if_pos rfl, Json.sortKeys], fun d hd hf => ?_⟩
  have hbefore : p.bound s.disk = fun n => (Assoc.find? B n).map Json.sortKeys :=
    funext fun n => bound_of_load hload n
  funext n
  rw [bound_of_stored hd (by rw [hf, Json.sortKeys]), hbefore]
  by_cases hn : n ∈ aliases
  · rw [if_pos hn, find?_foldl_rebind]
  · rw [if_neg hn, rebound_of_not_alias hal hn, alias_of_load hload hn]
    rfl

/-- An update rebinds its aliases. It fails only if a link cannot be made, and then the aliases are
rebound nevertheless. -/
theorem update_run (hs : Ready p.root A s) {B : Bindings} (hload : p.load s.disk = .ok B)
    (changes : Bindings) (hal : ∀ c ∈ changes, c.1 ∈ aliases) :
    ∃ r s', (p.update changes).run s = (r, s') ∧ Updated p A changes s r s' := by
  obtain ⟨s₁, hstore, hdiff₁, hdirs₁, fs, hf, hbound⟩ := store_run hs hload hal
  have hs₁ : Ready p.root A s₁ := hdiff₁.ready hs (by rintro a rfl; exact Disk.below_child A _)
  have hnames : ∀ n ∈ changes.map (·.1), n ∈ aliases := by
    intro n hn
    obtain ⟨c, hc, rfl⟩ := List.mem_map.1 hn
    exact hal c hc
  -- What follows the file touches only the links, so the file says what it says now.
  have updated : ∀ {r : Except Fault Bindings} {s'},
      Differs (IsLinkOf A (changes.map (·.1))) s₁ s' → s₁.disk.SameDirs s'.disk →
      ((∃ B, r = .ok B) ↔ ∀ c ∈ changes, ¬ p.Blocked s.disk A c) →
      Updated p A changes s r s' := by
    intro r s' hdiff hdirs hok
    have hf' : s'.disk.find? (A ++ [storeName]) = some (.file (.json (.obj fs))) := by
      rw [hdiff.find? (not_isLinkOf_storeName hnames) (hs₁.not_isLog_child _), hf]
    exact ⟨(hdiff₁.mono fun a ha => .inl ha).trans (hdiff.mono fun a ha => .inr ha),
      hdirs₁.trans hdirs, ⟨fs, hf'⟩,
      hbound _ (hdiff.ready hs₁ fun a => isLinkOf_below).rooted hf', hok⟩
  have hstart : (p.update changes).run s =
      (do
        if p.links then changes.forM p.updateLink
        Session.debug logger "Pointers updated" (some "pointers_updated") (some (.obj changes))
        return changes.foldl rebind B : Session Bindings).run s₁ := by
    unfold update
    rw [run_bind_ok (checkAliases_run hal s), Pointers.read, Session.run_read_ok hload,
      run_bind_ok (Session.makeDirs_run hs.rooted), run_bind_ok hstore]
  rw [hstart]
  cases hlinks : p.links with
  | false =>
    obtain ⟨s₂, hrun, hdiff₂⟩ := Session.debug_run logger "Pointers updated" (some "pointers_updated")
      (some (.obj changes)) s₁
    exact ⟨_, _, run_bind_ok hrun, updated (hdiff₂.mono fun a ha => ha.elim) hdiff₂.sameDirs
      (by simp [Blocked, hlinks])⟩
  | true =>
    obtain ⟨r, s₂, hrun, hdiff₂, hdirs₂, hok⟩ := updateLinks_run hs₁ hal
    have hshows : (∀ c ∈ changes, Shows s₁.disk A c) ↔ ∀ c ∈ changes, Shows s.disk A c := by
      unfold Shows
      simp only [hdirs₁.clear]
    rw [hshows] at hok
    rw [if_pos rfl]
    cases r with
    | error e =>
      exact ⟨_, _, run_bind_error hrun, updated hdiff₂ hdirs₂
        (by simpa [Blocked, hlinks] using hok)⟩
    | ok u =>
      obtain ⟨s₃, hrun₃, hdiff₃⟩ := Session.debug_run logger "Pointers updated"
        (some "pointers_updated") (some (.obj changes)) s₂
      refine ⟨_, _, (run_bind_ok hrun).trans (run_bind_ok hrun₃),
        updated (hdiff₂.trans (hdiff₃.mono fun a ha => ha.elim)) (hdirs₂.trans hdiff₃.sameDirs) ?_⟩
      · simpa [Blocked, hlinks] using hok

/-! ## One alias -/

theorem set_run (hs : Ready p.root A s) {B : Bindings} (hload : p.load s.disk = .ok B) (name : String)
    (hname : name ∈ aliases) (v : Json) :
    ∃ r s', (p.set name v).run s = (r, s') ∧ Updated p A [(name, v)] s r s' := by
  obtain ⟨r, s', hrun, hup⟩ := update_run hs hload [(name, v)] (by simpa using hname)
  unfold set
  rw [discard_eq]
  cases r with
  | ok x => exact ⟨_, _, run_bind_ok hrun, hup.differs, hup.sameDirs, hup.stored, hup.bound,
      by simpa using hup.ok⟩
  | error e => exact ⟨_, _, run_bind_error hrun, hup.differs, hup.sameDirs, hup.stored, hup.bound,
      by simpa using hup.ok⟩

theorem get_run {B : Bindings} (hload : p.load s.disk = .ok B) {name : String}
    (hname : name ∈ aliases) :
    (p.get name).run s = (.ok ((Assoc.find? B name).getD .null), s) := by
  have hcheck : checkAlias name = .ok () := by simp [checkAlias, hname]
  unfold get
  rw [hcheck, Action.lift_ok_bind, Pointers.read, Session.run_read_ok hload]
  rfl

theorem sortKeys_eq_str {v : Json} {k : String} : v.sortKeys = .str k ↔ v = .str k := by
  cases v <;> simp [Json.sortKeys]

theorem sortKeys_eq_null {v : Json} : v.sortKeys = .null ↔ v = .null := by
  cases v <;> simp [Json.sortKeys]

theorem isTarget_sortKeys {v : Json} : IsTarget v.sortKeys ↔ IsTarget v := by
  cases v <;> simp [Json.sortKeys, IsTarget]

theorem rebound_sortKeys (f : String → Option Json) (name : String) (v : Json) :
    rebound f (name, v.sortKeys) = rebound f (name, v) := by
  funext n
  by_cases hv : v = .null
  · rw [hv]
    rfl
  · simp [rebound, Json.toOption_of_ne_null hv, Json.toOption_of_ne_null (mt sortKeys_eq_null.1 hv),
      Json.sortKeys_sortKeys]

theorem blocked_sortKeys (name : String) (v : Json) :
    p.Blocked d A (name, v.sortKeys) ↔ p.Blocked d A (name, v) := by
  simp [Blocked, Shows, sortKeys_eq_null, isTarget_sortKeys]

theorem bound_eq_str {B : Bindings} (hload : p.load d = .ok B) {name k : String} :
    p.bound d name = some (.str k) ↔ (Assoc.find? B name).getD .null = .str k := by
  rw [bound_of_load hload]
  cases Assoc.find? B name <;> simp [sortKeys_eq_str]

/-- A conditional removal never fails. -/
theorem removeIf_run (hs : Ready p.root A s)
    (hstored : ∃ fs, s.disk.find? (A ++ [storeName]) = some (.file (.json (.obj fs))))
    (name : String) (hname : name ∈ aliases) (k : String) :
    ∃ b s', (p.removeIf name (.str k)).run s = (.ok b, s') ∧
      Differs (fun a => a = A ++ [storeName] ∨ IsLinkOf A [name] a) s s' ∧
      s.disk.SameDirs s'.disk ∧
      (∃ fs, s'.disk.find? (A ++ [storeName]) = some (.file (.json (.obj fs)))) ∧
      (p.bound s.disk name = some (.str k) → p.bound s'.disk = rebound (p.bound s.disk) (name, .null)) ∧
      (p.bound s.disk name ≠ some (.str k) → p.bound s'.disk = p.bound s.disk) := by
  obtain ⟨B, hload⟩ := load_isOk_of_stored hs.rooted hstored
  unfold removeIf
  rw [run_bind_ok (get_run hload hname)]
  by_cases hk : p.bound s.disk name = some (.str k)
  · rw [if_pos (Json.same_str.2 ((bound_eq_str hload).1 hk))]
    obtain ⟨r, s', hrun, hup⟩ := set_run hs hload name hname .null
    obtain ⟨u, rfl⟩ := hup.ok.2 (by simp [Blocked, Shows])
    exact ⟨true, s', run_bind_ok hrun, hup.differs, hup.sameDirs, hup.stored, fun _ => hup.bound,
      fun h => absurd hk h⟩
  · rw [if_neg (mt Json.same_str.1 (mt (bound_eq_str hload).2 hk))]
    exact ⟨false, s, rfl, .refl _ s, .refl _, hstored, fun h => absurd h hk, fun _ => rfl⟩

/-! ## Promotion -/

/-- The key that is the compiled one, null if there is none. -/
def previous (p : Pointers) (d : Disk) : Json := (p.bound d compiled).getD .null

/-- Another key is the compiled one, and will be the backup. -/
def Supersedes (p : Pointers) (d : Disk) (k : String) : Prop :=
  p.previous d ≠ .null ∧ p.previous d ≠ .str k

/-- What a promotion does, ending with `r` at `s'`. -/
structure Promoted (p : Pointers) (A : Address) (k : String) {α : Type} (s : Site)
    (r : Except Fault α) (s' : Site) : Prop where
  differs : Differs (fun a => a = A ++ [storeName] ∨ IsLinkOf A [compiled, compiledBackup] a) s s'
  sameDirs : s.disk.SameDirs s'.disk
  stored : ∃ fs, s'.disk.find? (A ++ [storeName]) = some (.file (.json (.obj fs)))
  /-- The backup cannot be shown, so the promotion ends there. -/
  stopped : p.Supersedes s.disk k → p.Blocked s.disk A (compiledBackup, p.previous s.disk) →
    p.bound s'.disk = rebound (p.bound s.disk) (compiledBackup, p.previous s.disk)
  moved : p.Supersedes s.disk k → ¬ p.Blocked s.disk A (compiledBackup, p.previous s.disk) →
    p.bound s'.disk =
      rebound (rebound (p.bound s.disk) (compiledBackup, p.previous s.disk)) (compiled, .str k)
  first : ¬ p.Supersedes s.disk k → p.bound s'.disk = rebound (p.bound s.disk) (compiled, .str k)
  ok : (∃ x, r = .ok x) ↔
    (p.Supersedes s.disk k → ¬ p.Blocked s.disk A (compiledBackup, p.previous s.disk)) ∧
      ¬ p.Blocked s.disk A (compiled, .str k)

theorem Updated.ready {changes : Bindings} {α : Type} {r : Except Fault α} {s' : Site}
    (h : Updated p A changes s r s') (hs : Ready p.root A s) : Ready p.root A s' :=
  h.differs.ready hs fun a ha => ha.elim (by rintro rfl; exact Disk.below_child A _) isLinkOf_below

/-- What a promotion reads, and how it tells whether another key is superseded. -/
theorem previous_of_load {B : Bindings} (hload : p.load d = .ok B) (k : String) :
    ∃ v, v = (Assoc.find? B compiled).getD .null ∧ p.previous d = v.sortKeys ∧
      (p.Supersedes d k ↔ (v ≠ .null && !Json.same v (.str k)) = true) := by
  obtain ⟨v, hv⟩ : ∃ v, v = (Assoc.find? B compiled).getD .null := ⟨_, rfl⟩
  have hprev : p.previous d = v.sortKeys := by
    rw [previous, bound_of_load hload, hv]
    cases Assoc.find? B compiled <;> rfl
  refine ⟨v, hv, hprev, ?_⟩
  unfold Supersedes
  rw [hprev, ne_eq, ne_eq, sortKeys_eq_null, sortKeys_eq_str, ← Json.same_str]
  simp

theorem promote_run (hs : Ready p.root A s) {B : Bindings} (hload : p.load s.disk = .ok B)
    (k : String) :
    ∃ r s', (p.promote (.str k)).run s = (r, s') ∧ Promoted p A k s r s' := by
  obtain ⟨v, hv, hprev, hsupersedes⟩ := previous_of_load hload k
  have hmono₂ : ∀ a, a = A ++ [storeName] ∨ IsLinkOf A [compiled] a →
      a = A ++ [storeName] ∨ IsLinkOf A [compiled, compiledBackup] a := by
    rintro a (ha | ⟨n, hn, ha⟩)
    · exact .inl ha
    · exact .inr ⟨n, by simp_all, ha⟩
  unfold promote
  rw [run_bind_ok (get_run hload (by decide)), ← hv]
  by_cases hsup : p.Supersedes s.disk k
  · rw [if_pos (hsupersedes.1 hsup)]
    obtain ⟨r₁, s₁, hrun₁, hup₁⟩ := set_run hs hload compiledBackup (by decide) v
    have hbound₁ : p.bound s₁.disk = rebound (p.bound s.disk) (compiledBackup, p.previous s.disk) := by
      rw [hup₁.bound, hprev, rebound_sortKeys]
      rfl
    have hblocked : p.Blocked s.disk A (compiledBackup, p.previous s.disk) ↔
        p.Blocked s.disk A (compiledBackup, v) := by
      rw [hprev, blocked_sortKeys]
    have hmono : ∀ a, a = A ++ [storeName] ∨ IsLinkOf A [compiledBackup] a →
        a = A ++ [storeName] ∨ IsLinkOf A [compiled, compiledBackup] a := by
      rintro a (ha | ⟨n, hn, ha⟩)
      · exact .inl ha
      · exact .inr ⟨n, List.mem_cons_of_mem _ hn, ha⟩
    have hok₁ := hup₁.ok
    simp only [List.forall_mem_singleton, ← hblocked] at hok₁
    cases r₁ with
    | error e =>
      simp only [reduceCtorEq, exists_false, false_iff, Classical.not_not] at hok₁
      exact ⟨_, _, run_bind_error hrun₁, hup₁.differs.mono hmono, hup₁.sameDirs, hup₁.stored,
        fun _ _ => hbound₁, fun _ h => absurd hok₁ h, fun h => absurd hsup h,
        by simp [hsup, hok₁]⟩
    | ok u =>
      replace hok₁ := hok₁.1 ⟨u, rfl⟩
      rw [run_bind_ok hrun₁]
      have hs₁ := hup₁.ready hs
      obtain ⟨B₁, hload₁⟩ := load_isOk_of_stored hs₁.rooted hup₁.stored
      obtain ⟨r₂, s₂, hrun₂, hup₂⟩ := set_run hs₁ hload₁ compiled (by decide) (.str k)
      have hok₂ := hup₂.ok
      simp only [List.forall_mem_singleton, blocked_congr hup₁.sameDirs] at hok₂
      have hpromoted : ∀ {r : Except Fault Json}, ((∃ x, r = .ok x) ↔ ∃ x, r₂ = .ok x) →
          Promoted p A k s r s₂ := fun hr =>
        ⟨(hup₁.differs.mono hmono).trans (hup₂.differs.mono hmono₂), hup₁.sameDirs.trans hup₂.sameDirs,
          hup₂.stored, fun _ h => absurd h hok₁, fun _ _ => by rw [hup₂.bound, hbound₁]; rfl,
          fun h => absurd hsup h, by rw [hr, hok₂, and_iff_right fun _ => hok₁]⟩
      cases r₂ with
      | error e => exact ⟨_, _, run_bind_error hrun₂, hpromoted (by simp)⟩
      | ok u₂ => exact ⟨_, _, run_bind_ok hrun₂, hpromoted (by simp)⟩
  · rw [if_neg (mt hsupersedes.2 hsup)]
    obtain ⟨r₂, s₂, hrun₂, hup₂⟩ := set_run hs hload compiled (by decide) (.str k)
    have hok₂ := hup₂.ok
    simp only [List.forall_mem_singleton] at hok₂
    have hpromoted : ∀ {r : Except Fault Json}, ((∃ x, r = .ok x) ↔ ∃ x, r₂ = .ok x) →
        Promoted p A k s r s₂ := fun hr =>
      ⟨hup₂.differs.mono hmono₂, hup₂.sameDirs, hup₂.stored, fun h => absurd h hsup,
        fun h => absurd h hsup, fun _ => hup₂.bound, by rw [hr, hok₂, and_iff_right fun h => absurd h hsup]⟩
    cases r₂ with
    | error e => exact ⟨_, _, run_bind_error hrun₂, hpromoted (by simp)⟩
    | ok u₂ => exact ⟨_, _, run_bind_ok hrun₂, hpromoted (by simp)⟩

theorem Promoted.of_error {k : String} {α β : Type} {f g : Fault} {s' : Site}
    (h : Promoted p A k s (.error f : Except Fault α) s') :
    Promoted p A k s (.error g : Except Fault β) s' :=
  ⟨h.differs, h.sameDirs, h.stored, h.stopped, h.moved, h.first, by simpa using h.ok⟩

theorem Promoted.of_ok {k : String} {α β : Type} {x : α} {y : β} {s' : Site}
    (h : Promoted p A k s (.ok x : Except Fault α) s') :
    Promoted p A k s (.ok y : Except Fault β) s' :=
  ⟨h.differs, h.sameDirs, h.stored, h.stopped, h.moved, h.first, by simpa using h.ok⟩

/-- A promotion concerns two aliases only. -/
theorem Promoted.bound_other {k : String} {α : Type} {r : Except Fault α} {s' : Site}
    (h : Promoted p A k s r s') {n : String} (hn : n ≠ compiled) (hn' : n ≠ compiledBackup) :
    p.bound s'.disk n = p.bound s.disk n := by
  have hskip : ∀ (f : String → Option Json) (v : Json), rebound f (compiledBackup, v) n = f n ∧
      rebound f (compiled, v) n = f n := fun f v =>
    ⟨if_neg (Ne.symm hn'), if_neg (Ne.symm hn)⟩
  by_cases hsup : p.Supersedes s.disk k
  · by_cases hb : p.Blocked s.disk A (compiledBackup, p.previous s.disk)
    · rw [h.stopped hsup hb, (hskip _ _).1]
    · rw [h.moved hsup hb, (hskip _ _).2, (hskip _ _).1]
  · rw [h.first hsup, (hskip _ _).2]

/-! ## What no update touches -/

section Detached

variable {P : Site → Prop}

theorem keeps_bindLink_of_detached (h : Site.Detached P) (target : Json) (link : Path) :
    Action.Keeps P (bindLink target link) := by
  have hwrite := fun f => Session.keeps_write_of_detached h f
  have hplace : ∀ temporary, Action.Keeps P (placeLink target temporary link) := by
    intro temporary
    cases target with
    | str t => exact (hwrite _).bind fun _ => hwrite _
    | _ => exact keeps_fail _
  simp only [bindLink_eq]
  exact (Session.keeps_read _).bind fun _ =>
    keeps_ite (fun _ => (hwrite _).bind fun _ => hplace _) fun _ => hplace _

theorem keeps_updateLink_of_detached (h : Site.Detached P) (p : Pointers) (change : String × Json) :
    Action.Keeps P (p.updateLink change) := by
  obtain ⟨n, v⟩ := change
  by_cases hv : v = .null
  · subst hv
    exact (Session.keeps_read _).bind fun _ =>
      keeps_ite (fun _ => Session.keeps_write_of_detached h _) fun _ => keeps_pure _
  · rw [updateLink_of_ne_null p n hv]
    exact keeps_bindLink_of_detached h v _

theorem keeps_update_of_detached (h : Site.Detached P) (p : Pointers) (changes : Bindings) :
    Action.Keeps P (p.update changes) := by
  have hlog : ∀ B : Bindings, Action.Keeps P (Session.debug logger "Pointers updated" (some "pointers_updated")
      (some (.obj changes)) >>= fun _ => pure B) :=
    fun _ => (Session.keeps_report_of_detached h _).bind fun _ => keeps_pure _
  have hlinks : Action.Keeps P (changes.forM p.updateLink) :=
    keeps_forM fun c _ => keeps_updateLink_of_detached h p c
  unfold update
  refine (keeps_forM fun _ _ => keeps_lift _).bind fun _ => (Session.keeps_read _).bind fun _ =>
    (Session.keeps_write_of_detached h _).bind fun _ => (Session.keeps_write_of_detached h _).bind fun _ => ?_
  dsimp only
  split
  · exact hlinks.bind fun _ => hlog _
  · exact hlog _

theorem keeps_removeIf_of_detached (h : Site.Detached P) (p : Pointers) (n : String) (v : Json) :
    Action.Keeps P (p.removeIf n v) := by
  have hget : Action.Keeps P (p.get n) :=
    (keeps_lift _).bind fun _ => (Session.keeps_read _).bind fun _ => keeps_pure _
  exact hget.bind fun _ =>
    keeps_ite (fun _ => (keeps_update_of_detached h p _).discard.bind fun _ => keeps_pure _) fun _ => keeps_pure _

end Detached

end Pointers

end FlowPlan

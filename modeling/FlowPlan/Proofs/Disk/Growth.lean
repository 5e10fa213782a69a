import FlowPlan.Proofs.Attempt
import FlowPlan.Proofs.Disk.Operation

/-!
# Where paths lead while a disk grows

As long as directories and links stay and files stay files, a path leads where it has led before.

## Main definitions

* `Disk.Grows` — directories, links and files are still there.
* `Disk.Wrote` — a file was written at one address.
* `Disk.Extends` — whatever was there is there as it was.

## Main statements

* `Disk.Grows.locate` — a path still leads to the same address.
* `Disk.of_touch` — what becomes of a file that has to be there.
-/

namespace FlowPlan.Disk

/-- Directories and links are as before, and files are still files. -/
structure Grows (d d' : Disk) : Prop where
  home : d'.home = d.home
  ways : ∀ a e, d.find? a = some e → e.isFile = false → d'.find? a = some e
  files : ∀ a c, d.find? a = some (.file c) → ∃ c', d'.find? a = some (.file c')

/-- Nothing but the content of one file has changed, which may be new. -/
structure Wrote (a : Address) (d d' : Disk) : Prop where
  home : d'.home = d.home
  ne_nil : a ≠ []
  kept : ∀ b, b ≠ a → d'.find? b = d.find? b
  before : ∀ e, d.find? a = some e → e.isFile = true
  parent : d.find? a = none → d.find? a.dropLast = some .dir
  file : ∃ c, d'.find? a = some (.file c)

variable {d d' d'' : Disk} {a b : Address}

theorem Wrote.trans (h : Wrote a d d') (h' : Wrote a d' d'') : Wrote a d d'' where
  home := h'.home.trans h.home
  ne_nil := h.ne_nil
  kept b hb := (h'.kept b hb).trans (h.kept b hb)
  before := h.before
  parent := h.parent
  file := h'.file

theorem wrote_set (ha : a ≠ []) (hbefore : ∀ e, d.find? a = some e → e.isFile = true)
    (hparent : d.find? a = none → d.find? a.dropLast = some .dir) (c : Content) :
    Wrote a d (d.set a (.file c)) where
  home := rfl
  ne_nil := ha
  kept b hb := by rw [find?_set d ha, if_neg (Ne.symm hb)]
  before := hbefore
  parent := hparent
  file := ⟨c, by rw [find?_set d ha, if_pos rfl]⟩

theorem Wrote.grows (h : Wrote a d d') : Grows d d' where
  home := h.home
  ways b e he hf := by
    rw [h.kept b (by rintro rfl; simp [h.before e he] at hf), he]
  files b c hc := by
    by_cases hb : b = a
    · exact hb ▸ h.file
    · exact ⟨c, by rw [h.kept b hb, hc]⟩

/-- What is new lies where nothing was. -/
theorem grows_of_new (hhome : d'.home = d.home)
    (h : ∀ a, d.find? a ≠ none → d'.find? a = d.find? a) : Grows d d' where
  home := hhome
  ways a e he _ := (h a (by simp [he])).trans he
  files a c hc := ⟨c, (h a (by simp [hc])).trans hc⟩

theorem Grows.keepsWays (h : Grows d d') (A : Address) : KeepsWays A d d' :=
  ⟨h.home, fun a e _ => h.ways a e⟩

/-! ## Following -/

theorem Grows.descend (h : Grows d d') {last : Bool} {names : List String}
    (hd : d.descend last a names = .arrived b)
    (hb : d.find? b = none → ∀ e, d'.find? b = some e → e.isFile = true) :
    d'.descend last a names = .arrived b := by
  induction names generalizing a with
  | nil => exact hd
  | cons n names ih =>
    unfold Disk.descend at hd ⊢
    split at hd
    · rename_i hup
      rw [if_pos hup]
      exact ih hd
    · rename_i hup
      rw [if_neg hup]
      simp only at hd ⊢
      split at hd
      · rename_i hnone
        split at hd
        · rename_i hempty
          cases hd
          cases he : d'.find? (a ++ [n]) with
          | none => simp [hempty]
          | some e =>
            have := hb hnone e he
            cases e <;> simp_all [Entry.isFile]
        · cases hd
      · rename_i hdir
        rw [h.ways _ _ hdir rfl]
        exact ih hd
      · rename_i c hfile
        obtain ⟨c', hc'⟩ := h.files _ _ hfile
        rw [hc']
        exact hd
      · rename_i target hlink
        rw [h.ways _ _ hlink rfl]
        exact hd

theorem Grows.descend_link (h : Grows d d') {last : Bool} {names rest : List String}
    {target : String} (hd : d.descend last a names = .atLink b target rest) :
    d'.descend last a names = .atLink b target rest := by
  induction names generalizing a with
  | nil => simp [Disk.descend] at hd
  | cons n names ih =>
    unfold Disk.descend at hd ⊢
    split at hd
    · rename_i hup
      rw [if_pos hup]
      exact ih hd
    · rename_i hup
      rw [if_neg hup]
      simp only at hd ⊢
      split at hd
      · split at hd <;> cases hd
      · rename_i hdir
        rw [h.ways _ _ hdir rfl]
        exact ih hd
      · split at hd <;> cases hd
      · rename_i target hlink
        rw [h.ways _ _ hlink rfl]
        exact hd

theorem Grows.follow (h : Grows d d') {last : Bool} {links : Nat} {names : List String}
    (hf : d.follow last links a names = .ok b)
    (hb : d.find? b = none → ∀ e, d'.find? b = some e → e.isFile = true) :
    d'.follow last links a names = .ok b := by
  induction links generalizing a names with
  | zero =>
    unfold Disk.follow at hf ⊢
    split at hf
    · rename_i hd
      cases hf
      rw [h.descend hd hb]
    · cases hf
    · cases hf
  | succ links ih =>
    unfold Disk.follow at hf ⊢
    split at hf
    · rename_i hd
      cases hf
      rw [h.descend hd hb]
    · cases hf
    · rename_i hd
      rw [h.descend_link hd]
      exact ih hf

/-- A path still leads to the same address, unless a directory or a link is new there. -/
theorem Grows.locate (h : Grows d d') {p : Path} {last : Bool} (hl : d.locate p last = .ok b)
    (hb : d.find? b = none → ∀ e, d'.find? b = some e → e.isFile = true) :
    d'.locate p last = .ok b := by
  unfold Disk.locate at hl ⊢
  rw [h.home]
  exact h.follow hl hb

/-! ## Trees -/

/-- Every entry lies in a directory, and so does what is seen from the home directory. -/
structure IsTree (d : Disk) : Prop where
  parent : ∀ a n e, d.find? (a ++ [n]) = some e → d.find? a = some .dir
  home : d.find? d.home = some .dir

theorem IsTree.dropLast (h : IsTree d) (ha : d.find? a = some .dir) :
    d.find? a.dropLast = some .dir := by
  by_cases hnil : a = []
  · rw [hnil]
    rfl
  · have heq : a.dropLast ++ [a.getLast hnil] = a := List.dropLast_concat_getLast hnil
    exact h.parent a.dropLast (a.getLast hnil) .dir (heq.symm ▸ ha)

theorem IsTree.descend (h : IsTree d) {names : List String} (ha : d.find? a = some .dir)
    (hd : d.descend true a names = .arrived b) : ∀ t, d.find? b ≠ some (.link t) := by
  induction names generalizing a with
  | nil =>
    cases hd
    simp [ha]
  | cons n names ih =>
    unfold Disk.descend at hd
    split at hd
    · exact ih (h.dropLast ha) hd
    · simp only at hd
      split at hd
      · split at hd
        · cases hd; simp_all
        · cases hd
      · exact ih ‹_› hd
      · split at hd
        · cases hd; simp_all
        · cases hd
      · simp at hd

theorem IsTree.descend_link (h : IsTree d) {names rest : List String} {target : String}
    (ha : d.find? a = some .dir) (hd : d.descend true a names = .atLink b target rest) :
    d.find? b = some .dir := by
  induction names generalizing a with
  | nil => simp [Disk.descend] at hd
  | cons n names ih =>
    unfold Disk.descend at hd
    split at hd
    · exact ih (h.dropLast ha) hd
    · simp only at hd
      split at hd
      · split at hd <;> cases hd
      · exact ih ‹_› hd
      · split at hd <;> cases hd
      · simp at hd
        exact hd.1 ▸ ha

theorem IsTree.follow (h : IsTree d) {links : Nat} {names : List String}
    (ha : d.find? a = some .dir) (hf : d.follow true links a names = .ok b) :
    ∀ t, d.find? b ≠ some (.link t) := by
  induction links generalizing a names with
  | zero =>
    unfold Disk.follow at hf
    split at hf
    · cases hf
      exact h.descend ha ‹_›
    · cases hf
    · cases hf
  | succ links ih =>
    unfold Disk.follow at hf
    split at hf
    · cases hf
      exact h.descend ha ‹_›
    · cases hf
    · rename_i hd
      refine ih ?_ hf
      split
      · rfl
      · exact h.descend_link ha hd

/-- A path that is followed to its end does not end at a link. -/
theorem IsTree.locate (h : IsTree d) {p : Path} (hl : d.locate p = .ok a) :
    ∀ t, d.find? a ≠ some (.link t) := by
  refine h.follow ?_ hl
  split
  · rfl
  · exact h.home

/-- Nothing lies below what is not there. -/
theorem IsTree.find?_below (h : IsTree d) (ha : d.find? a = none) (ns : Address) :
    d.find? (a ++ ns) = none := by
  induction ns generalizing a with
  | nil => rwa [List.append_nil]
  | cons n ns ih =>
    rw [List.append_cons]
    refine ih ?_
    cases he : d.find? (a ++ [n]) with
    | none => rfl
    | some e =>
      have hdir := h.parent _ _ _ he
      rw [ha] at hdir
      cases hdir

theorem IsTree.of_entries (h : ∀ x ∈ d.entries, d.find? x.1.dropLast = some .dir)
    (home : d.find? d.home = some .dir) : IsTree d := by
  refine ⟨fun a n e he => ?_, home⟩
  obtain ⟨b, hb⟩ : ∃ b, b = a ++ [n] := ⟨_, rfl⟩
  rw [← hb] at he
  have hmem : (b, e) ∈ d.entries := by
    have hnil : b ≠ [] := by simp [hb]
    unfold Disk.find? at he
    split at he
    · exact absurd rfl hnil
    · exact Assoc.mem_of_find? he
  simpa [hb] using h _ hmem

/-- A tree stays one if no directory is lost and what is new lies in one. -/
theorem IsTree.of_changed (h : IsTree d) (hhome : d'.home = d.home)
    (hchanged : ∀ a, d'.find? a = d.find? a ∨
      d.find? a ≠ some .dir ∧ (d.find? a = none → d.find? a.dropLast = some .dir)) : IsTree d' := by
  have hdir : ∀ a, d.find? a = some .dir → d'.find? a = some .dir := fun a ha =>
    ((hchanged a).resolve_right fun hne => hne.1 ha).trans ha
  refine ⟨fun a n e he => hdir a ?_, by rw [hhome, hdir _ h.home]⟩
  rcases hchanged (a ++ [n]) with heq | ⟨-, hparent⟩
  · exact h.parent a n e (heq ▸ he)
  · cases hold : d.find? (a ++ [n]) with
    | none => simpa using hparent hold
    | some e' => exact h.parent a n e' hold

theorem Wrote.isTree (h : Wrote a d d') (ht : IsTree d) : IsTree d' := by
  refine ht.of_changed h.home fun b => ?_
  by_cases hb : b = a
  · subst hb
    exact .inr ⟨fun hdir => by simpa [Entry.isFile] using h.before _ hdir, h.parent⟩
  · exact .inl (h.kept b hb)

/-! ## Files that have to be there -/

theorem address_congr {p : Path} {last : Bool} (h : d.address p last = .ok a)
    (hl : d'.locate p last = .ok a) : d'.address p last = .ok a := by
  simp only [address, bind, Except.bind] at h ⊢
  split at h
  · cases h
  · simp [hl, pure, Except.pure]

/-- A file that has to be there is the one to which the path leads; only a new one is written. -/
theorem of_touch {p : Path} (h : d.touch p = .ok d')
    (hlink : ∀ a, d.locate p = .ok a → ∀ t, d.find? a ≠ some (.link t)) :
    ∃ a, d.address p = .ok a ∧ Wrote a d d' ∧
      (d' = d ∨ d.find? a = none ∧ d'.find? a = some (.file (.text ""))) := by
  simp only [touch, fileAddress, bind, Except.bind] at h
  cases haddress : d.address p with
  | error f => simp [haddress] at h
  | ok a =>
    have hlink' := hlink a (of_address haddress)
    refine ⟨a, rfl, ?_⟩
    simp only [haddress, pure, Except.pure] at h
    have hnil : a ≠ [] := by
      rintro rfl
      simp [Disk.find?, refuse] at h
    cases he : d.find? a with
    | none =>
      simp only [he] at h
      cases hparent : d.find? a.dropLast with
      | none => simp [hparent, refuse] at h
      | some e =>
        cases e with
        | dir =>
          simp only [hparent, he] at h
          cases h
          refine ⟨wrote_set hnil (by simp [he]) (fun _ => hparent) _, .inr ⟨rfl, ?_⟩⟩
          rw [find?_set d hnil, if_pos rfl]
        | file c => simp [hparent, refuse] at h
        | link t => simp [hparent, refuse] at h
    | some e =>
      cases e with
      | dir => simp [he, refuse] at h
      | file c =>
        simp only [he] at h
        cases h
        exact ⟨⟨rfl, hnil, fun _ _ => rfl, by simp [he, Entry.isFile], by simp [he], ⟨c, he⟩⟩, .inl rfl⟩
      | link t => exact absurd he (hlink' t)

/-! ## Making directories -/

/-- Whatever is there stays as it is. -/
structure Extends (d d' : Disk) : Prop where
  home : d'.home = d.home
  kept : ∀ a, d.find? a ≠ none → d'.find? a = d.find? a

theorem Extends.refl (d : Disk) : Extends d d := ⟨rfl, fun _ _ => rfl⟩

theorem Extends.trans (h : Extends d d') (h' : Extends d' d'') : Extends d d'' where
  home := h'.home.trans h.home
  kept a ha := by
    have heq := h.kept a ha
    rw [h'.kept a (heq ▸ ha), heq]

theorem Extends.find? (h : Extends d d') {e : Entry} (he : d.find? a = some e) : d'.find? a = some e :=
  (h.kept a (by simp [he])).trans he

theorem Extends.grows (h : Extends d d') : Grows d d' := grows_of_new h.home h.kept

/-- A new directory lies in one that is there. -/
theorem of_makeDir {p : Path} (h : d.makeDir p = .ok d') :
    ∃ a, d.find? a = none ∧ d.find? a.dropLast = some .dir ∧ d' = d.set a .dir := by
  unfold makeDir at h
  obtain ⟨a, -, h⟩ := Attempt.bind_eq_ok.1 h
  split at h
  · cases h
  · cases h
    exact ⟨a, ‹_›, ‹_›, rfl⟩
  · cases h

/-- What holds of new directories one by one holds of all that are made. -/
theorem makeDirs_induct {R : Disk → Disk → Prop} (hrefl : ∀ d, R d d)
    (htrans : ∀ {d d' d''}, R d d' → R d' d'' → R d d'')
    (hnew : ∀ d a, d.find? a = none → d.find? a.dropLast = some .dir → R d (d.set a .dir)) {p : Path}
    (h : d.makeDirs p = .ok d') : R d d' := by
  have hensure : ∀ {d d' : Disk} {p : Path}, d.ensureDir p = .ok d' → R d d' := by
    intro d d' p h
    unfold ensureDir at h
    split at h
    · cases h
      exact hrefl d
    · obtain ⟨a, hnone, hparent, rfl⟩ := of_makeDir h
      exact hnew d a hnone hparent
  unfold makeDirs at h
  generalize p.parts.length = n at h
  induction n generalizing p d' with
  | zero => exact hensure h
  | succ n ih =>
    unfold makeDirsUp at h
    split at h
    · obtain ⟨d'', hup, hdir⟩ := Attempt.bind_eq_ok.1 h
      exact htrans (ih hup) (hensure hdir)
    · exact hensure h

theorem ne_nil_of_none (h : d.find? a = none) : a ≠ [] := by
  rintro rfl
  cases h

theorem of_makeDirs {p : Path} (h : d.makeDirs p = .ok d') : Extends d d' := by
  refine makeDirs_induct .refl .trans (fun d a hnone _ => ⟨rfl, fun b hb => ?_⟩) h
  rw [find?_set d (ne_nil_of_none hnone), if_neg]
  rintro rfl
  exact hb hnone

/-- Whatever is made is a directory. -/
theorem new_of_makeDirs {p : Path} (h : d.makeDirs p = .ok d') (a : Address) :
    d'.find? a = d.find? a ∨ d'.find? a = some .dir := by
  refine makeDirs_induct (R := fun d d' => d'.find? a = d.find? a ∨ d'.find? a = some .dir)
    (fun _ => .inl rfl) (fun h h' => ?_) (fun d b hnone _ => ?_) h
  · rcases h' with h' | h'
    · rwa [h']
    · exact .inr h'
  · rw [find?_set d (ne_nil_of_none hnone)]
    split
    · exact .inr rfl
    · exact .inl rfl

theorem IsTree.of_makeDirs (ht : d.IsTree) {p : Path} (h : d.makeDirs p = .ok d') : d'.IsTree := by
  refine makeDirs_induct (R := fun d d' => d.IsTree → d'.IsTree) (fun _ => id) (fun h h' ht => h' (h ht))
    (fun d a hnone hparent ht => ht.of_changed rfl fun b => ?_) h ht
  by_cases hb : a = b
  · subst hb
    exact .inr ⟨by simp [hnone], fun _ => hparent⟩
  · exact .inl (by rw [find?_set d (ne_nil_of_none hnone), if_neg hb])

end FlowPlan.Disk

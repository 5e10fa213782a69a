import FlowPlan.Disk.Basic

/-!
# Where paths lead

A directory is rooted at an address if its path leads there whatever lies below. Its children are
then found by their names, and writing below it moves neither it nor any directory above it.

## Main definitions

* `Path.IsName` — a text that is one part of a path.
* `Path.temporary` — the name under which a new entry is prepared.
* `Disk.KeepsWays`, `Disk.KeepsRooted` — no directory or link at or above an address has changed, and one path
  leads there as before.
* `Disk.Rooted` — a path leads to a directory, through at most so many links.
* `Disk.Blunts`, `Disk.Opens` — links may have given way to files, and what is found nevertheless.

## Main statements

* `Disk.Rooted.of_keepsWays` — what is written below the directory does not move it.
* `Disk.Rooted.child` — a directory in a rooted one is rooted.
* `Disk.Rooted.locate_child` — a child is where its name says.
* `Disk.Rooted.locate_link` — a link leads to what lies beside it.
-/

namespace FlowPlan

/-! ## Names and paths -/

namespace Path

/-- The text is one part of a path, and leads neither nowhere nor up. -/
def IsName (n : String) : Prop := n ≠ "" ∧ n ≠ "." ∧ n ≠ ".." ∧ '/' ∉ n.toList

instance (n : String) : Decidable (IsName n) := inferInstanceAs (Decidable (_ ∧ _ ∧ _ ∧ _))

/-- The text holds no null character. -/
def NulFree (n : String) : Prop := '\x00' ∉ n.toList

instance (n : String) : Decidable (NulFree n) := inferInstanceAs (Decidable (_ ∉ _))

/-- No part of the path holds a null character. -/
def Clean (p : Path) : Prop := NulFree p.anchor ∧ ∀ n ∈ p.parts, NulFree n

theorem parse_of_isName {n : String} (h : IsName n) : parse n = ⟨"", [n]⟩ := by
  obtain ⟨hne, hdot, -, hslash⟩ := h
  have hpieces : pieces n = [n] := by
    rw [pieces, List.splitOn_eq_singleton hslash]
    simp
  have hanchor : anchorOf n.toList = "" := by
    cases hcs : n.toList with
    | nil => rfl
    | cons c cs =>
      have : c ≠ '/' := by rintro rfl; exact hslash (hcs ▸ List.mem_cons_self)
      unfold anchorOf
      split <;> simp_all
  simp [parse, hpieces, hanchor, hne, hdot]

theorem child_of_isName (p : Path) {n : String} (h : IsName n) :
    p.child n = { p with parts := p.parts ++ [n] } := by
  simp [child, parse_of_isName h, join, isAbsolute]

@[simp] theorem parent_child (p : Path) {n : String} (h : IsName n) : (p.child n).parent = p := by
  simp [child_of_isName p h, parent]

@[simp] theorem name_child (p : Path) {n : String} (h : IsName n) : (p.child n).name = n := by
  simp [child_of_isName p h, name]

theorem withName_child (p : Path) {n m : String} (hn : IsName n) (hm : IsName m) :
    (p.child n).withName m = p.child m := by
  simp [child_of_isName p hn, child_of_isName p hm, withName]

theorem Clean.child {p : Path} (hp : p.Clean) {n : String} (hn : IsName n) (hnul : NulFree n) :
    (p.child n).Clean := by
  rw [child_of_isName p hn]
  refine ⟨hp.1, fun m hm => ?_⟩
  rcases List.mem_append.1 hm with hm | hm
  · exact hp.2 m hm
  · rwa [List.mem_singleton.1 hm]

/-- The name under which a new entry is prepared before it is moved to its place. -/
def temporary (n : String) : String := s!".{n}.tmp"

theorem temporary_ne (n : String) : temporary n ≠ n := by
  intro heq
  have hlength := congrArg String.length heq
  have h1 : ".".length = 1 := rfl
  simp [temporary, toString] at hlength
  omega

theorem isName_temporary {n : String} (h : '/' ∉ n.toList) : IsName (temporary n) := by
  have htext : (temporary n).toList = '.' :: n.toList ++ ['.', 't', 'm', 'p'] := by
    simp [temporary, toString]
  have hlength : 5 ≤ (temporary n).toList.length := by simp [htext]
  refine ⟨?_, ?_, ?_, by simp [htext, h]⟩ <;>
    (rintro heq; rw [heq] at hlength; revert hlength; decide)

theorem nulFree_temporary {n : String} (h : NulFree n) : NulFree (temporary n) := by
  simp_all [NulFree, temporary, toString]

theorem nulFree_intercalate {ns : List String} (h : ∀ n ∈ ns, NulFree n) :
    NulFree (String.intercalate "/" ns) := by
  induction ns with
  | nil => simp [NulFree]
  | cons n ns ih =>
    have hn : NulFree n := h n List.mem_cons_self
    cases ns with
    | nil => simpa using hn
    | cons m ns =>
      have := ih fun k hk => h k (List.mem_cons_of_mem n hk)
      rw [String.intercalate_cons_cons]
      simp_all [NulFree]

theorem Clean.nulFree_text {p : Path} (h : p.Clean) : NulFree p.text := by
  unfold text
  split
  · decide
  · have := nulFree_intercalate h.2
    have := h.1
    simp_all [NulFree]

end Path

/-! ## Following names -/

/-- The address lies below another one. -/
def Address.Below (A a : Address) : Prop := ∃ n rest, a = A ++ n :: rest

/-- The entry holds content and leads nowhere. -/
def Entry.isFile : Entry → Bool
  | .file _ => true
  | _ => false

namespace Disk

theorem checkName_of_nulFree {n : String} (h : Path.NulFree n) : checkName n = .ok () := by
  simp [checkName, show '\x00' ∉ n.toList from h]

theorem checkName_of_nul {n : String} (h : ¬ Path.NulFree n) :
    checkName n = .error (.misuse (.outOfBounds "embedded null byte")) := by
  have hmem : '\x00' ∈ n.toList := Decidable.not_not.1 h
  simp [checkName, hmem, Json.misuse]

/-- Where following the names of a path starts. -/
def startOf (d : Disk) (p : Path) : Address := if p.isAbsolute then [] else d.home

/-- Directories stay, and links stay or give way to files. -/
structure Blunts (d d' : Disk) : Prop where
  home : d'.home = d.home
  dirs : ∀ a, d.find? a = some .dir → d'.find? a = some .dir
  links : ∀ a t, d.find? a = some (.link t) →
    d'.find? a = some (.link t) ∨ ∃ c, d'.find? a = some (.file c)

theorem Blunts.refl (d : Disk) : Blunts d d := ⟨rfl, fun _ h => h, fun _ _ h => .inl h⟩

theorem descend_append {d d' : Disk} {a b : Address} {names : List String} (hd : Blunts d d') (last : Bool)
    (h : d.descend true a names = .arrived b) (hb : d.find? b = some .dir) (more : List String) :
    d'.descend last a (names ++ more) = d'.descend last b more := by
  induction names generalizing a with
  | nil => simp_all [descend]
  | cons m names ih =>
    unfold descend at h
    rw [List.cons_append, descend]
    split at h
    · rename_i hup
      rw [if_pos hup]
      exact ih h
    · rename_i hup
      rw [if_neg hup]
      simp only at h ⊢
      split at h
      · split at h
        · cases h; simp_all
        · cases h
      · rename_i hdir
        rw [hd.dirs _ hdir]
        exact ih h
      · split at h
        · cases h; simp_all
        · cases h
      · simp at h

theorem descend_append_link {d : Disk} {a parent : Address} {target : String}
    {names rest more : List String} (last : Bool)
    (h : d.descend true a names = .atLink parent target rest) (hmore : more ≠ []) :
    d.descend last a (names ++ more) = .atLink parent target (rest ++ more) := by
  induction names generalizing a with
  | nil => simp [descend] at h
  | cons m names ih =>
    unfold descend at h
    rw [List.cons_append, descend]
    split at h
    · rename_i hup
      rw [if_pos hup]
      exact ih h
    · rename_i hup
      rw [if_neg hup]
      simp only at h ⊢
      split at h
      · split at h <;> cases h
      · exact ih h
      · split at h <;> cases h
      · simp at h
        simp_all

theorem follow_of_arrived {d : Disk} {last : Bool} {a b : Address} {names : List String}
    (h : d.descend last a names = .arrived b) (links : Nat) :
    d.follow last links a names = .ok b := by
  unfold follow
  rw [h]

theorem follow_of_atLink {d : Disk} {last : Bool} {a parent : Address} {target : String}
    {names rest : List String} (h : d.descend last a names = .atLink parent target rest)
    (links : Nat) :
    d.follow last (links + 1) a names =
      d.follow last links (if (Path.parse target).isAbsolute then [] else parent)
        (namesOf (Path.parse target) ++ rest) := by
  rw [follow, h]

/-- Names behind a path are followed from the directory that the path leads to. Links that are not
used up on the way are left. -/
theorem follow_append {d : Disk} {links : Nat} {a b : Address} {names ns : List String}
    (last : Bool) (h : d.follow true links a names = .ok b) (hb : d.find? b = some .dir) (hns : ns ≠ []) :
    ∃ left, ∀ more,
      d.follow last (links + more) a (names ++ ns) = d.follow last (left + more) b ns := by
  induction links generalizing a names with
  | zero =>
    unfold follow at h
    split at h
    · rename_i c hc
      cases h
      refine ⟨0, fun more => ?_⟩
      unfold follow
      rw [descend_append (.refl d) last hc hb ns]
    · cases h
    · cases h
  | succ links ih =>
    unfold follow at h
    split at h
    · rename_i c hc
      cases h
      refine ⟨links + 1, fun more => ?_⟩
      unfold follow
      rw [descend_append (.refl d) last hc hb ns]
    · cases h
    · rename_i parent target rest hc
      obtain ⟨left, heq⟩ := ih h
      refine ⟨left, fun more => ?_⟩
      rw [← heq more, Nat.add_right_comm, follow_of_atLink (descend_append_link last hc hns)]
      simp

theorem follow_add {d : Disk} {last : Bool} {links : Nat} {a b : Address} {names : List String}
    (h : d.follow last links a names = .ok b) (more : Nat) :
    d.follow last (links + more) a names = .ok b := by
  induction links generalizing a names with
  | zero =>
    unfold follow at h
    split at h
    · rename_i c hc
      rw [follow_of_arrived hc, h]
    · cases h
    · cases h
  | succ links ih =>
    unfold follow at h
    split at h
    · rename_i c hc
      rw [follow_of_arrived hc, h]
    · cases h
    · rename_i hc
      rw [Nat.add_right_comm, follow_of_atLink hc]
      exact ih h

/-! ## Rooted directories -/

/-- What has a name in the directory is found there, if the path leads anywhere. -/
def Opens (d : Disk) (p : Path) (A : Address) : Prop :=
  ∀ n, Path.IsName n → ∀ a, d.locate (p.child n) false = .ok a → a = A ++ [n]

/-- Every directory and link that does not lie below the address is as before. Files outside may
have changed, since no path leads through them. -/
structure KeepsWays (A : Address) (d d' : Disk) : Prop where
  home : d'.home = d.home
  ways : ∀ a e, ¬ Address.Below A a → d.find? a = some e → e.isFile = false → d'.find? a = some e

theorem KeepsWays.refl (A : Address) (d : Disk) : KeepsWays A d d := ⟨rfl, fun _ _ _ h _ => h⟩

theorem KeepsWays.trans {A : Address} {d d' d'' : Disk} (h : KeepsWays A d d')
    (h' : KeepsWays A d' d'') : KeepsWays A d d'' :=
  ⟨h'.home.trans h.home, fun a e ha he hf => h'.ways a e ha (h.ways a e ha he hf) hf⟩

theorem not_below_self (A : Address) : ¬ Address.Below A A := by
  rintro ⟨n, rest, h⟩
  simpa using congrArg List.length h

theorem below_child (A : Address) (n : String) : Address.Below A (A ++ [n]) := ⟨n, [], rfl⟩

theorem Address.Below.of_child {A a : Address} {n : String} (h : Address.Below (A ++ [n]) a) :
    Address.Below A a := by
  obtain ⟨m, rest, rfl⟩ := h
  exact ⟨n, m :: rest, by simp⟩

/-- The path leads to a directory at the address, through at most so many links, whatever lies
below the address. -/
structure Rooted (links : Nat) (d : Disk) (p : Path) (A : Address) : Prop where
  clean : p.Clean
  dir : d.find? A = some .dir
  leads : ∀ d', KeepsWays A d d' → d'.follow true links (d'.startOf p) (namesOf p) = .ok A

theorem Rooted.of_keepsWays {links : Nat} {d d' : Disk} {p : Path} {A : Address}
    (h : Rooted links d p A) (hd : KeepsWays A d d') : Rooted links d' p A :=
  ⟨h.clean, hd.ways A .dir (not_below_self A) h.dir rfl,
    fun d'' hd' => h.leads d'' (hd.trans hd')⟩

/-- Through however many links the path has led to the directory, it still does. -/
def KeepsRooted (p : Path) (A : Address) (d d' : Disk) : Prop :=
  ∀ links, Rooted links d p A → Rooted links d' p A

theorem KeepsWays.keepsRooted {A : Address} {d d' : Disk} (h : KeepsWays A d d') (p : Path) :
    KeepsRooted p A d d' := fun _ hr => hr.of_keepsWays h

theorem KeepsRooted.refl (p : Path) (A : Address) (d : Disk) : KeepsRooted p A d d := fun _ hr => hr

theorem KeepsRooted.trans {p : Path} {A : Address} {d d' d'' : Disk} (h : KeepsRooted p A d d')
    (h' : KeepsRooted p A d' d'') : KeepsRooted p A d d'' := fun links hr => h' links (h links hr)

theorem Rooted.add {links : Nat} {d : Disk} {p : Path} {A : Address} (h : Rooted links d p A)
    (more : Nat) : Rooted (links + more) d p A :=
  ⟨h.clean, h.dir, fun d' hd => follow_add (h.leads d' hd) more⟩

theorem startOf_join (d : Disk) (p : Path) {q : Path} (hq : q.isAbsolute = false) :
    d.startOf (p.join q) = d.startOf p := by
  rw [Path.join, hq]
  rfl

theorem namesOf_join (p : Path) {q : Path} (hq : q.isAbsolute = false) :
    namesOf (p.join q) = namesOf p ++ q.parts := by
  rw [Path.join, hq, if_neg (by simp)]
  unfold namesOf Path.isAbsolute
  split <;> simp

theorem startOf_child (d : Disk) (p : Path) {n : String} (hn : Path.IsName n) :
    d.startOf (p.child n) = d.startOf p :=
  startOf_join d p (by rw [Path.parse_of_isName hn]; rfl)

theorem namesOf_child (p : Path) {n : String} (hn : Path.IsName n) :
    namesOf (p.child n) = namesOf p ++ [n] := by
  rw [Path.child, namesOf_join p (by rw [Path.parse_of_isName hn]; rfl), Path.parse_of_isName hn]

/-- The last name of a path, looked up in a directory. -/
theorem follow_singleton {d : Disk} {links : Nat} {A : Address} {n : String} {last : Bool}
    (hn : Path.IsName n) (h : last = true → ∀ t, d.find? (A ++ [n]) ≠ some (.link t)) :
    d.follow last links A [n] = .ok (A ++ [n]) := by
  apply follow_of_arrived
  rw [descend, if_neg hn.2.2.1]
  cases hf : d.find? (A ++ [n]) with
  | none => simp [hf]
  | some e =>
    cases e with
    | dir => simp [hf, descend]
    | file c => simp [hf]
    | link t =>
      cases last with
      | false => simp [hf]
      | true => exact absurd hf (h rfl t)

/-- A child of a rooted directory is where its name says, unless it is a link to be followed. -/
theorem Rooted.follow_child {links : Nat} {d : Disk} {p : Path} {A : Address}
    (h : Rooted links d p A) {n : String} (hn : Path.IsName n) {last : Bool}
    (hl : last = true → ∀ t, d.find? (A ++ [n]) ≠ some (.link t)) :
    d.follow last links (d.startOf (p.child n)) (namesOf (p.child n)) = .ok (A ++ [n]) := by
  obtain ⟨left, heq⟩ := follow_append last (h.leads d (.refl A d)) h.dir (List.cons_ne_nil n [])
  rw [startOf_child d p hn, namesOf_child p hn]
  exact (heq 0).trans (follow_singleton hn hl)

theorem Rooted.locate_child {d : Disk} {p : Path} {A : Address} (h : Rooted maxLinks d p A)
    {n : String} (hn : Path.IsName n) {l : Bool}
    (hl : l = true → ∀ t, d.find? (A ++ [n]) ≠ some (.link t)) :
    d.locate (p.child n) l = .ok (A ++ [n]) := h.follow_child hn hl

theorem Rooted.opens {d : Disk} {p : Path} {A : Address} (h : Rooted maxLinks d p A) : Opens d p A :=
  fun _ hn _ ha => Except.ok.inj (ha.symm.trans (h.locate_child hn (by simp)))

theorem Rooted.locate {d : Disk} {p : Path} {A : Address} (h : Rooted maxLinks d p A) :
    d.locate p = .ok A := h.leads d (.refl A d)

theorem descend_dirs {d : Disk} {a names : Address} (hup : ".." ∉ names)
    (hdirs : ∀ k ≤ names.length, d.find? (a ++ names.take k) = some .dir) :
    d.descend true a names = .arrived (a ++ names) := by
  induction names generalizing a with
  | nil => simp [descend]
  | cons n names ih =>
    have hn : n ≠ ".." := fun h => hup (h ▸ List.mem_cons_self)
    have hdir : d.find? (a ++ [n]) = some .dir := by simpa using hdirs 1 (by simp)
    rw [descend, if_neg hn]
    dsimp only
    rw [hdir]
    have := ih (a := a ++ [n]) (fun h => hup (List.mem_cons_of_mem n h)) fun k hk => by
      simpa using hdirs (k + 1) (by simpa using hk)
    simpa using this

/-- An absolute path that never goes up, along directories. -/
theorem Rooted.of_dirs {d : Disk} {p : Path} (links : Nat) (hclean : p.Clean)
    (habsolute : p.isAbsolute = true) (hup : ".." ∉ namesOf p)
    (hdirs : ∀ k ≤ (namesOf p).length, d.find? ((namesOf p).take k) = some .dir) :
    Rooted links d p (namesOf p) := by
  refine ⟨hclean, by simpa using hdirs _ (Nat.le_refl _), fun d' hd => ?_⟩
  have hdirs' : ∀ k ≤ (namesOf p).length, d'.find? ([] ++ (namesOf p).take k) = some .dir := by
    intro k hk
    refine hd.ways _ .dir ?_ (hdirs k hk) rfl
    rintro ⟨n, rest, heq⟩
    have := congrArg List.length heq
    simp at this
    omega
  rw [startOf, if_pos habsolute]
  exact follow_of_arrived (descend_dirs hup hdirs') links

/-- A directory in a rooted one is rooted. -/
theorem Rooted.child {links : Nat} {d : Disk} {p : Path} {A : Address} (h : Rooted links d p A)
    {n : String} (hn : Path.IsName n) (hnul : Path.NulFree n)
    (hdir : d.find? (A ++ [n]) = some .dir) : Rooted links d (p.child n) (A ++ [n]) := by
  refine ⟨h.clean.child hn hnul, hdir, fun d' hd => ?_⟩
  have hroot : Rooted links d' p A := h.of_keepsWays
    ⟨hd.home, fun a e ha => hd.ways a e fun hb => ha (Address.Below.of_child hb)⟩
  have hdir' := hd.ways _ _ (not_below_self (A ++ [n])) hdir rfl
  exact hroot.follow_child hn fun _ t ht => by simp [hdir'] at ht

/-- A link beside its target, where one more link may be followed. -/
theorem Rooted.locate_link {d : Disk} {p : Path} {A : Address} (h : Rooted (maxLinks - 1) d p A)
    {n t : String} (hn : Path.IsName n) (ht : Path.IsName t)
    (hlink : d.find? (A ++ [n]) = some (.link t)) (hend : ∀ u, d.find? (A ++ [t]) ≠ some (.link u)) :
    d.locate (p.child n) = .ok (A ++ [t]) := by
  have hwalk : d.descend true A [n] = .atLink A t [] := by
    rw [descend, if_neg hn.2.2.1]
    simp [hlink]
  obtain ⟨left, heq⟩ := follow_append true (h.leads d (.refl A d)) h.dir (List.cons_ne_nil n [])
  have hlocate : d.locate (p.child n) =
      d.follow true (maxLinks - 1 + 1) (d.startOf p) (namesOf p ++ [n]) := by
    rw [← startOf_child d p hn, ← namesOf_child p hn]
    rfl
  rw [hlocate, heq 1, follow_of_atLink hwalk, Path.parse_of_isName ht]
  exact follow_singleton ht fun _ => hend

end Disk

end FlowPlan

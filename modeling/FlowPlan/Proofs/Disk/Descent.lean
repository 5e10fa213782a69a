import FlowPlan.Proofs.Disk.Growth

/-!
# Paths with several names

A path may go up as well as down, and on its way there may be links. Its last name is a name all the same,
unless it goes up, and where there are no links it leads where its names lead by themselves. That remains so
if a file takes the place of a link on the way to the directory, for then it leads nowhere.

## Main definitions

* `Path.resolve` — where names lead by themselves.

## Main statements

* `Disk.last_of_locate` — what a path leads to has the last name of the path.
* `Disk.Blunts.opens` — what lies at a name in a directory is still found there or not at all.
* `Disk.Blunts.of_locate_join` — without links below the directory a path leads where its names do.
-/

namespace FlowPlan

namespace Path

/-- Where names lead from a place in a directory, by themselves, if they do not lead out of it. -/
def resolve : List String → List String → Option (List String)
  | a, [] => some a
  | a, n :: ns =>
    if n = ".." then if a = [] then none else resolve a.dropLast ns
    else resolve (a ++ [n]) ns

/-- What follows the last separator is part of the last piece. -/
theorem splitOn_append {c : Char} {ys : List Char} (h : c ∉ ys) (xs : List Char) :
    ∃ front back, xs.splitOn c = front ++ [back] ∧ (xs ++ ys).splitOn c = front ++ [back ++ ys] := by
  induction xs with
  | nil => exact ⟨[], [], rfl, by simp [List.splitOn_eq_singleton h]⟩
  | cons x xs ih =>
    obtain ⟨front, back, hxs, happend⟩ := ih
    unfold List.splitOn at hxs happend ⊢
    rw [List.cons_append, List.splitOnP_cons_eq_if_modifyHead, List.splitOnP_cons_eq_if_modifyHead, hxs, happend]
    split
    · exact ⟨[] :: front, back, rfl, rfl⟩
    · cases front with
      | nil => exact ⟨[], x :: back, rfl, rfl⟩
      | cons piece front => exact ⟨(x :: piece) :: front, back, rfl, rfl⟩

/-- A text whose ending is longer than two points ends in a name. -/
theorem parts_of_ending {text : String} {xs ending : List Char} (h : text.toList = xs ++ ending)
    (hslash : '/' ∉ ending) (hlong : 2 < ending.length) :
    ∃ names n, (parse text).parts = names ++ [n] ∧ n ≠ ".." := by
  obtain ⟨front, back, -, hsplit⟩ := splitOn_append hslash xs
  obtain ⟨n, hn⟩ : ∃ n, n = String.ofList (back ++ ending) := ⟨_, rfl⟩
  have hlength : 2 < n.length := by
    rw [hn, String.length_ofList, List.length_append]
    omega
  have hne : ∀ short : String, short.length ≤ 2 → n ≠ short := by
    rintro _ hshort rfl
    omega
  refine ⟨(front.map String.ofList).filter fun p => p ≠ "" && p ≠ ".", n, ?_, hne _ (by decide)⟩
  have hempty := hne "" (by decide)
  have hpoint := hne "." (by decide)
  simp only [parse, pieces, h, hsplit, List.map_append, List.map_cons, List.map_nil, List.filter_append, ← hn]
  simp [hempty, hpoint]

end Path

namespace Disk

variable {d d' : Disk} {a b c A : Address} {n : String} {names more ns rest : List String} {target : String}
  {last : Bool} {links : Nat} {p q : Path}

/-! ## The last name -/

/-- A link at the end is not followed. -/
theorem descend_singleton (hn : n ≠ "..") : d.descend false a [n] = .arrived (a ++ [n]) := by
  rw [descend, if_neg hn]
  cases hfind : d.find? (a ++ [n]) with
  | none => simp [hfind]
  | some e => cases e <;> simp [hfind, descend]

theorem descend_last (hn : n ≠ "..") (h : d.descend false a (names ++ [n]) = .arrived b) :
    ∃ c, b = c ++ [n] := by
  induction names generalizing a with
  | nil =>
    rw [List.nil_append, descend_singleton hn] at h
    cases h
    exact ⟨a, rfl⟩
  | cons m names ih =>
    rw [List.cons_append, descend] at h
    split at h
    · exact ih h
    · dsimp only at h
      split at h
      · simp at h
      · exact ih h
      · simp at h
      · simp at h

theorem descend_last_link (hn : n ≠ "..") (h : d.descend false a (names ++ [n]) = .atLink b target rest) :
    ∃ more, rest = more ++ [n] := by
  induction names generalizing a with
  | nil =>
    rw [List.nil_append, descend_singleton hn] at h
    cases h
  | cons m names ih =>
    rw [List.cons_append, descend] at h
    split at h
    · exact ih h
    · dsimp only at h
      split at h
      · simp at h
      · exact ih h
      · simp at h
      · simp at h
        exact ⟨names, h.2.2.symm⟩

/-- Links on the way do not change the last name, and the last name itself is not followed. -/
theorem follow_last (hn : n ≠ "..") (h : d.follow false links a (names ++ [n]) = .ok b) :
    ∃ c, b = c ++ [n] := by
  induction links generalizing a names with
  | zero =>
    unfold follow at h
    split at h
    · cases h
      exact descend_last hn ‹_›
    · cases h
    · cases h
  | succ links ih =>
    unfold follow at h
    split at h
    · cases h
      exact descend_last hn ‹_›
    · cases h
    · obtain ⟨more, rfl⟩ := descend_last_link hn ‹_›
      dsimp only at h
      rw [← List.append_assoc] at h
      exact ih h

/-- A path that ends in a name leads to something of that name. -/
theorem last_of_locate (hq : q.isAbsolute = false) (hparts : q.parts = names ++ [n]) (hn : n ≠ "..")
    (h : d.locate (p.join q) false = .ok a) : ∃ c, a = c ++ [n] := by
  unfold locate at h
  rw [namesOf_join p hq, hparts, ← List.append_assoc] at h
  exact follow_last hn h

/-! ## Ways that may have been cut -/

/-- A file comes in the place of anything but a directory. -/
theorem Blunts.put (h : Blunts d d') (hdir : d'.find? a ≠ some .dir) (c : Content) :
    Blunts d (d'.set a (.file c)) := by
  have ha : a ≠ [] := by
    rintro rfl
    exact hdir rfl
  refine ⟨h.home, fun b hb => ?_, fun b t hb => ?_⟩
  · rw [find?_set d' ha, if_neg, h.dirs b hb]
    rintro rfl
    exact hdir (h.dirs a hb)
  · rw [find?_set d' ha]
    split
    · exact .inr ⟨c, rfl⟩
    · exact h.links b t hb

theorem ne_of_isFile (hno : ∀ e, d.find? a = some e → e.isFile = true) {e : Entry} (hb : d.find? b = some e)
    (he : e.isFile = false) : a ≠ b := by
  rintro rfl
  simp [hno e hb] at he

/-- Where there was no directory or link, anything may come or go. -/
theorem Blunts.set (h : Blunts d d') (ha : a ≠ []) (hno : ∀ e, d.find? a = some e → e.isFile = true) (e : Entry) :
    Blunts d (d'.set a e) := by
  refine ⟨h.home, fun b hb => ?_, fun b t hb => ?_⟩
  · rw [find?_set d' ha, if_neg (ne_of_isFile hno hb rfl), h.dirs b hb]
  · rw [find?_set d' ha, if_neg (ne_of_isFile hno hb rfl)]
    exact h.links b t hb

theorem Blunts.erase (h : Blunts d d') (ha : a ≠ []) (hno : ∀ e, d.find? a = some e → e.isFile = true) :
    Blunts d (d'.erase a) := by
  refine ⟨h.home, fun b hb => ?_, fun b t hb => ?_⟩
  · rw [find?_erase d' ha, if_neg (ne_of_isFile hno hb rfl), h.dirs b hb]
  · rw [find?_erase d' ha, if_neg (ne_of_isFile hno hb rfl)]
    exact h.links b t hb

theorem Blunts.grows {d'' : Disk} (h : Blunts d d') (h' : Grows d' d'') : Blunts d d'' where
  home := h'.home.trans h.home
  dirs b hb := h'.ways b .dir (h.dirs b hb) rfl
  links b t hb := by
    rcases h.links b t hb with hlink | ⟨c, hfile⟩
    · exact .inl (h'.ways b _ hlink rfl)
    · exact .inr (h'.files b c hfile)

theorem Blunts.descend_link (h : Blunts d d') (hd : d.descend true a names = .atLink b target rest)
    (hmore : more ≠ []) (last : Bool) :
    d'.descend last a (names ++ more) = .atLink b target (rest ++ more) ∨
      d'.descend last a (names ++ more) = .refused .notDirectory := by
  induction names generalizing a with
  | nil => simp [descend] at hd
  | cons m names ih =>
    unfold descend at hd
    rw [List.cons_append, descend]
    split at hd
    · rename_i hup
      rw [if_pos hup]
      exact ih hd
    · rename_i hup
      rw [if_neg hup]
      simp only at hd ⊢
      split at hd
      · split at hd <;> cases hd
      · rename_i hdir
        rw [h.dirs _ hdir]
        exact ih hd
      · split at hd <;> cases hd
      · rename_i t hlink
        simp at hd
        obtain ⟨rfl, rfl, rfl⟩ := hd
        rcases h.links _ _ hlink with hlink' | ⟨c, hfile⟩
        · rw [hlink']
          exact .inl (if_neg (by simp [hmore]))
        · rw [hfile]
          exact .inr (if_neg (by simp [hmore]))

/-- Names behind a path are followed from the directory that the path led to, or not at all. -/
theorem Blunts.follow_append (h : Blunts d d') (hd : d.follow true links a names = .ok b)
    (hb : d.find? b = some .dir) (hns : ns ≠ []) (hc : d'.follow last links a (names ++ ns) = .ok c) :
    ∃ left, d'.follow last left b ns = .ok c := by
  induction links generalizing a names with
  | zero =>
    unfold Disk.follow at hd
    split at hd
    · rename_i hwalk
      cases hd
      refine ⟨0, ?_⟩
      unfold Disk.follow at hc ⊢
      rwa [← descend_append h last hwalk hb ns]
    · cases hd
    · cases hd
  | succ links ih =>
    unfold Disk.follow at hd
    split at hd
    · rename_i hwalk
      cases hd
      refine ⟨links + 1, ?_⟩
      unfold Disk.follow at hc ⊢
      rwa [← descend_append h last hwalk hb ns]
    · cases hd
    · rename_i hwalk
      rcases h.descend_link hwalk hns last with hlink | hrefused
      · rw [follow_of_atLink hlink, ← List.append_assoc] at hc
        exact ih hd hc
      · unfold Disk.follow at hc
        rw [hrefused] at hc
        cases hc

theorem Blunts.locate_join (h : Blunts d d') (hp : Rooted maxLinks d p A) (hq : q.isAbsolute = false)
    (hne : q.parts ≠ []) (ha : d'.locate (p.join q) last = .ok a) :
    ∃ left, d'.follow last left A q.parts = .ok a := by
  refine h.follow_append (hp.leads d (.refl A d)) hp.dir hne ?_
  have hstart : d'.startOf (p.join q) = d.startOf p := by
    rw [startOf_join d' p hq, startOf, startOf, h.home]
  rw [← hstart, ← namesOf_join p hq]
  exact ha

theorem Blunts.opens (h : Blunts d d') (hp : Rooted maxLinks d p A) : Opens d' p A := by
  intro n hn a ha
  have hparse := Path.parse_of_isName hn
  obtain ⟨left, hfollow⟩ := h.locate_join hp (q := Path.parse n) (by rw [hparse]; rfl) (by simp [hparse]) ha
  rw [hparse] at hfollow
  exact Except.ok.inj (hfollow.symm.trans (follow_singleton hn (by simp)))

/-! ## Paths that go up -/

theorem descend_resolve {d : Disk} {A a b names : Address} {last : Bool}
    (hlinks : ∀ ns t, d.find? (A ++ ns) ≠ some (.link t)) (h : Path.resolve a names = some b) :
    d.descend last (A ++ a) names = .arrived (A ++ b) ∨
      ∃ cause, d.descend last (A ++ a) names = .refused cause := by
  induction names generalizing a with
  | nil =>
    cases h
    exact .inl rfl
  | cons n names ih =>
    unfold Path.resolve at h
    unfold descend
    split at h
    · rename_i hup
      rw [if_pos hup]
      split at h
      · cases h
      · rw [List.dropLast_append_of_ne_nil ‹_›]
        exact ih h
    · rename_i hup
      rw [if_neg hup, List.append_assoc]
      dsimp only
      -- Behind what is no directory no name is followed.
      have hlast : names = [] → A ++ (a ++ [n]) = A ++ b := by
        rintro rfl
        cases h
        rfl
      cases hfind : d.find? (A ++ (a ++ [n])) with
      | none => cases names <;> simp_all
      | some e =>
        cases e with
        | dir => exact ih h
        | file c => cases names <;> simp_all
        | link t => exact absurd hfind (hlinks _ t)

/-- Below a directory without links a path leads where its names do, if they do not lead out of it. -/
theorem Blunts.of_locate_join (h : Blunts d d') (hp : Rooted maxLinks d p A)
    (hlinks : ∀ ns t, d'.find? (A ++ ns) ≠ some (.link t)) (hq : q.isAbsolute = false) (hne : q.parts ≠ [])
    (hresolve : Path.resolve [] q.parts = some b) (ha : d'.locate (p.join q) last = .ok a) : a = A ++ b := by
  obtain ⟨left, hfollow⟩ := h.locate_join hp hq hne ha
  have hwalk : d'.descend last (A ++ []) q.parts = .arrived (A ++ b) ∨ _ := descend_resolve hlinks hresolve
  rw [List.append_nil] at hwalk
  unfold follow at hfollow
  rcases hwalk with hwalk | ⟨cause, hwalk⟩ <;> rw [hwalk] at hfollow <;> cases hfollow
  rfl

end Disk

end FlowPlan

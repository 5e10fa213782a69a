import FlowPlan.Proofs.Disk.Location

/-!
# Operations in a rooted directory

What each operation on the disk does to a child of a rooted directory: the one address that it
changes, and when it is refused.

## Main statements

* `Disk.find?_set`, `Disk.find?_erase` — an address after a change.
* `Disk.Rooted.writeJson`, `Disk.Rooted.readJson` — artifacts.
* `Disk.Rooted.makeDir`, `Disk.Rooted.touch` — directories and files.
* `Disk.Rooted.makeLink`, `Disk.Rooted.moveLink`, `Disk.Rooted.unlink` — links.
-/

namespace FlowPlan.Disk

/-! ## Single changes -/

@[simp] theorem home_set (d : Disk) (a : Address) (e : Entry) : (d.set a e).home = d.home := rfl

@[simp] theorem home_erase (d : Disk) (a : Address) : (d.erase a).home = d.home := rfl

/-- The address that was written reads back; every other address reads as before. -/
theorem find?_set (d : Disk) {a : Address} (ha : a ≠ []) (e : Entry) (b : Address) :
    (d.set a e).find? b = if a = b then some e else d.find? b := by
  cases b with
  | nil => simp [find?, ha]
  | cons n b => exact Assoc.find?_set d.entries a (n :: b) e

theorem find?_erase (d : Disk) {a : Address} (ha : a ≠ []) (b : Address) :
    (d.erase a).find? b = if a = b then none else d.find? b := by
  cases b with
  | nil => simp [find?, ha]
  | cons n b => exact Assoc.find?_erase d.entries a (n :: b)

theorem find?_set_child (d : Disk) (A : Address) (n : String) (e : Entry) (b : Address) :
    (d.set (A ++ [n]) e).find? b = if A ++ [n] = b then some e else d.find? b :=
  find?_set d (by simp) e b

theorem find?_erase_child (d : Disk) (A : Address) (n : String) (b : Address) :
    (d.erase (A ++ [n])).find? b = if A ++ [n] = b then none else d.find? b :=
  find?_erase d (by simp) b

theorem Address.Below.ne_nil {A a : Address} (h : Address.Below A a) : a ≠ [] := by
  obtain ⟨n, rest, rfl⟩ := h
  simp

theorem keepsWays_set {A a : Address} (d : Disk) (e : Entry) (h : Address.Below A a) :
    KeepsWays A d (d.set a e) :=
  ⟨rfl, fun b e' hb he _ => by
    rw [find?_set d (Address.Below.ne_nil h), if_neg (by rintro rfl; exact hb h), he]⟩

theorem keepsWays_erase {A a : Address} (d : Disk) (h : Address.Below A a) :
    KeepsWays A d (d.erase a) :=
  ⟨rfl, fun b e' hb he _ => by
    rw [find?_erase d (Address.Below.ne_nil h), if_neg (by rintro rfl; exact hb h), he]⟩

/-! ## Looking up -/

variable {d : Disk} {p : Path} {A : Address} {n : String}

theorem Rooted.lookup? (h : Rooted maxLinks d p A) : d.lookup? p = some .dir := by
  rw [Disk.lookup?, h.locate]
  exact h.dir

theorem Rooted.lookup?_child (h : Rooted maxLinks d p A) (hn : Path.IsName n) {l : Bool}
    (hl : l = true → ∀ t, d.find? (A ++ [n]) ≠ some (.link t)) :
    d.lookup? (p.child n) l = d.find? (A ++ [n]) := by
  rw [Disk.lookup?, h.locate_child hn hl]

theorem Rooted.isLink_child (h : Rooted maxLinks d p A) (hn : Path.IsName n) :
    d.isLink (p.child n) = true ↔ ∃ t, d.find? (A ++ [n]) = some (.link t) := by
  unfold isLink
  rw [h.lookup?_child hn (by simp)]
  split <;> simp_all

theorem Rooted.exists?_child (h : Rooted maxLinks d p A) (hn : Path.IsName n)
    (hl : ∀ t, d.find? (A ++ [n]) ≠ some (.link t)) :
    d.exists? (p.child n) = (d.find? (A ++ [n])).isSome := by
  unfold exists?
  rw [h.lookup?_child hn fun _ => hl]

/-- Something is there, if only a link that leads nowhere. -/
theorem Rooted.present_child (h : Rooted maxLinks d p A) (hn : Path.IsName n) :
    (d.isLink (p.child n) || d.exists? (p.child n)) = (d.find? (A ++ [n])).isSome := by
  by_cases hl : ∃ t, d.find? (A ++ [n]) = some (.link t)
  · obtain ⟨t, ht⟩ := hl
    simp [(h.isLink_child hn).2 ⟨t, ht⟩, ht]
  · rw [h.exists?_child hn fun t ht => hl ⟨t, ht⟩]
    have : d.isLink (p.child n) = false := by
      simpa using mt (h.isLink_child hn).1 hl
    simp [this]

theorem address_of_clean {a : Address} {last : Bool} (h : p.Clean) (hl : d.locate p last = .ok a) :
    d.address p last = .ok a := by
  unfold address
  rw [checkName_of_nulFree h.nulFree_text, hl]
  rfl

theorem Rooted.address_child (h : Rooted maxLinks d p A) (hn : Path.IsName n)
    (hnul : Path.NulFree n) {last : Bool}
    (hl : last = true → ∀ t, d.find? (A ++ [n]) ≠ some (.link t)) :
    d.address (p.child n) last = .ok (A ++ [n]) :=
  address_of_clean (h.clean.child hn hnul) (h.locate_child hn hl)

theorem readJson_of_address {a : Address} {v : Json} (ha : d.address p = .ok a)
    (hv : d.find? a = some (.file (.json v))) : d.readJson p = .ok v := by
  unfold Disk.readJson readContent
  rw [ha]
  simp [bind, Except.bind, hv, pure, Except.pure, Content.toJson]

theorem Rooted.readJson (h : Rooted maxLinks d p A) (hn : Path.IsName n) (hnul : Path.NulFree n)
    {v : Json} (hv : d.find? (A ++ [n]) = some (.file (.json v))) :
    d.readJson (p.child n) = .ok v :=
  readJson_of_address (h.address_child hn hnul (by simp [hv])) hv

/-! ## Files and directories -/

theorem Rooted.makeDirs (h : Rooted maxLinks d p A) : d.makeDirs p = .ok d := by
  have hdir : d.isDir p = true := by simp [isDir, h.lookup?]
  unfold Disk.makeDirs
  cases p.parts.length <;> simp [makeDirsUp, ensureDir, hdir]

theorem Rooted.replaceWith (h : Rooted maxLinks d p A) (hn : Path.IsName n)
    (hnul : Path.NulFree n) (source : Path) (e : Entry) :
    d.replaceWith source (p.child n) e =
      if d.find? (A ++ [n]) = some .dir then
        .error (.disk .isDirectory source.text (some (p.child n).text))
      else .ok (d.set (A ++ [n]) e) := by
  unfold Disk.replaceWith
  rw [checkName_of_nulFree (h.clean.child hn hnul).nulFree_text, h.locate_child hn (by simp)]
  rfl

/-- An artifact is written unless a directory is in its place. -/
theorem Rooted.writeJson (h : Rooted maxLinks d p A) (hn : Path.IsName n) (hnul : Path.NulFree n)
    (hd : d.find? (A ++ [n]) ≠ some .dir) (v : Json) :
    d.writeJson (p.child n) v = .ok (d.set (A ++ [n]) (.file (.json v.sortKeys))) := by
  unfold Disk.writeJson
  rw [Path.parent_child p hn, h.makeDirs]
  simp [bind, Except.bind, h.replaceWith hn hnul, hd]

theorem of_replaceWith {source target : Path} {e : Entry} {d' : Disk}
    (h : d.replaceWith source target e = .ok d') :
    ∃ a, d.locate target false = .ok a ∧ d.find? a ≠ some .dir ∧ d' = d.set a e := by
  simp only [Disk.replaceWith, bind, Except.bind] at h
  split at h
  · cases h
  · cases ha : d.locate target false with
    | error cause => simp [ha] at h
    | ok a =>
      simp only [ha, pure, Except.pure] at h
      split at h
      · cases h
      · cases h
        exact ⟨a, rfl, ‹_›, rfl⟩

theorem Opens.of_replaceWith (h : Opens d p A) (hn : Path.IsName n) {source : Path}
    {e : Entry} {d' : Disk} (hr : d.replaceWith source (p.child n) e = .ok d') :
    d.find? (A ++ [n]) ≠ some .dir ∧ d' = d.set (A ++ [n]) e := by
  obtain ⟨a, ha, hdir, rfl⟩ := Disk.of_replaceWith hr
  obtain rfl := h n hn a ha
  exact ⟨hdir, rfl⟩

theorem Rooted.of_writeJson (h : Rooted maxLinks d p A) (hn : Path.IsName n) {v : Json}
    {d' : Disk} (hw : d.writeJson (p.child n) v = .ok d') :
    d.find? (A ++ [n]) ≠ some .dir ∧ d' = d.set (A ++ [n]) (.file (.json v.sortKeys)) := by
  unfold Disk.writeJson at hw
  rw [Path.parent_child p hn, h.makeDirs] at hw
  exact h.opens.of_replaceWith hn hw

theorem Rooted.makeDir (h : Rooted maxLinks d p A) (hn : Path.IsName n) (hnul : Path.NulFree n)
    (hf : d.find? (A ++ [n]) = none) : d.makeDir (p.child n) = .ok (d.set (A ++ [n]) .dir) := by
  unfold Disk.makeDir
  rw [h.address_child hn hnul (by simp)]
  simp [bind, Except.bind, hf, h.dir, pure, Except.pure]

/-- A new file is empty. -/
theorem Rooted.touch (h : Rooted maxLinks d p A) (hn : Path.IsName n) (hnul : Path.NulFree n)
    (hf : d.find? (A ++ [n]) = none) :
    d.touch (p.child n) = .ok (d.set (A ++ [n]) (.file (.text ""))) := by
  unfold Disk.touch fileAddress
  rw [h.address_child hn hnul (by simp [hf])]
  simp [bind, Except.bind, hf, h.dir, pure, Except.pure]

theorem Rooted.touch_file (h : Rooted maxLinks d p A) (hn : Path.IsName n)
    (hnul : Path.NulFree n) {c : Content} (hf : d.find? (A ++ [n]) = some (.file c)) :
    d.touch (p.child n) = .ok d := by
  unfold Disk.touch fileAddress
  rw [h.address_child hn hnul (by simp [hf])]
  simp [bind, Except.bind, hf, pure, Except.pure]

theorem home_append (a : Address) (s : String) : (d.append a s).home = d.home := by
  unfold append
  split <;> rfl

/-- Only a file at that very address gains text. -/
theorem find?_append {a : Address} (ha : a ≠ []) (s : String) (b : Address) :
    (d.append a s).find? b = d.find? b ∨
      a = b ∧ ∃ c c', d.find? a = some (.file c) ∧ (d.append a s).find? b = some (.file c') := by
  unfold append
  split
  · rename_i c hc
    by_cases hab : a = b
    · exact .inr ⟨hab, c, _, hc, by rw [find?_set d ha, if_pos hab]⟩
    · exact .inl (by rw [find?_set d ha, if_neg hab])
  · exact .inl rfl

/-! ## Links -/

theorem Rooted.unlink (h : Rooted maxLinks d p A) (hn : Path.IsName n) (hnul : Path.NulFree n)
    {e : Entry} (he : d.find? (A ++ [n]) = some e) :
    d.unlink (p.child n) =
      if e = .dir then refuse .isDirectory (p.child n) else .ok (d.erase (A ++ [n])) := by
  unfold Disk.unlink
  rw [h.address_child hn hnul (by simp)]
  cases e <;> simp [bind, Except.bind, he, pure, Except.pure]

theorem Rooted.makeLink (h : Rooted maxLinks d p A) (hn : Path.IsName n) (hnul : Path.NulFree n)
    (hf : d.find? (A ++ [n]) = none) {t : String} (ht : t ≠ "") (htnul : Path.NulFree t) :
    d.makeLink t (p.child n) = .ok (d.set (A ++ [n]) (.link t)) := by
  unfold Disk.makeLink
  rw [checkName_of_nulFree htnul, h.address_child hn hnul (by simp)]
  simp [bind, Except.bind, hf, ht, pure, Except.pure]

/-- A target that is empty or holds a null character is refused. -/
theorem makeLink_error {t : String} (ht : ¬ (t ≠ "" ∧ Path.NulFree t)) :
    ∃ f, d.makeLink t (p.child n) = .error f := by
  unfold Disk.makeLink checkName
  split
  · exact ⟨_, rfl⟩
  · rename_i hcheck
    have hempty : t = "" := by
      by_cases hne : t = ""
      · exact hne
      · exact absurd ⟨hne, by simpa [Path.NulFree] using hcheck⟩ ht
    subst hempty
    exact ⟨_, rfl⟩

theorem Rooted.moveLink (h : Rooted maxLinks d p A) {m : String} (hn : Path.IsName n)
    (hnul : Path.NulFree n) (hm : Path.IsName m) (hmnul : Path.NulFree m) {t : String}
    (he : d.find? (A ++ [n]) = some (.link t)) :
    d.moveLink (p.child n) (p.child m) =
      if d.find? (A ++ [m]) = some .dir then
        .error (.disk .isDirectory (p.child n).text (some (p.child m).text))
      else .ok ((d.set (A ++ [m]) (.link t)).erase (A ++ [n])) := by
  unfold Disk.moveLink
  rw [h.address_child hn hnul (by simp)]
  by_cases hd : d.find? (A ++ [m]) = some .dir <;>
    simp [bind, Except.bind, he, h.replaceWith hm hmnul, hd, pure, Except.pure]

/-! ## What has happened -/

theorem of_address {p : Path} {a : Address} {last : Bool} (h : d.address p last = .ok a) :
    d.locate p last = .ok a := by
  simp only [address, bind, Except.bind] at h
  split at h
  · cases h
  · split at h
    · cases h; assumption
    · cases h

theorem Opens.of_address (h : Opens d p A) (hn : Path.IsName n) {a : Address}
    (ha : d.address (p.child n) false = .ok a) : a = A ++ [n] := h n hn a (Disk.of_address ha)

theorem Opens.of_unlink (h : Opens d p A) (hn : Path.IsName n) {d' : Disk}
    (hd : d.unlink (p.child n) = .ok d') :
    d.find? (A ++ [n]) ≠ some .dir ∧ d' = d.erase (A ++ [n]) := by
  unfold Disk.unlink at hd
  cases ha : d.address (p.child n) false with
  | error f => simp [ha, bind, Except.bind] at hd
  | ok a =>
    obtain rfl := h.of_address hn ha
    simp only [ha, bind, Except.bind] at hd
    split at hd
    · cases hd
    · rename_i e hdir he
      cases hd
      exact ⟨fun heq => hdir (Option.some.inj (he.symm.trans heq)), rfl⟩
    · cases hd

theorem Opens.of_makeLink (h : Opens d p A) (hn : Path.IsName n) {t : String}
    {d' : Disk} (hd : d.makeLink t (p.child n) = .ok d') :
    d.find? (A ++ [n]) = none ∧ d' = d.set (A ++ [n]) (.link t) := by
  unfold Disk.makeLink at hd
  cases hc : checkName t with
  | error f => simp [hc, bind, Except.bind] at hd
  | ok u =>
    simp only [hc, bind, Except.bind] at hd
    split at hd
    · cases hd
    · cases ha : d.address (p.child n) false with
      | error f => simp [ha] at hd
      | ok a =>
        obtain rfl := h.of_address hn ha
        simp only [ha] at hd
        split at hd
        · cases hd
        · rename_i hnone
          cases hd
          exact ⟨hnone, rfl⟩

theorem Opens.of_moveLink (h : Opens d p A) (hn : Path.IsName n) {m : String}
    (hm : Path.IsName m) {d' : Disk} (hd : d.moveLink (p.child n) (p.child m) = .ok d') :
    ∃ e, d.find? (A ++ [n]) = some e ∧ e ≠ .dir ∧ d.find? (A ++ [m]) ≠ some .dir ∧
      d' = (d.set (A ++ [m]) e).erase (A ++ [n]) := by
  unfold Disk.moveLink at hd
  cases ha : d.address (p.child n) false with
  | error f => simp [ha, bind, Except.bind] at hd
  | ok a =>
    obtain rfl := h.of_address hn ha
    simp only [ha, bind, Except.bind] at hd
    split at hd
    · cases hd
    · rename_i e hne he
      cases hr : d.replaceWith (p.child n) (p.child m) e with
      | error f => simp [hr] at hd
      | ok d₁ =>
        simp only [hr, pure, Except.pure] at hd
        cases hd
        obtain ⟨hdir, rfl⟩ := h.of_replaceWith hm hr
        exact ⟨e, he, fun heq => hne (heq ▸ rfl), hdir, rfl⟩
    · cases hd

end FlowPlan.Disk

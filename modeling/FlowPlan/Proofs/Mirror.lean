import FlowPlan.Proofs.Json.Reordering
import FlowPlan.Proofs.Pointers

/-!
# Pointers as a map

A call to the pointers is many steps: a read, a new file, one link after another. As long as nothing else
writes in the build root, all of them come to one step on a finite map. After every call the file holds
that map, and the links beside it are those of the aliases that are bound, each leading to its key.

## Main definitions

* `Pointers.Request`, `Pointers.Reply` — a call and its answer.
* `Pointers.Request.step` — the call as one step on a map.
* `Pointers.Displayed`, `Pointers.Mirrors` — a build root that shows a map as links, and that holds it.

## Main statements

* `Pointers.Mirrors.update` — an update is one step.
* `Pointers.Request.run_mirrors`, `Pointers.Request.run_unknown` — a call is one step, unless it names an
  unknown alias and does nothing.
* `Pointers.Request.serve_mirrors`, `Pointers.serve_refines` — so are any calls one after another.
-/

namespace FlowPlan.Pointers

open FlowPlan.Action Site

/-! ## Maps -/

/-- A link can lead to the key. -/
def Linkable (key : String) : Prop := key ≠ "" ∧ Path.NulFree key

instance (key : String) : Decidable (Linkable key) := inferInstanceAs (Decidable (_ ∧ _))

/-- An alias can be bound to the key, or it is removed. -/
def Assignable (change : String × Option String) : Prop :=
  change.1 ∈ aliases ∧ ∀ k, change.2 = some k → Linkable k

theorem assignable_none {name : String} (hname : name ∈ aliases) : Assignable (name, none) :=
  ⟨hname, fun _ h => nomatch h⟩

theorem assignable_some {name key : String} (hname : name ∈ aliases) (hkey : Linkable key) :
    Assignable (name, some key) :=
  ⟨hname, fun _ hk => Option.some.inj hk ▸ hkey⟩

/-- What each alias is bound to. -/
abbrev Table := String → Option String

namespace Table

variable {m : Table}

/-- No alias is bound. -/
def empty : Table := fun _ => none

/-- An alias is bound to another key, or to none. -/
def assign (m : Table) (change : String × Option String) : Table := Function.update m change.1 change.2

/-- Another key than the new one becomes the backup. -/
def retire (m : Table) (key : String) : Table :=
  match m compiled with
  | some previous => if previous = key then m else m.assign (compiledBackup, some previous)
  | none => m

theorem assign_of_bound {name : String} {key : Option String} (h : m name = key) : m.assign (name, key) = m := by
  rw [assign, ← h, Function.update_eq_self]

theorem retire_of_bound {key : String} (h : m compiled = some key) : m.retire key = m := by
  simp [retire, h]

/-- The fields of the file that holds the map. -/
def fields (m : Table) : Fields := aliases.filterMap fun n => (m n).map fun key => (n, .str key)

/-- Only aliases are bound, and to keys that a link can lead to. -/
def Fits (m : Table) : Prop := ∀ n k, m n = some k → n ∈ aliases ∧ Linkable k

theorem Fits.eq_none (h : m.Fits) {n : String} (hn : n ∉ aliases) : m n = none :=
  Option.eq_none_iff_forall_ne_some.2 fun k hk => hn (h n k hk).1

theorem fits_empty : empty.Fits := fun _ _ h => nomatch h

theorem Fits.assign (h : m.Fits) {change : String × Option String} (hc : Assignable change) :
    (m.assign change).Fits := by
  intro n k hk
  rw [Table.assign, Function.update_apply] at hk
  split at hk
  · rename_i heq
    exact ⟨heq ▸ hc.1, hc.2 k hk⟩
  · exact h n k hk

theorem Fits.foldl (h : m.Fits) {changes : List (String × Option String)}
    (hc : ∀ c ∈ changes, Assignable c) : (changes.foldl Table.assign m).Fits := by
  induction changes generalizing m with
  | nil => exact h
  | cons change changes ih =>
    exact ih (h.assign (hc _ List.mem_cons_self)) fun c hmem => hc c (List.mem_cons_of_mem change hmem)

theorem find?_fields (h : m.Fits) (n : String) : Assoc.find? m.fields n = (m n).map .str := by
  have hnames : ∀ names : List String, Assoc.find? (names.filterMap fun n => (m n).map fun key =>
      (n, Json.str key)) n = if n ∈ names then (m n).map .str else none := by
    intro names
    induction names with
    | nil => rfl
    | cons name names ih =>
      cases hm : m name with
      | none => grind
      | some key =>
        rw [List.filterMap_cons, hm]
        simp only [Option.map_some, Assoc.find?_cons, ih]
        grind
  rw [fields, hnames]
  split
  · rfl
  · rw [h.eq_none ‹_›]
    rfl

theorem nodup_fields (m : Table) : (Assoc.keys m.fields).Nodup := by
  have hkeys : Assoc.keys m.fields = aliases.filterMap fun n => (m n).map fun _ => n := by
    rw [Assoc.keys, fields, List.map_filterMap]
    simp only [Option.map_map, Function.comp_def]
  rw [hkeys]
  exact List.Nodup.filterMap (by simp_all) (by decide)

end Table

/-! ## Calls -/

/-- A call that may change the bindings. A change to nothing removes the alias. -/
inductive Request where
  | update (changes : List (String × Option String))
  | set (name key : String)
  | remove (name : String)
  | removeIf (name key : String)
  | promote (key : String)

/-- What a call answers: the bindings, nothing, whether the alias was removed, or the key that was the
compiled one. -/
inductive Reply where
  | bindings (f : String → Option Json)
  | done
  | removed (b : Bool)
  | former (key : Option Json)

/-- The value that stands for a key, null for none. -/
def ofKey (key : Option String) : Json := key.elim .null .str

namespace Request

/-- The aliases that the call names. -/
def names : Request → List String
  | update changes => changes.map (·.1)
  | set name _ | remove name | removeIf name _ => [name]
  | promote _ => []

/-- The keys that the call names. -/
def keys : Request → List String
  | update changes => changes.filterMap (·.2)
  | set _ key | removeIf _ key | promote key => [key]
  | remove _ => []

/-- There are aliases of all the names. -/
def Known (q : Request) : Prop := ∀ n ∈ q.names, n ∈ aliases

instance (q : Request) : Decidable q.Known := inferInstanceAs (Decidable (∀ n ∈ q.names, n ∈ aliases))

/-- A link can lead to each of the keys. -/
def Proper (q : Request) : Prop := ∀ k ∈ q.keys, Linkable k

/-- The call itself. -/
def run (p : Pointers) : Request → Session Reply
  | update changes => do
    return .bindings (Assoc.find? (← p.update (changes.map fun c => (c.1, ofKey c.2))))
  | set name key => do
    p.set name (.str key)
    return .done
  | remove name => do
    p.remove name
    return .done
  | removeIf name key => return .removed (← p.removeIf name (.str key))
  | promote key => return .former (← p.promote (.str key)).toOption

/-- The call in one step on a map. -/
def step : Request → Table → Table
  | update changes, m => changes.foldl Table.assign m
  | set name key, m => m.assign (name, some key)
  | remove name, m => m.assign (name, none)
  | removeIf name key, m => if m name = some key then m.assign (name, none) else m
  | promote key, m => (m.retire key).assign (compiled, some key)

/-- What the call answers when the map is this one. -/
def reply : Request → Table → Reply
  | update changes, m => .bindings fun n => (changes.foldl Table.assign m n).map .str
  | set _ _, _ | remove _, _ => .done
  | removeIf name key, m => .removed (m name = some key)
  | promote _, m => .former ((m compiled).map .str)

/-- What the call makes of a map: nothing if it names an unknown alias. -/
def apply (m : Table) (q : Request) : Table := if q.Known then q.step m else m

/-- The site after the calls, whatever they answer. -/
def serve (p : Pointers) (s : Site) (requests : List Request) : Site :=
  requests.foldl (fun s q => ((q.run p).run s).2) s

end Request

/-! ## Build roots that hold a map -/

/-- Beside the file of the pointers there is a link to its key for every alias that the map binds, and
nothing else. -/
structure Displayed (p : Pointers) (A : Address) (m : Table) (s : Site) : Prop where
  ready : Ready p.root A s
  links : ∀ n ∈ aliases, s.disk.find? (A ++ [n]) = (m n).map .link
  rest : ∀ n, n ∉ aliases → n ≠ storeName → s.disk.find? (A ++ [n]) = none

/-- The build root holds the map: in the file of the pointers, which may be missing as long as no alias is
bound, and as links. -/
structure Mirrors (p : Pointers) (A : Address) (m : Table) (s : Site) : Prop extends Displayed p A m s where
  fits : m.Fits
  file : s.disk.find? (A ++ [storeName]) = some (.file (.json (Json.obj m.fields).sortKeys)) ∨
    s.disk.find? (A ++ [storeName]) = none ∧ m = .empty

variable {p : Pointers} {A : Address} {m : Table} {s : Site}

/-- What is read from such a build root. -/
theorem Mirrors.load (h : Mirrors p A m s) : ∃ B, p.load s.disk = .ok B ∧ (Assoc.keys B).Nodup ∧
    ∀ n, Assoc.find? B n = (m n).map .str := by
  rcases h.file with hf | ⟨hf, rfl⟩
  · rw [Json.sortKeys] at hf
    refine ⟨_, load_of_file h.ready.rooted hf, ?_, fun n => ?_⟩
    · have hkeys : (Assoc.keys (Text.sortOn (·.1) (Json.sortKeysFields m.fields))).Nodup := by
        rw [Assoc.keys, ((Text.sortOn_perm _ (Json.sortKeysFields m.fields)).map _).nodup_iff,
          Json.keys_sortKeysFields]
        exact m.nodup_fields
      exact hkeys.sublist (List.filter_sublist.map _)
    · rw [Assoc.find?_filter_key _ (aliases.contains ·), Json.find?_sortKeysFields,
        Table.find?_fields h.fits, Option.map_map]
      by_cases hn : n ∈ aliases
      · simp [hn, Function.comp_def, Json.sortKeys]
      · simp [hn, h.fits.eq_none hn]
  · exact ⟨[], load_of_absent h.ready.rooted hf, List.nodup_nil, fun n => rfl⟩

/-! ## Updates -/

theorem find?_rebind_ofKey {B : Bindings} (hB : ∀ n, Assoc.find? B n = (m n).map .str)
    (change : String × Option String) (n : String) :
    Assoc.find? (rebind B (change.1, ofKey change.2)) n = (m.assign change n).map .str := by
  obtain ⟨name, key⟩ := change
  rw [find?_rebind, hB, Table.assign, Function.update_apply]
  cases key <;> grind [ofKey, Json.toOption]

theorem nodup_rebind {B : Bindings} (h : (Assoc.keys B).Nodup) (change : String × Json) :
    (Assoc.keys (rebind B change)).Nodup := by
  unfold rebind
  split
  · exact h.sublist (List.filter_sublist.map _)
  · exact Assoc.nodup_set h _ _

/-- The changes are made to the bindings as to the map. -/
theorem foldl_rebind {B : Bindings} (hnodup : (Assoc.keys B).Nodup)
    (hB : ∀ n, Assoc.find? B n = (m n).map .str) (changes : List (String × Option String)) :
    (Assoc.keys ((changes.map fun c => (c.1, ofKey c.2)).foldl rebind B)).Nodup ∧
      ∀ n, Assoc.find? ((changes.map fun c => (c.1, ofKey c.2)).foldl rebind B) n =
        (changes.foldl Table.assign m n).map .str := by
  induction changes generalizing B m with
  | nil => exact ⟨hnodup, hB⟩
  | cons change changes ih => exact ih (nodup_rebind hnodup _) (find?_rebind_ofKey hB change)

theorem temporary_notMem {n : String} (hn : n ∈ aliases) : Path.temporary n ∉ aliases := by
  revert n
  decide

/-- One link has changed, and nothing else. -/
theorem Displayed.of_differs {s' : Site} {change : String × Option String} (h : Displayed p A m s)
    (hal : change.1 ∈ aliases) (hdiff : Differs (· = A ++ [change.1]) s s')
    (hlink : s'.disk.find? (A ++ [change.1]) = change.2.map .link) : Displayed p A (m.assign change) s' := by
  have hkept : ∀ n, n ≠ change.1 → s'.disk.find? (A ++ [n]) = s.disk.find? (A ++ [n]) := fun n hn =>
    hdiff.find? (by simpa using hn) (h.ready.not_isLog_child n)
  refine ⟨hdiff.ready h.ready (by rintro a rfl; exact Disk.below_child A _), fun n hn => ?_, fun n hn hstore => ?_⟩
  · rw [Table.assign, Function.update_apply]
    split
    · rename_i heq
      rw [heq, hlink]
    · rw [hkept n ‹_›, h.links n hn]
  · rw [hkept n (by rintro rfl; exact hn hal), h.rest n hn hstore]

theorem Displayed.updateLink (h : Displayed p A m s) {change : String × Option String} (hc : Assignable change) :
    ∃ t, (p.updateLink (change.1, ofKey change.2)).run s = (.ok (), t) ∧
      Differs (· = A ++ [change.1]) s t ∧ Displayed p A (m.assign change) t := by
  obtain ⟨name, key⟩ := change
  obtain ⟨hal, hkey⟩ := hc
  obtain ⟨hname, hnul⟩ := isName_of_alias name hal
  have hlink := h.links name hal
  cases key with
  | none =>
    unfold Pointers.updateLink ofKey
    dsimp only [Option.elim_none]
    rw [Session.run_read_total]
    cases hm : m name with
    | none =>
      rw [hm] at hlink
      have hnolink : s.disk.isLink (p.root.child name) = false := by
        refine Bool.eq_false_of_not_eq_true fun hl => ?_
        obtain ⟨t, ht⟩ := (h.ready.rooted.isLink_child hname).1 hl
        rw [hlink] at ht
        cases ht
      rw [hnolink]
      exact ⟨s, rfl, .refl _ s, h.of_differs hal (.refl _ s) hlink⟩
    | some k =>
      rw [hm] at hlink
      have hunlink := h.ready.rooted.unlink hname hnul hlink
      rw [if_neg (by simp)] at hunlink
      have hdiff := differs_erase s (a := A ++ [name]) (by simp)
      rw [(h.ready.rooted.isLink_child hname).2 ⟨k, hlink⟩, if_pos rfl]
      exact ⟨_, Session.run_write_ok hunlink, hdiff,
        h.of_differs hal hdiff (by simp [Disk.find?_erase_child])⟩
  | some k =>
    obtain ⟨t, hrun, hdiff, -, hnew⟩ := bindLink_new h.ready.rooted hname hnul (hkey k rfl)
      (by rw [hlink]; cases m name <;> simp)
      (h.rest _ (temporary_notMem hal) (ne_storeName_of_alias name hal).2)
    exact ⟨t, (congrArg (·.run s) (updateLink_of_ne_null p name (by simp))).trans hrun, hdiff,
      h.of_differs hal hdiff hnew⟩

theorem Displayed.updateLinks {changes : List (String × Option String)} (h : Displayed p A m s)
    (hc : ∀ c ∈ changes, Assignable c) :
    ∃ t, ((changes.map fun c => (c.1, ofKey c.2)).forM p.updateLink).run s = (.ok (), t) ∧
      Differs (fun a => ∃ n ∈ aliases, a = A ++ [n]) s t ∧ Displayed p A (changes.foldl Table.assign m) t := by
  induction changes generalizing m s with
  | nil => exact ⟨s, rfl, .refl _ s, h⟩
  | cons change changes ih =>
    have hfirst := hc _ List.mem_cons_self
    obtain ⟨s₁, hrun₁, hdiff₁, h₁⟩ := h.updateLink hfirst
    obtain ⟨t, hrun, hdiff, ht⟩ := ih h₁ fun c hmem => hc c (List.mem_cons_of_mem change hmem)
    rw [List.map_cons, forM_cons]
    exact ⟨t, (run_bind_ok hrun₁).trans hrun, (hdiff₁.mono fun a ha => ⟨_, hfirst.1, ha⟩).trans hdiff, ht⟩

/-- An update is one step: the file holds the new map, and the links show it. -/
theorem Mirrors.update (hlinks : p.links = true) (h : Mirrors p A m s)
    (changes : List (String × Option String)) (hc : ∀ c ∈ changes, Assignable c) :
    ∃ B t, (p.update (changes.map fun c => (c.1, ofKey c.2))).run s = (.ok B, t) ∧
      Assoc.find? B = (fun n => (changes.foldl Table.assign m n).map .str) ∧
      Mirrors p A (changes.foldl Table.assign m) t := by
  obtain ⟨B, hload, hnodup, hB⟩ := h.load
  obtain ⟨hnodup', hB'⟩ := foldl_rebind hnodup hB changes
  obtain ⟨B', hB''⟩ : ∃ B', B' = (changes.map fun c => (c.1, ofKey c.2)).foldl rebind B := ⟨_, rfl⟩
  rw [← hB''] at hnodup' hB'
  obtain ⟨m', hm'⟩ : ∃ m', m' = changes.foldl Table.assign m := ⟨_, rfl⟩
  have hfits : m'.Fits := hm' ▸ h.fits.foldl hc
  -- The file is written.
  have hwrite := h.ready.rooted.writeJson isName_storeName.1 isName_storeName.2
    (not_dir_of_load h.ready.rooted hload) (.obj B')
  obtain ⟨s₁, hs₁⟩ : ∃ s₁ : Site, s₁ = { s with
    disk := s.disk.set (A ++ [storeName]) (.file (.json (Json.obj B').sortKeys)) } := ⟨_, rfl⟩
  have hdiff₁ : Differs (· = A ++ [storeName]) s s₁ := hs₁ ▸ differs_set s (by simp) _
  have hkept : ∀ n, n ≠ storeName → s₁.disk.find? (A ++ [n]) = s.disk.find? (A ++ [n]) := fun n hn =>
    hdiff₁.find? (by simpa using hn) (h.ready.not_isLog_child n)
  have hlinked : Displayed p A m s₁ :=
    ⟨hdiff₁.ready h.ready (by rintro a rfl; exact Disk.below_child A _),
      fun n hn => (hkept n (ne_storeName_of_alias n hn).1).trans (h.links n hn),
      fun n hn hstore => (hkept n hstore).trans (h.rest n hn hstore)⟩
  -- The links are made.
  obtain ⟨s₂, hrun₂, hdiff₂, hlinked₂⟩ := hlinked.updateLinks hc
  obtain ⟨s₃, hrun₃, hdiff₃⟩ := Session.debug_run logger "Pointers updated" (some "pointers_updated")
    (some (.obj (changes.map fun c => (c.1, ofKey c.2)))) s₂
  have hlast : ∀ n, s₃.disk.find? (A ++ [n]) = s₂.disk.find? (A ++ [n]) := fun n =>
    hdiff₃.find? (by simp) (hlinked₂.ready.not_isLog_child n)
  refine ⟨B', s₃, ?_, funext (hm' ▸ hB'), hm' ▸ ?_⟩
  · unfold Pointers.update
    rw [run_bind_ok (checkAliases_run (List.forall_mem_map.2 fun c hmem => (hc c hmem).1) s), Pointers.read,
      Session.run_read_ok hload,
      run_bind_ok (Session.makeDirs_run h.ready.rooted), ← hB'',
      run_bind_ok (Session.run_write_ok (f := (·.writeJson p.path (.obj B'))) hwrite), ← hs₁, hlinks,
      if_pos rfl, run_bind_ok hrun₂, run_bind_ok hrun₃]
    rfl
  · refine ⟨⟨hdiff₃.ready hlinked₂.ready (by simp), fun n hn => ?_, fun n hn hstore => ?_⟩, hfits, .inl ?_⟩
    · rw [hlast, hlinked₂.links n hn, hm']
    · rw [hlast, hlinked₂.rest n hn hstore]
    · have hstore : s₂.disk.find? (A ++ [storeName]) = s₁.disk.find? (A ++ [storeName]) := by
        refine hdiff₂.find? ?_ (hlinked.ready.not_isLog_child _)
        rintro ⟨n, hn, heq⟩
        exact (ne_storeName_of_alias n hn).1 (by simpa using heq.symm)
      have halike : (Json.obj B').Alike (.obj m'.fields) :=
        Json.alike_of_find? hnodup' m'.nodup_fields fun n => by
          rw [hB', Table.find?_fields hfits, hm']
      rw [hlast, hstore, hs₁, Disk.find?_set_child, if_pos rfl, halike]

/-! ## Single calls -/

theorem Mirrors.set (hlinks : p.links = true) (h : Mirrors p A m s) {name : String} {key : Option String}
    (hc : Assignable (name, key)) :
    ∃ t, (p.set name (ofKey key)).run s = (.ok (), t) ∧ Mirrors p A (m.assign (name, key)) t := by
  obtain ⟨B, t, hrun, -, ht⟩ := h.update hlinks [(name, key)] (by simpa using hc)
  exact ⟨t, run_bind_ok hrun, ht⟩

theorem Mirrors.get (h : Mirrors p A m s) {name : String} (hname : name ∈ aliases) :
    (p.get name).run s = (.ok (ofKey (m name)), s) := by
  obtain ⟨B, hload, -, hB⟩ := h.load
  rw [get_run hload hname, hB]
  cases m name <;> rfl

theorem same_ofKey {key : Option String} {k : String} : Json.same (ofKey key) (.str k) = true ↔ key = some k := by
  rw [Json.same_str]
  cases key <;> simp [ofKey]

theorem Mirrors.removeIf (hlinks : p.links = true) (h : Mirrors p A m s) {name : String}
    (hname : name ∈ aliases) (key : String) :
    ∃ t, (p.removeIf name (.str key)).run s = (.ok (decide (m name = some key)), t) ∧
      Mirrors p A (if m name = some key then m.assign (name, none) else m) t := by
  unfold Pointers.removeIf
  rw [run_bind_ok (h.get hname)]
  by_cases hbound : m name = some key
  · obtain ⟨t, hrun, ht⟩ := h.set hlinks (assignable_none hname)
    rw [if_pos (same_ofKey.2 hbound)]
    refine ⟨t, ?_, by rwa [if_pos hbound]⟩
    rw [decide_eq_true hbound]
    exact run_bind_ok hrun
  · rw [if_neg (mt same_ofKey.1 hbound)]
    exact ⟨s, by rw [decide_eq_false hbound]; rfl, by rwa [if_neg hbound]⟩

theorem Mirrors.promote (hlinks : p.links = true) (h : Mirrors p A m s) {key : String} (hkey : Linkable key) :
    ∃ t, (p.promote (.str key)).run s = (.ok (ofKey (m compiled)), t) ∧
      Mirrors p A ((m.retire key).assign (compiled, some key)) t := by
  have hbind : Assignable (compiled, some key) := assignable_some (by decide) hkey
  -- The former key is retired in a step of its own, if at all.
  by_cases hretired : ∃ previous, m compiled = some previous ∧ previous ≠ key
  · obtain ⟨previous, hm, hne⟩ := hretired
    have hbackup : Assignable (compiledBackup, some previous) := assignable_some (by decide) (h.fits _ _ hm).2
    obtain ⟨s₁, hrun₁, h₁⟩ := h.set hlinks hbackup
    obtain ⟨t, hrun, ht⟩ := h₁.set hlinks hbind
    refine ⟨t, ?_, by simpa [Table.retire, hm, hne] using ht⟩
    have hother : Json.same (ofKey (m compiled)) (.str key) = false := by
      rw [Bool.eq_false_iff, ne_eq, same_ofKey, hm]
      simpa using hne
    unfold Pointers.promote
    rw [run_bind_ok (h.get (by decide)), if_pos (by rw [hother, hm]; rfl), hm]
    exact (run_bind_ok hrun₁).trans (run_bind_ok hrun)
  · have hkept : m.retire key = m := by
      unfold Table.retire
      grind
    obtain ⟨t, hrun, ht⟩ := h.set hlinks hbind
    refine ⟨t, ?_, by rwa [hkept]⟩
    unfold Pointers.promote
    rw [run_bind_ok (h.get (by decide)), if_neg]
    · exact run_bind_ok hrun
    · cases hm : m compiled with
      | none => simp [ofKey]
      | some previous =>
        have hsame : Json.same (ofKey (some previous)) (.str key) = true := same_ofKey.2 (by grind)
        simp [hsame]

namespace Request

variable {q : Request}

/-- A call that names only aliases is one step on the map, and answers what the map says. -/
theorem run_mirrors (hlinks : p.links = true) (h : Mirrors p A m s) (hq : q.Proper) (hknown : q.Known) :
    ∃ t, (q.run p).run s = (.ok (q.reply m), t) ∧ Mirrors p A (q.step m) t := by
  cases q with
  | update changes =>
    obtain ⟨B, t, hrun, hB, ht⟩ := h.update hlinks changes fun c hc =>
      ⟨hknown _ (List.mem_map_of_mem hc), fun k hk => hq k (List.mem_filterMap.2 ⟨c, hc, hk⟩)⟩
    refine ⟨t, (run_bind_ok hrun).trans ?_, ht⟩
    rw [hB]
    rfl
  | set name key =>
    obtain ⟨t, hrun, ht⟩ := h.set hlinks
      (assignable_some (hknown name (by simp [names])) (hq key (by simp [keys])))
    exact ⟨t, run_bind_ok hrun, ht⟩
  | remove name =>
    obtain ⟨t, hrun, ht⟩ := h.set hlinks (assignable_none (hknown name (by simp [names])))
    exact ⟨t, run_bind_ok hrun, ht⟩
  | removeIf name key =>
    obtain ⟨t, hrun, ht⟩ := h.removeIf hlinks (hknown name (by simp [names])) key
    exact ⟨t, run_bind_ok hrun, ht⟩
  | promote key =>
    obtain ⟨t, hrun, ht⟩ := h.promote hlinks (hq key (by simp [keys]))
    have hreply : (promote key).reply m = .former (ofKey (m compiled)).toOption := by
      simp only [reply]
      cases m compiled <;> rfl
    exact ⟨t, hreply ▸ run_bind_ok hrun, ht⟩

theorem get_unknown (p : Pointers) {name : String} (hname : name ∉ aliases) (s : Site) :
    ∃ text, (p.get name).run s = (.error (.unknownAlias text), s) := by
  unfold Pointers.get checkAlias
  rw [if_neg (by simpa using hname)]
  exact ⟨_, rfl⟩

theorem update_unknown (p : Pointers) {changes : Bindings} (h : ∃ c ∈ changes, c.1 ∉ aliases) (s : Site) :
    ∃ text, (p.update changes).run s = (.error (.unknownAlias text), s) := by
  have hcheck : ∃ text, (changes.forM fun change => (Action.lift (checkAlias change.1) : Session Unit)).run s =
      (.error (.unknownAlias text), s) := by
    induction changes with
    | nil => simp at h
    | cons change changes ih =>
      rw [forM_cons]
      by_cases hal : change.1 ∈ aliases
      · obtain ⟨text, hrun⟩ := ih (by simpa [hal] using h)
        have hcheck : checkAlias change.1 = .ok () := by simp [checkAlias, hal]
        exact ⟨text, by rw [hcheck, Action.lift_ok_bind, hrun]⟩
      · unfold checkAlias
        rw [if_neg (by simpa using hal)]
        exact ⟨_, rfl⟩
  obtain ⟨text, hrun⟩ := hcheck
  exact ⟨text, run_bind_error hrun⟩

/-- A call that names an unknown alias does nothing. -/
theorem run_unknown (hknown : ¬ q.Known) (s : Site) :
    ∃ text, (q.run p).run s = (.error (.unknownAlias text), s) := by
  unfold Known at hknown
  push Not at hknown
  obtain ⟨n, hn, hal⟩ := hknown
  cases q with
  | update changes =>
    obtain ⟨c, hc, rfl⟩ := List.mem_map.1 hn
    have hunknown : ∃ d ∈ changes.map fun c => (c.1, ofKey c.2), d.1 ∉ aliases :=
      ⟨_, List.mem_map_of_mem hc, hal⟩
    obtain ⟨text, hrun⟩ := update_unknown p hunknown s
    exact ⟨text, run_bind_error hrun⟩
  | set name key =>
    obtain rfl : n = name := by simpa [names] using hn
    have hunknown : ∃ d ∈ [(n, Json.str key)], d.1 ∉ aliases := ⟨_, List.mem_cons_self, hal⟩
    obtain ⟨text, hrun⟩ := update_unknown p hunknown s
    exact ⟨text, run_bind_error (run_bind_error hrun)⟩
  | remove name =>
    obtain rfl : n = name := by simpa [names] using hn
    have hunknown : ∃ d ∈ [(n, Json.null)], d.1 ∉ aliases := ⟨_, List.mem_cons_self, hal⟩
    obtain ⟨text, hrun⟩ := update_unknown p hunknown s
    exact ⟨text, run_bind_error (run_bind_error hrun)⟩
  | removeIf name key =>
    obtain rfl : n = name := by simpa [names] using hn
    obtain ⟨text, hrun⟩ := get_unknown p hal s
    exact ⟨text, run_bind_error (run_bind_error hrun)⟩
  | promote key => simp [names] at hn

/-- Whatever is called, the build root holds the map. -/
theorem serve_mirrors (hlinks : p.links = true) (h : Mirrors p A m s) {requests : List Request}
    (hproper : ∀ q ∈ requests, q.Proper) : Mirrors p A (requests.foldl apply m) (serve p s requests) := by
  induction requests generalizing m s with
  | nil => exact h
  | cons q requests ih =>
    have hstep : Mirrors p A (apply m q) ((q.run p).run s).2 := by
      unfold apply
      split
      · obtain ⟨t, hrun, ht⟩ := run_mirrors hlinks h (hproper q List.mem_cons_self) ‹_›
        rwa [hrun]
      · obtain ⟨text, hrun⟩ := run_unknown (p := p) ‹¬ q.Known› s
        rwa [hrun]
    exact ih hstep fun q' hq' => hproper q' (List.mem_cons_of_mem q hq')

theorem step_promote (key : String) (m : Table) :
    (promote key).step m = (m.retire key).assign (compiled, some key) := rfl

theorem step_promote_compiled (key : String) (m : Table) : (promote key).step m compiled = some key := by
  rw [step_promote, Table.assign, Function.update_self]

/-- A second promotion of the same key changes nothing. -/
theorem step_promote_twice (key : String) (m : Table) :
    (promote key).step ((promote key).step m) = (promote key).step m := by
  have hbound := step_promote_compiled key m
  rw [step_promote key ((promote key).step m), Table.retire_of_bound hbound, Table.assign_of_bound hbound]

end Request

/-- What lies in a build root that holds a map is determined by it, once an alias is bound. -/
theorem Mirrors.find?_eq {t : Site} (h : Mirrors p A m s) (ht : Mirrors p A m t) (hm : m ≠ .empty) (n : String) :
    t.disk.find? (A ++ [n]) = s.disk.find? (A ++ [n]) := by
  by_cases hn : n ∈ aliases
  · rw [ht.links n hn, h.links n hn]
  by_cases hstore : n = storeName
  · subst hstore
    rw [ht.file.resolve_right fun hf => hm hf.2, h.file.resolve_right fun hf => hm hf.2]
  · rw [ht.rest n hn hstore, h.rest n hn hstore]

theorem mirrors_empty (hs : Ready p.root A s) (hempty : ∀ n, s.disk.find? (A ++ [n]) = none) :
    Mirrors p A .empty s :=
  ⟨⟨hs, fun n _ => hempty n, fun n _ _ => hempty n⟩, Table.fits_empty, .inr ⟨hempty _, rfl⟩⟩

/-- Pointers that are shown as links are a finite map, whatever is called in a build root that was empty: the
file holds the map on which every call was one step, and the links are those of the aliases that are bound.
The next call answers what the map says, or fails and does nothing if it names an unknown alias. Promoting a
key twice comes to the same as promoting it once. -/
theorem serve_refines (hlinks : p.links = true) (hs : Ready p.root A s)
    (hempty : ∀ n, s.disk.find? (A ++ [n]) = none) (requests : List Request)
    (hproper : ∀ q ∈ requests, q.Proper) :
    Mirrors p A (requests.foldl Request.apply .empty) (Request.serve p s requests) ∧
    (∀ q : Request, q.Proper →
      if q.Known then
        ((q.run p).run (Request.serve p s requests)).1 = .ok (q.reply (requests.foldl Request.apply .empty))
      else ∃ text, (q.run p).run (Request.serve p s requests) =
        (.error (.unknownAlias text), Request.serve p s requests)) ∧
    ∀ key, Linkable key → ∀ n,
      (Request.serve p s (requests ++ [.promote key, .promote key])).disk.find? (A ++ [n]) =
        (Request.serve p s (requests ++ [.promote key])).disk.find? (A ++ [n]) := by
  have hserved := Request.serve_mirrors hlinks (mirrors_empty hs hempty) hproper
  refine ⟨hserved, fun q hq => ?_, fun key hkey n => ?_⟩
  · split
    · obtain ⟨t, hrun, -⟩ := Request.run_mirrors hlinks hserved hq ‹_›
      rw [hrun]
    · exact Request.run_unknown ‹_› _
  · have hpromote : (Request.promote key).Proper := by simpa [Request.Proper, Request.keys] using hkey
    have hknown : (Request.promote key).Known := by simp [Request.Known, Request.names]
    obtain ⟨t, hrun, ht⟩ := Request.run_mirrors hlinks hserved hpromote hknown
    obtain ⟨t', hrun', ht'⟩ := Request.run_mirrors hlinks ht hpromote hknown
    rw [Request.step_promote_twice] at ht'
    have hserve : Request.serve p s (requests ++ [.promote key]) = t := by
      rw [Request.serve, List.foldl_append]
      exact congrArg Prod.snd hrun
    have hserve' : Request.serve p s (requests ++ [.promote key, .promote key]) = t' := by
      rw [List.append_cons, Request.serve, List.foldl_append]
      exact (congrArg (fun s => ((Request.run p (.promote key)).run s).2) hserve).trans (congrArg Prod.snd hrun')
    rw [hserve, hserve']
    refine ht.find?_eq ht' (fun hm => ?_) n
    have hbound := Request.step_promote_compiled key (requests.foldl Request.apply .empty)
    rw [hm] at hbound
    cases hbound

/-- The first key is the backup once the second has been promoted. -/
theorem serve_refines_bare : let p : Pointers := ⟨⟨"/", ["p"]⟩, true⟩
    let s : Site := .ofDisk ⟨[(["/"], .dir), (["/", "p"], .dir)], []⟩ ⟨2024, 3, 1, 10, 0, 0, 0, none⟩
    (((Request.removeIf compiledBackup "a").run p).run
      (Request.serve p s [.promote "a", .set "former" "a", .promote "b"])).1 = .ok (.removed true) := by
  intro p s
  have hrooted : Disk.Rooted Disk.maxLinks s.disk p.root ["/", "p"] :=
    .of_dirs _ (by unfold Path.Clean; decide +kernel) rfl (by decide +kernel) fun k hk => by
      have hle : k ≤ 2 := hk
      interval_cases k <;> rfl
  have hempty : ∀ n, s.disk.find? (["/", "p"] ++ [n]) = none := by
    intro n
    simp [s, Site.ofDisk, Disk.find?, Assoc.find?_cons]
  have hserved := (serve_refines rfl (ready_of_journal hrooted rfl) hempty
    [.promote "a", .set "former" "a", .promote "b"]
    (by simp only [List.forall_mem_cons]; unfold Request.Proper; decide)).2.1 (.removeIf compiledBackup "a")
    (by unfold Request.Proper; decide)
  rw [if_pos (by decide)] at hserved
  rw [hserved]
  have hbound : ([.promote "a", .set "former" "a", .promote "b"] : List Request).foldl Request.apply .empty
      compiledBackup = some "a" := by decide
  simp only [Request.reply, hbound, decide_true]

end FlowPlan.Pointers

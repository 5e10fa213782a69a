import FlowPlan.Proofs.Document.Definition
import Mathlib

/-!
# Nodes and entries

A node is written as an entry and read from one. A node with its own payload is read back as it was
written. An entry is written back as it was read, but for what a node does not hold: whether an empty list
was left out, and all relations written but the first.

## Main definitions

* `Node.Separate` — the payload says nothing about the plan.
* `Node.Regular`, `Node.Complete` — the derived fields of an entry that can be read, and those of one that
  can be written back.
* `Node.normal?` — what an entry binds once it has been read and written.

## Main statements

* `Node.ofEntry_toEntry` — a node is read back.
* `Node.find?_toEntry_ofEntry` — an entry is written back in its normal form.
* `Node.entries_encode` — nodes and entries encode each other.
-/

namespace FlowPlan

namespace Assoc

variable {κ : Type u} {α : Type v} [DecidableEq κ]

/-- Maps that bind the same are the same up to the order of their entries. -/
theorem perm_of_find? {m m' : Assoc κ α} (h : (keys m).Nodup) (h' : (keys m').Nodup)
    (hfind : ∀ k, find? m k = find? m' k) : m.Perm m' := by
  refine (List.perm_ext_iff_of_nodup (h.of_map _) (h'.of_map _)).2 fun e => ?_
  exact ⟨fun he => mem_of_find? (hfind e.1 ▸ find?_of_mem h he),
    fun he => mem_of_find? ((hfind e.1).symm ▸ find?_of_mem h' he)⟩

end Assoc

namespace Node

variable {n : Node} {fs : Fields} {name field : String} {v : Json}

/-- The payload says nothing about the plan. -/
def Separate (n : Node) : Prop := ∀ k ∈ derivedFields, k ∉ Assoc.keys n.payload

instance (n : Node) : Decidable n.Separate := inferInstanceAs (Decidable (∀ k ∈ _, _))

/-! ## Reading -/

theorem outputOf_cons (v : Json) (vs : List Json) : outputOf (.arr (v :: vs)) = .ok v.toOption := by
  have hfirst : (Json.arr (v :: vs)).lookup (.int 0) = .ok v := by
    simp [Json.lookup, Json.position?, Json.index?]
  unfold outputOf
  rw [if_pos (by rfl), hfirst]
  rfl

/-- What is read says nothing about the plan in its payload. -/
theorem separate_of_ofEntry {entry : Json} (h : ofEntry name entry = .ok n) : n.Separate := by
  simp only [ofEntry, Attempt.bind_eq_ok] at h
  obtain ⟨_, -, _, -, _, -, _, -, _, -, _, -, _, -, h⟩ := h
  cases h
  intro k hk hmem
  obtain ⟨e, he, rfl⟩ := List.mem_map.1 hmem
  simpa [hk] using (List.mem_filter.1 he).2

/-! ## Writing -/

theorem find?_toEntry (h : n.Separate) (k : String) : Assoc.find? n.toEntry k =
    if k = outputField then n.output.map fun r => .arr [r]
    else if k = inputField then some (.arr n.inputs)
    else if k = dependenciesField then some (.arr n.dependencies)
    else Assoc.find? n.payload k := by
  have hnone : Assoc.find? n.payload outputField = none :=
    Assoc.find?_eq_none_iff.2 (h outputField (by decide))
  unfold toEntry
  cases n.output with
  | none =>
    rw [Assoc.find?_set, Assoc.find?_set]
    by_cases hk : k = outputField
    · rw [if_pos hk, hk, if_neg (by decide), if_neg (by decide), hnone, Option.map_none]
    · simp only [if_neg hk, eq_comm]
  | some r =>
    rw [Assoc.find?_set, Assoc.find?_set, Assoc.find?_set]
    simp only [Option.map_some, eq_comm]

theorem nodup_toEntry (h : (Assoc.keys n.payload).Nodup) : (Assoc.keys n.toEntry).Nodup := by
  unfold toEntry
  have hlists := Assoc.nodup_set (Assoc.nodup_set h dependenciesField (.arr n.dependencies)) inputField
    (.arr n.inputs)
  cases n.output with
  | none => exact hlists
  | some r => exact Assoc.nodup_set hlists outputField _

/-- The payload is found again in front of the derived fields. -/
theorem filter_toEntry (h : n.Separate) : n.toEntry.filter (!derivedFields.contains ·.1) = n.payload := by
  have hpayload : n.payload.filter (!derivedFields.contains ·.1) = n.payload := by
    refine List.filter_eq_self.2 fun e he => ?_
    simpa using fun hk => h e.1 hk (List.mem_map_of_mem he)
  have hset : ∀ (m : Fields) (k : String) (v : Json), k ∈ derivedFields →
      (Assoc.set m k v).filter (!derivedFields.contains ·.1) = m.filter (!derivedFields.contains ·.1) := by
    intro m k v hk
    induction m with
    | nil => simp [Assoc.set, hk]
    | cons e m ih =>
      rw [Assoc.set]
      split
      · rename_i he
        rw [List.filter_cons_of_neg (by simpa using hk), List.filter_cons_of_neg (by simpa [he] using hk)]
      · rw [List.filter_cons, List.filter_cons, ih]
  unfold toEntry
  cases n.output with
  | none => rw [hset _ _ _ (by decide), hset _ _ _ (by decide), hpayload]
  | some r => rw [hset _ _ _ (by decide), hset _ _ _ (by decide), hset _ _ _ (by decide), hpayload]

/-- A node is read back as it was written, under any name. -/
theorem ofEntry_toEntry (h : n.Separate) (hnull : n.output ≠ some .null) (name : String) :
    ofEntry name (.obj n.toEntry) = .ok { n with name := name } := by
  have houtput : outputOf ((Assoc.find? n.toEntry outputField).getD .null) = .ok n.output := by
    rw [find?_toEntry h, if_pos rfl]
    cases hr : n.output with
    | none => rfl
    | some r =>
      have hr' : r ≠ .null := fun heq => hnull (hr.trans (congrArg some heq))
      exact (outputOf_cons r []).trans (congrArg Except.ok (Json.toOption_of_ne_null hr'))
  have hdependencies : (Assoc.find? n.toEntry dependenciesField).getD (.arr []) = .arr n.dependencies := by
    rw [find?_toEntry h, if_neg (by decide), if_neg (by decide), if_pos rfl, Option.getD_some]
  have hinputs : (Assoc.find? n.toEntry inputField).getD (.arr []) = .arr n.inputs := by
    rw [find?_toEntry h, if_neg (by decide), if_pos rfl, Option.getD_some]
  rw [ofEntry_obj hdependencies hinputs houtput, filter_toEntry h]

/-! ## Entries -/

/-- The two lists of an entry name things if they are there, and so does the list of what is written, which may
also be null. -/
structure Regular (fs : Fields) : Prop where
  lists : ∀ k ∈ [dependenciesField, inputField], ∀ v, Assoc.find? fs k = some v →
    ∃ ns : List String, v = .arr (ns.map .str)
  output : ∀ v, Assoc.find? fs outputField = some v → v = .null ∨ ∃ ns : List String, v = .arr (ns.map .str)

/-- Both lists are there, and one relation is written or none is mentioned. -/
structure Complete (fs : Fields) : Prop where
  lists : ∀ k ∈ [dependenciesField, inputField],
    ∃ ns : List String, Assoc.find? fs k = some (.arr (ns.map .str))
  output : ∀ v, Assoc.find? fs outputField = some v → ∃ r : String, v = .arr [.str r]

/-- The first part of a list, in a list of its own. -/
def first? : Json → Option Json
  | .arr (r :: _) => some (.arr [r])
  | _ => none

/-- What an entry comes to bind: a list that was missing is empty, of several relations written the first one is
kept, and of none nothing. -/
def normal? (fs : Fields) (k : String) : Option Json :=
  if k = outputField then (Assoc.find? fs k).bind first?
  else if k = inputField ∨ k = dependenciesField then some ((Assoc.find? fs k).getD (.arr []))
  else Assoc.find? fs k

theorem Complete.regular (h : Complete fs) : Regular fs where
  lists k hk v hv := by
    obtain ⟨ns, hns⟩ := h.lists k hk
    exact ⟨ns, Option.some.inj (hv.symm.trans hns)⟩
  output v hv := by
    obtain ⟨r, hr⟩ := h.output v hv
    exact .inr ⟨[r], hr⟩

/-- A complete entry is in normal form. -/
theorem Complete.normal?_eq (h : Complete fs) (k : String) : normal? fs k = Assoc.find? fs k := by
  unfold normal?
  split_ifs with hout hlist
  · cases hv : Assoc.find? fs k with
    | none => rfl
    | some v =>
      obtain ⟨r, rfl⟩ := h.output v (hout ▸ hv)
      rfl
  · obtain ⟨ns, hns⟩ := h.lists k (by simpa [or_comm] using hlist)
    rw [hns, Option.getD_some]
  · rfl

/-- A list that may be missing. -/
theorem Regular.list (h : Regular fs) (hfield : field ∈ [dependenciesField, inputField]) :
    ∃ ns : List String, (Assoc.find? fs field).getD (.arr []) = .arr (ns.map .str) := by
  cases hv : Assoc.find? fs field with
  | none => exact ⟨[], rfl⟩
  | some v => exact h.lists field hfield v hv

/-- The relation written is the first one listed. -/
theorem Regular.outputOf_eq (h : Regular fs) : ∃ r : Option String,
    outputOf ((Assoc.find? fs outputField).getD .null) = .ok (r.map .str) ∧
      (Assoc.find? fs outputField).bind first? = (r.map Json.str).map fun r => .arr [r] := by
  cases hv : Assoc.find? fs outputField with
  | none => exact ⟨none, rfl, rfl⟩
  | some v =>
    rcases h.output v hv with rfl | ⟨ns, rfl⟩
    · exact ⟨none, rfl, rfl⟩
    · cases ns with
      | nil => exact ⟨none, rfl, rfl⟩
      | cons r ns => exact ⟨some r, outputOf_cons _ _, rfl⟩

/-- An entry is written back in its normal form, which is read as the entry was. -/
theorem find?_toEntry_ofEntry (h : Regular fs) (hnodup : (Assoc.keys fs).Nodup) (name : String) :
    ∃ n, ofEntry name (.obj fs) = .ok n ∧ (Assoc.keys n.toEntry).Nodup ∧
      (∀ k, Assoc.find? n.toEntry k = normal? fs k) ∧ ofEntry name (.obj n.toEntry) = .ok n := by
  obtain ⟨ds, hds⟩ := h.list List.mem_cons_self
  obtain ⟨is, his⟩ := h.list (List.mem_cons_of_mem dependenciesField (List.mem_singleton_self inputField))
  obtain ⟨r, hout, hfirst⟩ := h.outputOf_eq
  have hread := ofEntry_obj hds his hout name
  have hseparate := separate_of_ofEntry hread
  refine ⟨_, hread, nodup_toEntry ?_, fun k => ?_, ofEntry_toEntry hseparate ?_ name⟩
  · exact hnodup.sublist (List.filter_sublist.map _)
  · rw [find?_toEntry hseparate]
    dsimp only
    unfold normal?
    by_cases hkout : k = outputField
    · rw [if_pos hkout, if_pos hkout, hkout, hfirst]
    · rw [if_neg hkout, if_neg hkout]
      by_cases hkin : k = inputField
      · rw [if_pos hkin, if_pos (.inl hkin), hkin, his]
      · rw [if_neg hkin]
        by_cases hkdep : k = dependenciesField
        · rw [if_pos hkdep, if_pos (.inr hkdep), hkdep, hds]
        · rw [if_neg hkdep, if_neg (by simp [hkin, hkdep]), Assoc.find?_filter_key fs (!derivedFields.contains ·),
            if_pos (by simp [derivedFields, hkout, hkin, hkdep])]
  · cases r <;> simp

/-- Nodes and entries encode each other. A node with its own payload is read back under any name; a complete
entry is written back up to the order of its fields; and a regular one is brought into its normal form, which
stays as it is. -/
theorem entries_encode (name : String) :
    (∀ n : Node, n.Separate → n.output ≠ some .null →
      ofEntry name (.obj n.toEntry) = .ok { n with name := name }) ∧
    (∀ fs : Fields, (Assoc.keys fs).Nodup → Complete fs →
      ∃ n, ofEntry name (.obj fs) = .ok n ∧ n.toEntry.Perm fs) ∧
    ∀ fs : Fields, (Assoc.keys fs).Nodup → Regular fs →
      ∃ n, ofEntry name (.obj fs) = .ok n ∧ (Assoc.keys n.toEntry).Nodup ∧
        (∀ k, Assoc.find? n.toEntry k = normal? fs k) ∧ ofEntry name (.obj n.toEntry) = .ok n := by
  refine ⟨fun n h hnull => ofEntry_toEntry h hnull name, fun fs hnodup h => ?_,
    fun fs hnodup h => find?_toEntry_ofEntry h hnodup name⟩
  obtain ⟨n, hread, hkeys, hfind, -⟩ := find?_toEntry_ofEntry h.regular hnodup name
  exact ⟨n, hread, Assoc.perm_of_find? hkeys hnodup fun k => (hfind k).trans (h.normal?_eq k)⟩

/-- A node that writes a relation without a name, a complete entry, and one that writes two relations and leaves a
list out. -/
theorem entries_encode_loose :
    let fs : Fields := [("output_", .arr [.str "data/a", .str "data/b"]), ("cmd", .str "x"),
      ("input_", .arr [.str "data/c"])]
    let n : Node := ⟨"process/p", [.str "process/q"], [], some (.str ""), [("cmd", .null)]⟩
    let gs : Fields := [("input_", .arr []), ("cmd", .str "x"), ("dependencies_", .arr [])]
    (n.Separate ∧ n.output ≠ some .null ∧
        ofEntry "factor/f" (.obj n.toEntry) = .ok { n with name := "factor/f" }) ∧
      ((Assoc.keys gs).Nodup ∧ Complete gs ∧ ∃ m, ofEntry "factor/f" (.obj gs) = .ok m ∧ m.toEntry.Perm gs) ∧
      (Assoc.keys fs).Nodup ∧ Regular fs ∧
      ∃ m, ofEntry "factor/f" (.obj fs) = .ok m ∧ (Assoc.keys m.toEntry).Nodup ∧
        (∀ k, Assoc.find? m.toEntry k = normal? fs k) ∧ ofEntry "factor/f" (.obj m.toEntry) = .ok m := by
  intro fs n gs
  have hn : n.Separate := by decide
  have hcomplete : Complete gs := by
    refine ⟨fun k hk => ⟨[], ?_⟩, fun v hv => ?_⟩
    · fin_cases hk <;> rfl
    · cases hv
  have hregular : Regular fs := by
    refine ⟨fun k hk v hv => ?_, fun v hv => ?_⟩
    · fin_cases hk <;> cases hv
      exact ⟨["data/c"], rfl⟩
    · cases hv
      exact .inr ⟨["data/a", "data/b"], rfl⟩
  obtain ⟨hnode, hback, hloose⟩ := entries_encode "factor/f"
  exact ⟨⟨hn, by decide, hnode n hn (by decide)⟩, ⟨by decide, hcomplete, hback gs (by decide) hcomplete⟩, by decide,
    hregular, hloose fs (by decide) hregular⟩

end Node

end FlowPlan

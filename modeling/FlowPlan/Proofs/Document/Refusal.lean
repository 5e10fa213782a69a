import FlowPlan.Proofs.Document.Parts

/-!
# What a document is refused for

A document without the shape of a level is refused with the path to a value and what was expected
there. There is one exception: where the only output of a definition is no text, its kind is asked for
all the same, and the document is refused as a misuse of that value.

## Main definitions

* `Attempt.Blames` — the faults that a computation can end with.
* `Document.OddOutput` — a definition in the document has an output that is no text.
* `Document.Refusal` — what a document can be refused with.

## Main statements

* `Document.check_blames` — a document is refused with nothing else.
-/

namespace FlowPlan

namespace Attempt

variable {α β : Type} {P : Fault → Prop} {x : Attempt α}

/-- Every fault that the computation ends with is one of those. -/
def Blames (P : Fault → Prop) (x : Attempt α) : Prop := ∀ f, x = .error f → P f

theorem blames_ok (a : α) : Blames P (.ok a : Attempt α) := by
  rintro f ⟨⟩

theorem blames_error {f : Fault} (h : P f) : Blames P (.error f : Attempt α) := by
  rintro f ⟨⟩
  exact h

/-- The second computation counts only if the first one ends well. -/
theorem Blames.bind {g : α → Attempt β} (hx : Blames P x) (hg : ∀ a, x = .ok a → Blames P (g a)) :
    Blames P (x >>= g) := by
  cases x with
  | ok a => exact hg a rfl
  | error f => exact blames_error (hx f rfl)

theorem blames_forM {xs : List β} {g : β → Attempt PUnit} (h : ∀ b ∈ xs, Blames P (g b)) :
    Blames P (xs.forM g) := by
  induction xs with
  | nil => exact blames_ok _
  | cons b xs ih =>
    exact (h b List.mem_cons_self).bind fun _ _ => ih fun c hc => h c (List.mem_cons_of_mem b hc)

theorem blames_mapM {xs : List β} {g : β → Attempt α} (h : ∀ b ∈ xs, Blames P (g b)) :
    Blames P (xs.mapM g) := by
  induction xs with
  | nil => exact blames_ok _
  | cons b xs ih =>
    rw [List.mapM_cons]
    exact (h b List.mem_cons_self).bind fun _ _ =>
      (ih fun c hc => h c (List.mem_cons_of_mem b hc)).bind fun _ _ => blames_ok _

end Attempt

namespace Document

open Attempt

/-- The only output of a definition in the document is a value that is no text. -/
def OddOutput (document v : Json) : Prop :=
  v.isStr = false ∧ ∃ fs, document = .obj fs ∧ ∃ x ∈ Stage.sections, ∃ n entry,
    (n, Json.obj entry) ∈ entriesIn fs x.1 x.2 ∧ Assoc.find? entry outputField = some (.arr [v])

/-- What a document can be refused with: a path and what was expected there, or the misuse of an output
that is no text. -/
def Refusal (document : Json) (level : Level) (f : Fault) : Prop :=
  (∃ text path, f = .schema text path) ∨
    level = .qualified ∧ ∃ v, OddOutput document v ∧ f = .misuse (.noMember v.kindName "partition")

section Entries

variable {P : Fault → Prop} (hP : ∀ text path, P (.schema text path)) {entry : Fields}
include hP

theorem blames_expected {α : Type} (what path : String) : Blames P (expected what path : Attempt α) :=
  blames_error (hP what path)

theorem checkNames_blames (v : Json) (path : String) : Blames P (checkNames v path) := by
  unfold checkNames
  split
  · exact blames_ok _
  · exact blames_expected hP _ _

theorem checkRawEntry_blames (entry : Fields) (path : String) : Blames P (checkRawEntry entry path) := by
  have hnames : ∀ field, Blames P (checkRawNames entry path field) := by
    intro field
    unfold checkRawNames
    split
    · exact checkNames_blames hP _ _
    · exact blames_ok _
  refine (hnames _).bind fun _ _ => (hnames _).bind fun _ _ => ?_
  split
  · split
    · exact blames_ok _
    · exact blames_expected hP _ _
  · exact blames_ok _

theorem checkMapping_blames (v : Json) (path : String) (required : Bool) :
    Blames P (checkMapping v path required) := by
  unfold checkMapping
  split
  · split
    · exact blames_expected hP _ _
    · exact blames_ok _
  · refine blames_mapM fun e _ => ?_
    dsimp only
    split
    · exact blames_ok _
    · exact blames_expected hP _ _
  · exact blames_expected hP _ _

variable (hodd : ∀ v, v.isStr = false → Assoc.find? entry outputField = some (.arr [v]) →
  P (.misuse (.noMember v.kindName "partition")))
include hodd

theorem checkOutput_blames (path : String) : Blames P (checkOutput entry path) := by
  have hrefused := blames_expected (α := Unit) hP "expected a one-element list with a data/ name"
    s!"{path}.{outputField}"
  unfold checkOutput
  split
  · exact blames_ok _
  · rename_i v hv
    refine Blames.bind ?_ fun _ _ => ?_
    · cases v with
      | str n => exact blames_ok _
      | _ => exact blames_error (hodd _ rfl hv)
    · split
      · exact blames_ok _
      · exact hrefused
  · exact hrefused

theorem checkQualifiedEntry_blames (path : String) (required : Bool) :
    Blames P (checkQualifiedEntry entry path required) := by
  have hnames : ∀ field, Blames P (checkDerivedNames entry path required field) := by
    intro field
    unfold checkDerivedNames
    split
    · exact checkNames_blames hP _ _
    · split
      · exact blames_expected hP _ _
      · exact blames_ok _
  have hkinds : ∀ field what kind, Blames P (checkKinds entry path field what kind) := by
    intro field what kind
    unfold checkKinds
    split
    · exact blames_expected hP _ _
    · exact blames_ok _
  exact (hnames _).bind fun _ _ => (hnames _).bind fun _ _ => (hkinds _ _ _).bind fun _ _ =>
    (hkinds _ _ _).bind fun _ _ => checkOutput_blames hP hodd path

theorem checkProcess_blames (path name : String) : Blames P (checkProcess path name entry) := by
  unfold checkProcess
  split
  · exact checkQualifiedEntry_blames hP hodd _ _
  · exact checkQualifiedEntry_blames hP hodd _ _
  · exact blames_expected hP _ _

end Entries

/-- The entries that are checked are those of the section. -/
theorem mem_of_checkMapping {v : Json} {path : String} {required : Bool} {es : List (String × Fields)}
    (h : checkMapping v path required = .ok es) {e : String × Fields} (he : e ∈ es) :
    (e.1, Json.obj e.2) ∈ fieldsOf v := by
  unfold checkMapping at h
  split at h
  · split at h <;> cases h
    cases he
  · obtain ⟨x, hx, hentry⟩ := mem_of_mapM h he
    obtain ⟨n, entry⟩ := x
    cases entry with
    | obj fs =>
      cases hentry
      exact hx
    | _ => cases hentry
  · cases h

variable {document : Fields} {level : Level}

theorem checkDefinitions_blames {outer inner : String} (hx : (outer, inner) ∈ Stage.sections) (kind : Kind) :
    Blames (Refusal (.obj document) level) (checkDefinitions (.obj document) level outer inner kind) := by
  have hP : ∀ text path, Refusal (.obj document) level (.schema text path) := fun text path =>
    .inl ⟨text, path, rfl⟩
  unfold checkDefinitions
  rw [section?_obj]
  refine (checkMapping_blames hP _ _ _).bind fun entries hentries => blames_forM fun e he => ?_
  have hmem := mem_of_checkMapping hentries he
  cases level with
  | raw => exact checkRawEntry_blames hP _ _
  | qualified =>
    unfold checkDefinition
    dsimp only
    split
    · refine checkQualifiedEntry_blames hP (fun v hv hfind => .inr ⟨rfl, v, ⟨hv, document, rfl, ?_⟩, rfl⟩) _ _
      exact ⟨_, hx, e.1, e.2, hmem, hfind⟩
    · exact blames_expected hP _ _

theorem checkProcesses_blames :
    Blames (Refusal (.obj document) level) (checkProcesses (.obj document) level) := by
  have hP : ∀ text path, Refusal (.obj document) level (.schema text path) := fun text path =>
    .inl ⟨text, path, rfl⟩
  unfold checkProcesses
  rw [section?_obj]
  refine (checkMapping_blames hP _ _ _).bind fun entries hentries => ?_
  cases level with
  | raw => exact blames_ok _
  | qualified =>
    refine blames_forM fun e he => ?_
    refine checkProcess_blames hP (fun v hv hfind => .inr ⟨rfl, v, ⟨hv, document, rfl, ?_⟩, rfl⟩) _ _
    exact ⟨("execution", "processes"), by simp [Stage.sections], e.1, e.2, mem_of_checkMapping hentries he, hfind⟩

/-- A document is refused with a path, or as the misuse of an output that is no text. -/
theorem check_blames (v : Json) (level : Level) : Blames (Refusal v level) (check v level) := by
  cases v with
  | obj document =>
    have hsections : ∀ x ∈ definitionSections, (x.1, x.2.1) ∈ Stage.sections := by decide
    refine Blames.bind (x := definitionSections.forM fun x =>
      checkDefinitions (.obj document) level x.1 x.2.1 x.2.2) ?_ fun _ _ => checkProcesses_blames
    exact blames_forM fun x hx => checkDefinitions_blames (hsections x hx) x.2.2
  | _ => exact blames_error (.inl ⟨_, _, rfl⟩)

end Document

end FlowPlan

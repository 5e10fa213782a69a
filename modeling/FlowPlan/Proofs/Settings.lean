import FlowPlan.Build.Settings
import FlowPlan.Proofs.Plan.Misuse
import FlowPlan.Proofs.Standard

/-!
# Settings that cannot be read

A settings file is refused with a fault of its own kind where it is no mapping, where a section is no mapping,
and where a value makes no sense. Reading comes before judging, though, and some values are used while they are
read: a build root that is no text, disabled units that cannot be listed, and commands that are no mappings are
not refused, but misused.

## Main definitions

* `Settings.Legible` — what is read of a section can be used.
* `Settings.Garbled` — the first section that cannot be read is a mapping.

## Main statements

* `Settings.ofJson_reads` — how reading ends.
* `Settings.check_config` — settings that make no sense are refused.
* `Settings.loadWith_misuse_iff` — when loading ends with another fault than one of the settings.
-/

namespace FlowPlan

open Attempt Json

/-! ## How reading ends -/

/-- The settings are refused. -/
def Fault.IsConfig (f : Fault) : Prop := ∃ text, f = .config text none

/-- Two conditions tell how a computation ends: well, with a misuse, or, if neither holds, refused. -/
structure Reads {α : Type} (x : Attempt α) (legible garbled : Prop) : Prop where
  ok : legible → ∃ a, x = .ok a
  misuse : garbled → ∃ f, x = .error f ∧ f.IsMisuse
  refused : ¬ legible → ¬ garbled → ∃ f, x = .error f ∧ f.IsConfig

namespace Reads

variable {α β : Type} {x : Attempt α} {f : α → Attempt β} {P G P' G' : Prop}

theorem pure (a : α) : Reads (.ok a) True False where
  ok _ := ⟨a, rfl⟩
  misuse := False.elim
  refused h := absurd trivial h

/-- What is never refused is misused if it does not end well. -/
theorem of_blames (hx : Blames Fault.IsMisuse x) (hok : (∃ a, x = .ok a) ↔ P) : Reads x P (¬ P) where
  ok := hok.2
  misuse hP := by
    cases h : x with
    | ok a => exact absurd (hok.1 ⟨a, h⟩) hP
    | error f => exact ⟨f, rfl, hx f h⟩
  refused hP hnot := absurd hP hnot

/-- The second computation tells how both end if the first one ends well. -/
theorem bind (hx : Reads x P G) (hf : ∀ a, x = .ok a → Reads (f a) P' G') :
    Reads (x >>= f) (P ∧ P') (G ∨ P ∧ G') where
  ok := by
    rintro ⟨hP, hP'⟩
    obtain ⟨a, rfl⟩ := hx.ok hP
    exact (hf a rfl).ok hP'
  misuse := by
    rintro (hG | ⟨hP, hG'⟩)
    · obtain ⟨e, rfl, he⟩ := hx.misuse hG
      exact ⟨e, rfl, he⟩
    · obtain ⟨a, rfl⟩ := hx.ok hP
      exact (hf a rfl).misuse hG'
  refused hnotP hnotG := by
    by_cases hP : P
    · obtain ⟨a, rfl⟩ := hx.ok hP
      exact (hf a rfl).refused (fun hP' => hnotP ⟨hP, hP'⟩) fun hG' => hnotG (.inr ⟨hP, hG'⟩)
    · obtain ⟨e, rfl, he⟩ := hx.refused hP fun hG => hnotG (.inl hG)
      exact ⟨e, rfl, he⟩

theorem congr (hx : Reads x P G) (hP : P ↔ P') (hG : G ↔ G') : Reads x P' G' := by
  rwa [← hP, ← hG]

theorem of_legible {L : Prop} (hL : L) (hx : Reads x P G) : Reads x (L ∧ P) (¬ L ∨ L ∧ G) :=
  hx.congr (by simp [hL]) (by simp [hL])

/-- A refusal is no misuse. -/
theorem misuse_iff (hx : Reads x P G) : (∃ f, x = .error f ∧ f.IsMisuse) ↔ G := by
  refine ⟨?_, hx.misuse⟩
  rintro ⟨f, hf, m, rfl⟩
  by_contra hG
  have hP : ¬ P := by
    intro hP
    obtain ⟨a, ha⟩ := hx.ok hP
    rw [ha] at hf
    cases hf
  obtain ⟨e, he, text, rfl⟩ := hx.refused hP hG
  rw [he] at hf
  cases hf

/-- Every failure is a misuse or a refusal. -/
theorem blames (hx : Reads x P G) : Blames (fun f => f.IsConfig ∨ f.IsMisuse) x := by
  intro f hf
  by_cases hP : P
  · obtain ⟨a, ha⟩ := hx.ok hP
    rw [ha] at hf
    cases hf
  by_cases hG : G
  · obtain ⟨e, he, hmisuse⟩ := hx.misuse hG
    rw [he] at hf
    cases hf
    exact .inr hmisuse
  · obtain ⟨e, he, hconfig⟩ := hx.refused hP hG
    rw [he] at hf
    cases hf
    exact .inl hconfig

end Reads

namespace Settings

/-! ## Sections -/

/-- The sections, in the order in which they are read. -/
def sectionNames : List String := ["build", "logging", "stages", "generators", "validation"]

/-- The fields of a section. What counts as nothing has none; all else that is no mapping is no section. -/
def fieldsIn (fs : Fields) (name : String) : Option Fields :=
  match (Assoc.find? fs name).getD .null with
  | .obj gs => some gs
  | v => if v.truthy then none else some []

/-- The value is a list, a text or a mapping. -/
def Lists : Json → Prop
  | .arr _ | .str _ | .obj _ => True
  | _ => False

/-- The build root is a text, if it is given. -/
def RootLegible (gs : Fields) : Prop := ∀ v, Assoc.find? gs "root" = some v → ∃ s, v = .str s

/-- The units to be disabled can be listed, if they are given. -/
def DisabledLegible (gs : Fields) : Prop := ∀ v, Assoc.find? gs "disabled" = some v → Lists v

/-- What is said of a command counts as nothing, or it is a mapping with words that can be listed. -/
def CommandLegible (v : Json) : Prop :=
  v.truthy = true → ∃ gs, v = .obj gs ∧ ∀ c, Assoc.find? gs "command" = some c → c.truthy = true → Lists c

/-- The commands count as nothing, or they are a mapping of commands that can be read. -/
def CommandsLegible (gs : Fields) : Prop :=
  ∀ v, Assoc.find? gs "commands" = some v → v.truthy = true → ∃ cs, v = .obj cs ∧ ∀ e ∈ cs, CommandLegible e.2

/-- What is read of the fields of a section can be used. -/
def Legible : String → Fields → Prop
  | "build", gs => RootLegible gs
  | "stages", gs | "generators", gs => DisabledLegible gs
  | "validation", gs => DisabledLegible gs ∧ CommandsLegible gs
  | _, _ => True

/-- The section is a mapping, and can be read. -/
def Sound (fs : Fields) (name : String) : Prop := ∃ gs, fieldsIn fs name = some gs ∧ Legible name gs

/-- The section is a mapping, and cannot be read. -/
def Illegible (fs : Fields) (name : String) : Prop := ∃ gs, fieldsIn fs name = some gs ∧ ¬ Legible name gs

/-- The first section that is not sound is a mapping. -/
def Garbled (fs : Fields) (names : List String) : Prop :=
  ∃ earlier name later, names = earlier ++ name :: later ∧ (∀ n ∈ earlier, Sound fs n) ∧ Illegible fs name

variable {fs gs : Fields} {name : String} {names : List String}

theorem not_garbled_nil : ¬ Garbled fs [] := by
  rintro ⟨earlier, name, later, hsplit, -⟩
  simp at hsplit

theorem garbled_cons :
    Garbled fs (name :: names) ↔ Illegible fs name ∨ Sound fs name ∧ Garbled fs names := by
  constructor
  · rintro ⟨earlier, n, later, hsplit, hearlier, hn⟩
    cases earlier with
    | nil =>
      cases hsplit
      exact .inl hn
    | cons m earlier =>
      cases hsplit
      obtain ⟨hm, hearlier⟩ := List.forall_mem_cons.1 hearlier
      exact .inr ⟨hm, earlier, n, later, rfl, hearlier, hn⟩
  · rintro (hn | ⟨hname, earlier, n, later, rfl, hearlier, hn⟩)
    · exact ⟨[], name, names, rfl, by simp, hn⟩
    · exact ⟨name :: earlier, n, later, rfl, List.forall_mem_cons.2 ⟨hname, hearlier⟩, hn⟩

theorem sectionOf_obj : sectionOf (.obj fs) name = match fieldsIn fs name with
    | some gs => .ok (.obj gs)
    | none => .error (.config s!"Section '{name}' must be a mapping" none) := by
  unfold sectionOf fieldsIn
  rw [getD_obj, Attempt.ok_bind]
  generalize (Assoc.find? fs name).getD .null = v
  by_cases hobj : ∃ gs, v = .obj gs
  · obtain ⟨gs, rfl⟩ := hobj
    cases gs <;> rfl
  · have hnot : v.isObj = false := by
      cases v <;> simp_all [isObj]
    cases htruthy : v.truthy <;> cases v <;> simp_all <;> rfl

/-! ## Values -/

theorem elements_isOk {v : Json} : (∃ xs, v.elements = .ok xs) ↔ Lists v := by
  cases v <;> simp [elements, Lists, Json.misuse]

theorem pathOf_misuse (v : Json) : Blames Fault.IsMisuse (pathOf v) := by
  cases v with
  | str s => exact blames_ok _
  | _ => exact misuse_blames _

theorem pathOf_isOk {v : Json} : (∃ p, pathOf v = .ok p) ↔ ∃ s, v = .str s := by
  cases v <;> simp [pathOf, Json.misuse]

/-- A field that is given has the property, if the one that stands in for it has it. -/
theorem getD_find?_iff {P : Json → Prop} {field : String} {d : Json} (hd : P d) :
    P ((Assoc.find? gs field).getD d) ↔ ∀ v, Assoc.find? gs field = some v → P v := by
  cases Assoc.find? gs field with
  | none => simpa using hd
  | some v => simp

theorem reads_root : Reads (pathOf ((Assoc.find? gs "root").getD (.str "run"))) (RootLegible gs)
    (¬ RootLegible gs) :=
  .of_blames (pathOf_misuse _) (pathOf_isOk.trans (getD_find?_iff (P := fun v => ∃ s, v = .str s) ⟨"run", rfl⟩))

theorem reads_disabled : Reads (disabledIn (.obj gs)) (DisabledLegible gs) (¬ DisabledLegible gs) :=
  .of_blames (elements_misuse _) (elements_isOk.trans (getD_find?_iff trivial))

theorem wordsOf_misuse (v : Json) : Blames Fault.IsMisuse (CommandSettings.wordsOf v) := by
  unfold CommandSettings.wordsOf
  split
  · exact blames_ok _
  · split
    · exact elements_misuse _
    · exact blames_ok _

theorem wordsOf_isOk {v : Json} :
    (∃ ws, CommandSettings.wordsOf v = .ok ws) ↔ (v.truthy = true → Lists v) := by
  unfold CommandSettings.wordsOf
  split
  · simp [Lists]
  · split
    · rename_i htruthy
      rw [elements_isOk]
      simp [htruthy]
    · rename_i hfalse
      simp [hfalse]

theorem command_misuse (name : String) (v : Json) : Blames Fault.IsMisuse (CommandSettings.ofJson name v) := by
  refine (getD_misuse _ _ _).bind fun phase _ => (getD_misuse _ _ _).bind fun command _ => ?_
  exact (wordsOf_misuse command).bind fun _ _ => blames_ok _

/-- A value that may count as nothing is a mapping otherwise, as far as its fields are asked for. -/
theorem fieldsFor_or_empty_isOk {v : Json} {member : String} {P : Fields → Prop} (hempty : P []) :
    (∃ gs, (if v.truthy then v else .obj []).fieldsFor member = .ok gs ∧ P gs) ↔
      (v.truthy = true → ∃ gs, v = .obj gs ∧ P gs) := by
  by_cases htruthy : v.truthy = true
  · rw [if_pos htruthy]
    cases v <;> simp [fieldsFor, Json.misuse, htruthy]
  · rw [if_neg htruthy]
    simp [fieldsFor, htruthy, hempty]

theorem getD_eq_ok {v x d : Json} {field : String} :
    v.getD field d = .ok x ↔ ∃ gs, v.fieldsFor "get" = .ok gs ∧ (Assoc.find? gs field).getD d = x := by
  cases v <;> simp [getD, Json.get, fieldsFor, Json.misuse, Except.map]

theorem command_isOk (name : String) {v : Json} : (∃ c, CommandSettings.ofJson name v = .ok c) ↔ CommandLegible v := by
  have hfields : (∃ c, CommandSettings.ofJson name v = .ok c) ↔ ∃ gs,
      (if v.truthy then v else .obj []).fieldsFor "get" = .ok gs ∧
        ∃ ws, CommandSettings.wordsOf ((Assoc.find? gs "command").getD .null) = .ok ws := by
    constructor
    · rintro ⟨c, hc⟩
      obtain ⟨phase, -, hc⟩ := bind_eq_ok.1 hc
      obtain ⟨command, hcommand, hc⟩ := bind_eq_ok.1 hc
      obtain ⟨ws, hws, -⟩ := bind_eq_ok.1 hc
      obtain ⟨gs, hgs, rfl⟩ := getD_eq_ok.1 hcommand
      exact ⟨gs, hgs, ws, hws⟩
    · rintro ⟨gs, hgs, ws, hws⟩
      exact ⟨_, bind_eq_ok.2 ⟨_, getD_eq_ok.2 ⟨gs, hgs, rfl⟩,
        bind_eq_ok.2 ⟨_, getD_eq_ok.2 ⟨gs, hgs, rfl⟩, bind_eq_ok.2 ⟨ws, hws, rfl⟩⟩⟩⟩
  rw [hfields, fieldsFor_or_empty_isOk ⟨[], rfl⟩]
  simp only [wordsOf_isOk, CommandLegible, getD_find?_iff (P := fun c => c.truthy = true → Lists c)
    (d := .null) (by rintro ⟨⟩)]

theorem commands_isOk : (∃ cs, commandsIn (.obj gs) = .ok cs) ↔ CommandsLegible gs := by
  have hfields : (∃ cs, commandsIn (.obj gs) = .ok cs) ↔ ∃ cs,
      (if ((Assoc.find? gs "commands").getD .null).truthy then (Assoc.find? gs "commands").getD .null
        else .obj []).fieldsFor "items" = .ok cs ∧ ∀ e ∈ cs, CommandLegible e.2 := by
    have hcommand : ∀ e : String × Json, (∃ y, (do return (e.1, ← CommandSettings.ofJson e.1 e.2)) = .ok y) ↔
        CommandLegible e.2 := by
      intro e
      rw [← command_isOk e.1]
      cases CommandSettings.ofJson e.1 e.2 <;> simp
    unfold commandsIn
    rw [getD_obj, Attempt.ok_bind]
    constructor
    · rintro ⟨cs, hcs⟩
      obtain ⟨entries, hentries, hcs⟩ := bind_eq_ok.1 hcs
      exact ⟨entries, hentries, fun e he => (hcommand e).1 (mapM_isOk.1 ⟨cs, hcs⟩ e he)⟩
    · rintro ⟨entries, hentries, hall⟩
      obtain ⟨cs, hcs⟩ := mapM_isOk.2 fun e he => (hcommand e).2 (hall e he)
      exact ⟨cs, bind_eq_ok.2 ⟨entries, hentries, hcs⟩⟩
  rw [hfields, fieldsFor_or_empty_isOk (by simp)]
  exact getD_find?_iff (P := fun v => v.truthy = true → ∃ cs, v = .obj cs ∧ ∀ e ∈ cs, CommandLegible e.2)
    (by rintro ⟨⟩)

theorem commandsIn_misuse (v : Json) : Blames Fault.IsMisuse (commandsIn v) := by
  refine (getD_misuse _ _ _).bind fun given _ => (fieldsFor_misuse _ _).bind fun entries _ => ?_
  exact blames_mapM fun e _ => (command_misuse e.1 e.2).bind fun _ _ => blames_ok _

theorem reads_commands : Reads (commandsIn (.obj gs)) (CommandsLegible gs) (¬ CommandsLegible gs) :=
  .of_blames (commandsIn_misuse _) commands_isOk

/-! ## Reading and judging -/

/-- A section is read first, and then what is made of its fields. -/
theorem reads_section {α : Type} {k : Json → Attempt α} {P G : Prop}
    (h : ∀ gs, fieldsIn fs name = some gs →
      Reads (k (.obj gs)) (Legible name gs ∧ P) (¬ Legible name gs ∨ Legible name gs ∧ G)) :
    Reads (sectionOf (.obj fs) name >>= k) (Sound fs name ∧ P) (Illegible fs name ∨ Sound fs name ∧ G) := by
  rw [sectionOf_obj]
  unfold Sound Illegible
  cases hfields : fieldsIn fs name with
  | none =>
    exact ⟨by simp, by simp, fun _ _ => ⟨_, rfl, _, rfl⟩⟩
  | some gs =>
    refine (h gs hfields).congr ?_ ?_ <;> simp

/-- Reading ends well if every section is sound, and with a misuse if the settings are garbled. -/
theorem ofJson_reads (fs : Fields) (project : Path) :
    Reads (ofJson (.obj fs) project) (∀ n ∈ sectionNames, Sound fs n) (Garbled fs sectionNames) := by
  have hraw : (if (Json.obj fs).truthy then Json.obj fs else .obj []) = .obj fs := by
    cases fs <;> rfl
  unfold ofJson
  rw [hraw]
  simp only [sectionNames, List.forall_mem_cons, garbled_cons]
  refine reads_section fun build _ => ?_
  rw [getD_obj, Attempt.ok_bind]
  refine reads_root.bind fun root _ => ?_
  simp only [getD_obj, Attempt.ok_bind]
  refine reads_section fun logging _ => ?_
  -- Nothing that is said of logging is used while it is read.
  refine Reads.of_legible trivial ?_
  simp only [getD_obj, Attempt.ok_bind]
  refine reads_section fun stages _ => reads_disabled.bind fun _ _ => ?_
  refine reads_section fun generators _ => reads_disabled.bind fun _ _ => ?_
  refine reads_section fun validation _ => ?_
  refine (reads_disabled.bind fun _ _ => reads_commands.bind fun _ _ => Reads.pure _).congr ?_ ?_
  · simp [Legible]
  · simp only [not_garbled_nil, Legible]
    tauto

theorem checkChoice_config (what : String) (choices : List Json) (v : Json) :
    Blames Fault.IsConfig (checkChoice what choices v) := by
  unfold checkChoice
  split
  · exact blames_ok _
  · exact blames_error ⟨_, rfl⟩

theorem checkCommand_config (name : String) (c : CommandSettings) :
    Blames Fault.IsConfig (checkCommand name c) := by
  have hcheck : Blames Fault.IsConfig c.check := by
    unfold CommandSettings.check
    split
    · exact blames_error ⟨_, rfl⟩
    · split
      · exact blames_error ⟨_, rfl⟩
      · exact blames_ok _
  unfold checkCommand
  split
  · exact blames_error ⟨_, rfl⟩
  · exact hcheck

/-- Settings that make no sense are refused. -/
theorem check_config (s : Settings) : Blames Fault.IsConfig s.check := by
  unfold check
  dsimp only
  split
  · exact blames_error ⟨_, rfl⟩
  · refine (checkChoice_config _ _ _).bind fun _ _ => (checkChoice_config _ _ _).bind fun _ _ => ?_
    split
    · exact blames_error ⟨_, rfl⟩
    · exact blames_forM fun e _ => checkCommand_config e.1 e.2

/-- Settings that are not accepted are misused if they are garbled, and refused if not. -/
theorem accept_fails (fs : Fields) (project : Path) :
    Blames (fun f => f.IsConfig ∨ f.IsMisuse) (accept (.obj fs) project) ∧
      ((∃ f, accept (.obj fs) project = .error f ∧ f.IsMisuse) ↔ Garbled fs sectionNames) := by
  have hreads := ofJson_reads fs project
  have hjudge : ∀ s : Settings, Blames Fault.IsConfig (s.check >>= fun _ => pure s) := fun s =>
    (check_config s).bind fun _ _ => blames_ok _
  refine ⟨hreads.blames.bind fun s _ f hf => .inl (hjudge s f hf), ?_⟩
  rw [← hreads.misuse_iff]
  unfold accept
  cases ofJson (.obj fs) project with
  | error f => rfl
  | ok s =>
    constructor
    · rintro ⟨f, hf, m, rfl⟩
      obtain ⟨text, htext⟩ := hjudge s _ hf
      cases htext
    · rintro ⟨f, hf, -⟩
      cases hf

/-! ## Files -/

variable {asked : Option Path} {project : Path} {d : Disk} {text : String}

/-- A mapping is what is found; instead of anything else nothing is found, or the file is refused. -/
theorem of_valueWith (parse : List Char → Option Json) (path : Path) (cs : List Char) :
    (∃ fs, parse cs = some (.obj fs) ∧ valueWith parse path cs = .ok (.obj fs)) ∨
      (∀ fs, parse cs ≠ some (.obj fs)) ∧
        (valueWith parse path cs = .ok (.obj []) ∨ ∃ f, valueWith parse path cs = .error f ∧ f.IsConfig) := by
  unfold valueWith
  cases parse cs with
  | none => exact .inr ⟨by simp, .inr ⟨_, rfl, _, rfl⟩⟩
  | some v =>
    by_cases hobj : ∃ fs, v = .obj fs
    · obtain ⟨fs, rfl⟩ := hobj
      refine .inl ⟨fs, rfl, ?_⟩
      cases fs <;> rfl
    · refine .inr ⟨fun fs hfs => hobj ⟨fs, Option.some.inj hfs⟩, ?_⟩
      have hnot : v.isObj = false := by
        cases v <;> simp_all [isObj]
      dsimp only
      split
      · exact .inl rfl
      · rw [hnot]
        exact .inr ⟨_, rfl, _, rfl⟩

/-- Whatever the parser finds in a settings file that can be read, it is accepted, or refused, or misused; and
it is misused exactly if it is a mapping that is garbled. -/
theorem loadWith_misuse_iff (parse : List Char → Option Json)
    (hexists : d.exists? (asked.getD (project.child fileName)) = true)
    (htext : d.readText (asked.getD (project.child fileName)) = .ok text) :
    (∀ f, loadWith parse asked project d = .error f → f.IsConfig ∨ f.IsMisuse) ∧
      ((∃ f, loadWith parse asked project d = .error f ∧ f.IsMisuse) ↔
        ∃ fs, parse text.toList = some (.obj fs) ∧ Garbled fs sectionNames) := by
  unfold loadWith
  dsimp only
  rw [if_pos hexists, htext, Attempt.ok_bind]
  obtain ⟨fs, hparse, hvalue⟩ | ⟨hparse, hvalue⟩ := of_valueWith parse _ text.toList
  · rw [hvalue, Attempt.ok_bind]
    obtain ⟨hfails, hmisuse⟩ := accept_fails fs project
    refine ⟨hfails, hmisuse.trans ⟨fun hgarbled => ⟨fs, hparse, hgarbled⟩, ?_⟩⟩
    rintro ⟨fs', hfs', hgarbled⟩
    rw [hparse] at hfs'
    cases hfs'
    exact hgarbled
  · have hnone : ¬ ∃ fs, parse text.toList = some (.obj fs) ∧ Garbled fs sectionNames :=
      fun ⟨fs, hfs, _⟩ => hparse fs hfs
    rcases hvalue with hvalue | ⟨f, hvalue, hconfig⟩
    · rw [hvalue, Attempt.ok_bind, accept_empty]
      simpa using hnone
    · rw [hvalue]
      refine ⟨fun e he => ?_, iff_of_false ?_ hnone⟩
      · cases he
        exact .inl hconfig
      · rintro ⟨e, he, m, rfl⟩
        cases he
        obtain ⟨t, ht⟩ := hconfig
        cases ht

/-- A project whose build root is a number. -/
def numbered : Disk :=
  ⟨[(["/"], .dir), (["/", fileName], .file (.text "\x7b\"build\":\x7b\"root\":1\x7d\x7d"))], []⟩

/-- The number is used as a path, and its misuse gets through. -/
theorem loadWith_misuse_iff_numbered :
    numbered.exists? ((none : Option Path).getD (Path.child ⟨"/", []⟩ fileName)) = true ∧
      numbered.readText ((none : Option Path).getD (Path.child ⟨"/", []⟩ fileName)) =
        .ok "\x7b\"build\":\x7b\"root\":1\x7d\x7d" ∧
      ∃ f, loadWith Json.parse? none ⟨"/", []⟩ numbered = .error f ∧ f.IsMisuse ∧ ¬ f.IsConfig := by
  have hexists : numbered.exists? ((none : Option Path).getD (Path.child ⟨"/", []⟩ fileName)) = true := by
    rfl
  have htext : numbered.readText ((none : Option Path).getD (Path.child ⟨"/", []⟩ fileName)) =
      .ok "\x7b\"build\":\x7b\"root\":1\x7d\x7d" := by
    rfl
  have hparse : Json.parse? "\x7b\"build\":\x7b\"root\":1\x7d\x7d".toList =
      some (.obj [("build", .obj [("root", .int 1)])]) := by
    decide +kernel
  obtain ⟨f, hload, m, rfl⟩ := (loadWith_misuse_iff Json.parse? hexists htext).2.2
    ⟨_, hparse, [], "build", _, rfl, by simp, _, rfl, fun hroot => by
      obtain ⟨s, hs⟩ := hroot (.int 1) rfl
      cases hs⟩
  refine ⟨hexists, htext, _, hload, ⟨m, rfl⟩, ?_⟩
  rintro ⟨text, htext⟩
  cases htext

end Settings

end FlowPlan

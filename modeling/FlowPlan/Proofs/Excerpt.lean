import FlowPlan.Proofs.Supervision
import Mathlib.Data.List.DropRight

/-!
# Excerpts within a limit

A quiet attempt that fails writes the name of its log, and below it the last entries that the log
contributes. There are at most as many entries as the limit allows. An entry is written as one line unless a
line feed stands in it, and that happens only where a record of the log has one in its stage or its message:
then more lines are written than the limit allows, if the queue of entries is full.

## Main definitions

* `Excerpt.allEntries` — what a log contributes without a limit.
* `Excerpt.linesOf` — the lines of the text that is written for entries.
* `Excerpt.breaks` — the line feeds within entries.

## Main statements

* `Excerpt.ofText_eq_rtake` — the bounded queue ends up with the last entries.
* `Excerpt.length_linesOf_le_iff`, `Excerpt.linesOf_rtake_iff` — when the last entries are the last lines.
* `Excerpt.broken_of_mem` — where a line feed within an entry comes from.
* `Supervision.report_limited_iff` — what a quiet attempt that fails writes.
-/

namespace FlowPlan

/-! ## Lines of texts -/

namespace Text

theorem not_mem_of_mem_splitOn {c : Char} {piece cs : List Char} (h : piece ∈ cs.splitOn c) : c ∉ piece := by
  induction cs generalizing piece with
  | nil =>
    rw [List.splitOn_nil, List.mem_singleton] at h
    simp [h]
  | cons d cs ih =>
    rw [List.splitOn_cons_eq_if_modifyHead] at h
    split at h
    · rcases List.mem_cons.1 h with rfl | h
      · simp
      · exact ih h
    · rename_i hd
      cases hsplit : cs.splitOn c with
      | nil => exact absurd hsplit (List.splitOn_ne_nil _ _)
      | cons first rest =>
        rw [hsplit, List.modifyHead_cons] at h
        rcases List.mem_cons.1 h with rfl | h
        · have hfirst : c ∉ first := ih (hsplit ▸ List.mem_cons_self)
          have hne : c ≠ d := by
            rintro rfl
            simp at hd
          simp [hne, hfirst]
        · exact ih (hsplit ▸ List.mem_cons_of_mem _ h)

theorem length_splitOn (c : Char) (cs : List Char) : (cs.splitOn c).length = cs.count c + 1 := by
  induction cs with
  | nil => simp
  | cons d cs ih =>
    rw [List.splitOn_cons_eq_if_modifyHead, List.count_cons]
    split <;> simp [*]

/-- No line of a message holds a line feed. -/
theorem not_mem_of_mem_messageLinesFrom {current cs line : List Char} (hcurrent : '\n' ∉ current)
    (h : line ∈ messageLinesFrom current cs) : '\n' ∉ line := by
  fun_induction messageLinesFrom current cs with
  | case1 current hempty => cases h
  | case2 current hempty =>
    obtain rfl := List.mem_singleton.1 h
    simpa using hcurrent
  | case3 current cs ih =>
    rcases List.mem_cons.1 h with rfl | h
    · simpa using hcurrent
    · exact ih (by simp) h
  | case4 current c cs hcrlf hend ih =>
    rcases List.mem_cons.1 h with rfl | h
    · simpa using hcurrent
    · exact ih (by simp) h
  | case5 current c cs hcrlf hend ih =>
    refine ih ?_ h
    have hne : '\n' ≠ c := by
      rintro rfl
      exact hend (by decide)
    simp [hne, hcurrent]

end Text

namespace Excerpt

/-! ## The queue -/

/-- All that a log contributes. -/
def allEntries (log : List Char) : List String := (Text.fileLines log).flatMap ofLine

/-- What has left the queue makes no difference to it. -/
theorem push_rtake (limit : Nat) (queue : List String) (line : String) :
    push limit (queue.rtake limit) line = (queue ++ [line]).rtake limit := by
  change ((queue.rtake limit) ++ [line]).rtake limit = _
  cases limit with
  | zero => simp
  | succ limit =>
    have hdrop : (queue.rtake (limit + 1)).rtake limit = queue.rtake limit := by
      unfold List.rtake
      rw [List.drop_drop, List.length_drop]
      congr 1
      omega
    rw [List.rtake_concat_succ, List.rtake_concat_succ, hdrop]

/-- After any number of lines the queue holds the last ones. -/
theorem foldl_push (limit : Nat) (queue lines : List String) :
    lines.foldl (push limit) (queue.rtake limit) = (queue ++ lines).rtake limit := by
  induction lines generalizing queue with
  | nil => simp
  | cons line lines ih => rw [List.foldl_cons, push_rtake, ih, List.append_assoc, List.singleton_append]

/-- The excerpt consists of the last entries, whatever the lines are that they come from. -/
theorem ofText_eq_rtake (log : List Char) (limit : Nat) : ofText log limit = (allEntries log).rtake limit := by
  have hqueue := foldl_push limit [] (allEntries log)
  rw [List.rtake_nil, List.nil_append] at hqueue
  rw [← hqueue, allEntries, List.foldl_flatMap]
  rfl

theorem length_rtake (limit : Nat) (entries : List String) :
    (entries.rtake limit).length = min limit entries.length := by
  rw [List.rtake, List.length_drop]
  omega

theorem rtake_of_length_le {α : Type} {limit : Nat} {xs : List α} (h : xs.length ≤ limit) : xs.rtake limit = xs := by
  rw [List.rtake, Nat.sub_eq_zero_of_le h, List.drop_zero]

/-! ## Entries and lines -/

/-- The text that is written for entries. -/
def written (entries : List String) : List Char := entries.flatMap fun e => e.toList ++ ['\n']

/-- The lines of that text, each of which ends with a line feed. -/
def linesOf (entries : List String) : List (List Char) := ((written entries).splitOn '\n').dropLast

/-- The line feeds within the entries. -/
def breaks (entries : List String) : Nat := (entries.map fun e => e.toList.count '\n').sum

theorem splitOn_written (entries : List String) :
    (written entries).splitOn '\n' = (entries.flatMap fun e => e.toList.splitOn '\n') ++ [[]] := by
  induction entries with
  | nil => simp [written]
  | cons e entries ih =>
    have hwritten : written (e :: entries) = e.toList ++ '\n' :: written entries := by simp [written]
    rw [hwritten, List.splitOn_append_cons_self, ih, List.flatMap_cons, List.append_assoc]

theorem linesOf_eq_flatMap (entries : List String) :
    linesOf entries = entries.flatMap fun e => e.toList.splitOn '\n' := by
  rw [linesOf, splitOn_written, List.dropLast_concat]

theorem linesOf_append (es fs : List String) : linesOf (es ++ fs) = linesOf es ++ linesOf fs := by
  simp only [linesOf_eq_flatMap, List.flatMap_append]

/-- Each line feed within an entry makes one line more. -/
theorem length_linesOf (entries : List String) : (linesOf entries).length = entries.length + breaks entries := by
  rw [linesOf_eq_flatMap]
  induction entries with
  | nil => rfl
  | cons e entries ih =>
    have hbreaks : breaks (e :: entries) = e.toList.count '\n' + breaks entries := by simp [breaks]
    rw [List.flatMap_cons, List.length_append, ih, Text.length_splitOn, hbreaks, List.length_cons]
    omega

theorem breaks_eq_zero {entries : List String} (h : ∀ e ∈ entries, '\n' ∉ e.toList) : breaks entries = 0 := by
  refine List.sum_eq_zero fun n hn => ?_
  obtain ⟨e, he, rfl⟩ := List.mem_map.1 hn
  exact List.count_eq_zero.2 (h e he)

variable {entries : List String} {limit : Nat}

/-- What is written for the last entries ends what is written for all. -/
theorem linesOf_rtake_isSuffix (entries : List String) (limit : Nat) :
    linesOf (entries.rtake limit) <:+ linesOf entries :=
  ⟨linesOf (entries.take (entries.length - limit)), by rw [← linesOf_append, List.rtake, List.take_append_drop]⟩

/-- The last entries stay within the limit as long as their line feeds fill no more than what the entries leave
of it. -/
theorem length_linesOf_le_iff :
    (linesOf (entries.rtake limit)).length ≤ limit ↔ breaks (entries.rtake limit) ≤ limit - entries.length := by
  rw [length_linesOf, length_rtake]
  omega

/-- The last entries are the last lines exactly if they stay within the limit. -/
theorem linesOf_rtake_iff :
    linesOf (entries.rtake limit) = (linesOf entries).rtake limit ↔
      (linesOf (entries.rtake limit)).length ≤ limit := by
  constructor
  · intro h
    rw [h, List.rtake, List.length_drop]
    omega
  · intro hle
    obtain ⟨front, hfront⟩ := linesOf_rtake_isSuffix entries limit
    have hlength := length_linesOf (entries.rtake limit)
    rw [length_rtake] at hlength
    rcases Nat.le_total entries.length limit with hshort | hlong
    · rw [rtake_of_length_le hshort] at hle ⊢
      exact (rtake_of_length_le hle).symm
    · have hfull : (linesOf (entries.rtake limit)).length = limit := by omega
      have hdrop : (linesOf entries).length - limit = front.length := by
        rw [← hfront, List.length_append, hfull, Nat.add_sub_cancel]
      rw [List.rtake.eq_def (linesOf entries), hdrop, ← hfront, List.drop_left]

/-- The excerpt keeps to its limit: there are no more lines than that, and they are the last of all lines. -/
def KeepsTo (log : List Char) (limit : Nat) : Prop :=
  (linesOf (ofText log limit)).length ≤ limit ∧
    linesOf (ofText log limit) = (linesOf (allEntries log)).rtake limit

theorem keepsTo_iff {log : List Char} :
    KeepsTo log limit ↔ breaks (ofText log limit) ≤ limit - (allEntries log).length := by
  unfold KeepsTo
  rw [ofText_eq_rtake, linesOf_rtake_iff, and_self, length_linesOf_le_iff]

/-! ## Where line feeds come from -/

/-- The entry is what a severe record of the log says, and a line feed stands in the record's stage or in its
message. -/
def Broken (log : List Char) (entry : String) : Prop :=
  ∃ line ∈ Text.fileLines log, ∃ fields severity, Json.parse? line = some (.obj fields) ∧
    Assoc.find? fields "level" = some severity ∧ isSevere severity = true ∧ entry = heading severity fields ∧
    ('\n' ∈ (fieldOf fields "stage").display.toList ∨ '\n' ∈ (fieldOf fields "message").display.toList)

theorem of_mem_heading {severity : Json} {fields : Fields} (hsevere : isSevere severity = true)
    (h : '\n' ∈ (heading severity fields).toList) :
    '\n' ∈ (fieldOf fields "stage").display.toList ∨ '\n' ∈ (fieldOf fields "message").display.toList := by
  have hseverity : '\n' ∉ severity.display.toList := by
    unfold isSevere at hsevere
    split at hsevere
    · decide
    · decide
    · cases hsevere
  simp only [heading, toString, String.toList_append, List.append_assoc, List.mem_append] at h
  rcases h with h | h | h | h
  · exact absurd h hseverity
  · exact absurd h (by decide)
  · split at h
    · exact .inl (by simpa using h)
    · simp at h
  · exact .inr h

/-- A line feed within an entry comes from the stage or the message of a record. -/
theorem broken_of_mem {log : List Char} {entry : String} (h : entry ∈ allEntries log)
    (hbreak : '\n' ∈ entry.toList) : Broken log entry := by
  obtain ⟨line, hline, hentry⟩ := List.mem_flatMap.1 h
  have hplain : entry ∉ ofLine.plain line := by
    intro hmem
    unfold ofLine.plain at hmem
    split at hmem
    · obtain rfl := List.mem_singleton.1 hmem
      rw [String.toList_ofList] at hbreak
      exact Text.not_mem_of_mem_splitOn hline hbreak
    · cases hmem
  unfold ofLine at hentry
  split at hentry
  · rename_i fields hparse
    split at hentry
    · rename_i severity hlevel
      split at hentry
      · rename_i hsevere
        rcases List.mem_cons.1 hentry with rfl | hfault
        · exact ⟨line, hline, fields, severity, hparse, hlevel, hsevere, rfl, of_mem_heading hsevere hbreak⟩
        · obtain ⟨below, hbelow, rfl⟩ := List.mem_map.1 hfault
          obtain ⟨cs, hcs, rfl⟩ := List.mem_map.1 hbelow
          have hcs' := Text.not_mem_of_mem_messageLinesFrom (by simp) hcs
          exact absurd hbreak (by simpa using hcs')
      · cases hentry
    · exact absurd hentry hplain
  · exact absurd hentry hplain

end Excerpt

/-! ## The report of a failure -/

namespace Supervision

open FlowPlan.Action Excerpt

variable {v : Supervision} {s s₀ s₁ : Site}

/-- The line above an excerpt. -/
def header (v : Supervision) : String := s!"Build failed, see {v.workspace.logPath.text}"

/-- The text of the log. A log that is missing has none. -/
def logText (v : Supervision) (d : Disk) : Attempt String :=
  if d.exists? v.workspace.logPath then d.readText v.workspace.logPath else .ok ""

/-- The same attempt, reported with at most so many entries or not at all. -/
def reporting (v : Supervision) : Option Nat → Supervision
  | none => { v with quiet := false }
  | some limit => { v with quiet := true, excerptLines := limit }

theorem reporting_enter (limit : Option Nat) : (v.reporting limit).enter = v.enter := by
  cases limit with
  | none => rfl
  | some n => rfl

/-- A log that can be read has an excerpt within any limit. -/
theorem excerpt_of_logText {text : String} (h : v.logText s.disk = .ok text) (limit : Nat) :
    excerpt limit v.workspace.logPath s.disk = .ok (ofText text.toList limit) := by
  unfold logText at h
  unfold excerpt
  split at h
  · rename_i hexists
    rw [if_neg (by simp [hexists]), if_neg (by omega), h, Int.toNat_natCast]
    rfl
  · rename_i hmissing
    cases h
    rw [if_pos (by simp [hmissing])]
    rfl

theorem reportFailure_run {text : String} (h : v.logText s.disk = .ok text) (limit : Nat) :
    (v.reporting (some limit)).reportFailure.run s =
      (.ok (), { s with excerpt := s.excerpt ++ v.header :: ofText text.toList limit }) :=
  Session.run_read_ok (excerpt_of_logText h limit) _

/-! ### Before the report -/

/-- A failure is written down before it is reported. -/
def noteFailure (v : Supervision) (f : Fault) : Session Unit := do
  Session.error logger s!"Build aborted: {f.message}" "build_aborted" none (some (abortion f))
    (if f.isBuildFailure then none else some f)
  match ← Action.outcome (v.recordFailure f) with
  | .ok () => pure ()
  | .error g =>
    Session.error logger s!"Could not record aborted workspace {v.workspace.key}: {g.message}"
      "bookkeeping_failed"

theorem abort_eq_noteFailure (f : Fault) :
    v.abort f = v.noteFailure f >>= fun _ => if v.quiet then v.reportFailure else pure () := by
  unfold abort noteFailure
  rw [bind_assoc]
  refine bind_congr fun _ => ?_
  rw [bind_assoc]
  refine bind_congr fun r => ?_
  cases r with
  | ok u => rfl
  | error g => rfl

theorem reporting_noteFailure (limit : Option Nat) (f : Fault) :
    (v.reporting limit).noteFailure f = v.noteFailure f := by
  cases limit with
  | none => rfl
  | some n => rfl

/-- Nothing is reported while a failure is written down. -/
theorem keeps_noteFailure {P : Site → Prop} (h : Site.Detached P)
    (hrecord : ∀ g, Keeps P (v.workspace.changeRecord g)) (f : Fault) : Keeps P (v.noteFailure f) := by
  have hsave : Keeps P v.workspace.saveRecord :=
    (keeps_look _).bind fun _ => Session.keeps_write_of_detached h _
  have hfailure : Keeps P (v.recordFailure f) :=
    (hrecord _).bind fun _ => hsave.bind fun _ =>
      (Pointers.keeps_update_of_detached h _ _).discard.bind fun _ =>
        (Pointers.keeps_removeIf_of_detached h _ _ _).discard
  refine (Session.keeps_report_of_detached h _).bind fun _ => hfailure.outcome.bind fun r => ?_
  cases r with
  | ok u => exact keeps_pure _
  | error g => exact Session.keeps_report_of_detached h _

/-- Writing down a failure succeeds, and the report is none the longer for it. -/
theorem noteFailure_run (f : Fault) (s : Site) :
    ∃ t, (v.noteFailure f).run s = (.ok (), t) ∧ t.excerpt = s.excerpt := by
  have hends : ∃ t, (v.noteFailure f).run s = (.ok (), t) := by
    obtain ⟨s₁, hrun₁, -⟩ := Session.error_run logger s!"Build aborted: {f.message}" "build_aborted"
      none (some (abortion f)) (if f.isBuildFailure then none else some f) s
    unfold noteFailure
    rw [run_bind_ok hrun₁, run_bind_ok (run_outcome _ _)]
    cases ((v.recordFailure f).run s₁).1 with
    | ok u => exact ⟨_, rfl⟩
    | error g => exact ⟨_, rfl⟩
  obtain ⟨t, hrun⟩ := hends
  have hkeeps := keeps_noteFailure (v := v) (P := fun t => t.excerpt = s.excerpt) (fun _ _ _ ht => ht)
    (fun _ => keeps_modify fun _ ht => ht) f
  exact ⟨t, hrun, hkeeps.of_run rfl hrun⟩

/-! ### The whole attempt -/

/-- A quiet attempt that fails leaves what it leaves without a report, and writes the excerpt of its log. At most
as many entries are written as the limit allows, always the last ones, and without a limit there are all. They
keep to the limit as lines, too, exactly if the line feeds within them fill no more of it than they leave free;
and a line feed stands in none but in what a record says whose stage or message holds one. -/
theorem report_limited_iff {α : Type} {a : Session α} {f : Fault} (henter : v.enter.run s₀ = (.ok (), s₁))
    (hfails : a.run s₁ = (.error f, s)) :
    ∃ t, ((v.reporting none).supervise a).run s₀ = (.error f, t) ∧ t.excerpt = s.excerpt ∧
      ∀ text, v.logText t.disk = .ok text →
        (∀ limit : Nat, ((v.reporting (some limit)).supervise a).run s₀ =
          (.error f, { t with excerpt := s.excerpt ++ v.header :: ofText text.toList limit })) ∧
        (∀ limit, (allEntries text.toList).length ≤ limit → ofText text.toList limit = allEntries text.toList) ∧
        (∀ limit, (ofText text.toList limit).length ≤ limit ∧
          linesOf (ofText text.toList limit) <:+ linesOf (allEntries text.toList)) ∧
        (∀ limit, KeepsTo text.toList limit ↔
          breaks (ofText text.toList limit) ≤ limit - (allEntries text.toList).length) ∧
        (∀ entry ∈ allEntries text.toList, '\n' ∈ entry.toList → Broken text.toList entry) ∧
        ((∀ entry, ¬ Broken text.toList entry) → ∀ limit, KeepsTo text.toList limit) := by
  obtain ⟨t, hnote, hexcerpt⟩ := noteFailure_run (v := v) f s
  have hsilent : ((v.reporting none).abort f).run s = (.ok (), t) := by
    rw [abort_eq_noteFailure, reporting_noteFailure]
    exact run_bind_ok hnote
  have hentered : ∀ limit, (v.reporting limit).enter.run s₀ = (.ok (), s₁) := fun limit => by
    rw [reporting_enter, henter]
  refine ⟨t, supervise_failed (hentered _) hfails hsilent, hexcerpt, fun text htext => ?_⟩
  refine ⟨fun limit => ?_, fun limit hlimit => ?_, fun limit => ?_, fun _ => keepsTo_iff,
    fun entry hentry => broken_of_mem hentry, fun hnone limit => ?_⟩
  · have hquiet : ((v.reporting (some limit)).abort f).run s =
        (.ok (), { t with excerpt := s.excerpt ++ v.header :: ofText text.toList limit }) := by
      rw [abort_eq_noteFailure, reporting_noteFailure, ← hexcerpt]
      exact (run_bind_ok hnote).trans (reportFailure_run htext limit)
    exact supervise_failed (hentered _) hfails hquiet
  · rw [ofText_eq_rtake, rtake_of_length_le hlimit]
  · rw [ofText_eq_rtake]
    exact ⟨(length_rtake _ _).le.trans (Nat.min_le_left _ _), linesOf_rtake_isSuffix _ _⟩
  · have hzero : breaks (ofText text.toList limit) = 0 := by
      refine breaks_eq_zero fun entry hentry hbreak => hnone entry (broken_of_mem ?_ hbreak)
      rw [ofText_eq_rtake] at hentry
      exact List.mem_of_mem_drop hentry
    rw [keepsTo_iff, hzero]
    exact Nat.zero_le _

/-- A log with a line that tells of an error, and with the record of a failure whose message goes on in a second
line and that shows the text of its fault. -/
def brokenLog : String :=
  "fatal: disk full\n\x7b\"level\": \"ERROR\", \"message\": \"a\\nb\", \"exception\": \"c\\nd\"\x7d\n"

/-- A workspace with that log. -/
def brokenSite : Site :=
  .ofDisk ⟨[(["/"], .dir), (["/", "p"], .dir), (["/", "p", "k"], .dir),
    (["/", "p", "k", "run.log"], .file (.text brokenLog))], []⟩ ⟨2024, 3, 1, 10, 0, 0, 0, none⟩

/-- An attempt that spoils the file of the pointers and fails. -/
def spoiling : Session Unit := do
  Session.write (·.writeText ⟨"/", ["p", "pointers.json"]⟩ "")
  Action.fail (.halted [.int 3])

/-- Of four entries the last three take four lines, since the first of them goes on in a second line. The last two
are two lines. -/
theorem report_limited_iff_broken : ∃ (v : Supervision) (s₁ t : Site),
    v.enter.run brokenSite = (.ok (), s₁) ∧ (spoiling.run s₁).1 = .error (.halted [.int 3]) ∧
      v.logText t.disk = .ok brokenLog ∧
      ((v.reporting (some 3)).supervise spoiling).run brokenSite =
        (.error (.halted [.int 3]), { t with excerpt := [v.header, "ERROR: a\nb", "    c", "    d"] }) ∧
      KeepsTo brokenLog.toList 2 ∧ ¬ KeepsTo brokenLog.toList 3 := by
  obtain ⟨v, hv⟩ : ∃ v : Supervision, v = ⟨⟨⟨"/", ["p"]⟩, false⟩, ⟨⟨"/", ["p"]⟩, "k"⟩, true, 50⟩ := ⟨_, rfl⟩
  obtain ⟨s₁, hs₁⟩ : ∃ s₁, s₁ = (v.enter.run brokenSite).2 := ⟨_, rfl⟩
  have henter : v.enter.run brokenSite = (.ok (), s₁) := by
    subst hs₁ hv
    rfl
  have hfails : spoiling.run s₁ = (.error (.halted [.int 3]), (spoiling.run s₁).2) := by
    subst hs₁ hv
    rfl
  have hempty : (spoiling.run s₁).2.excerpt = [] := by
    subst hs₁ hv
    rfl
  obtain ⟨t, hrun, -, hreports⟩ := report_limited_iff henter hfails
  have hlog : v.logText t.disk = .ok brokenLog := by
    obtain rfl : (((v.reporting none).supervise spoiling).run brokenSite).2 = t := congrArg Prod.snd hrun
    subst hv
    rfl
  obtain ⟨hquiet, -, -, hiff, -, -⟩ := hreports brokenLog hlog
  have hentries : allEntries brokenLog.toList = ["fatal: disk full", "ERROR: a\nb", "    c", "    d"] := by
    decide +kernel
  refine ⟨v, s₁, t, henter, congrArg Prod.fst hfails, hlog, ?_, ?_, ?_⟩
  · have h := hquiet 3
    rwa [hempty, List.nil_append, ofText_eq_rtake, hentries] at h
  · rw [hiff, ofText_eq_rtake, hentries]
    decide
  · rw [hiff, ofText_eq_rtake, hentries]
    decide

end Supervision

end FlowPlan

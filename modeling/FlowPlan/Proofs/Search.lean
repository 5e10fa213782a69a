import FlowPlan.Proofs.Workspace

/-!
# The search for a key

A new key is looked for among the texts made of one time and increasing numbers, until one is free and
comes after the latest key. There is one among the numbers that begin with more nines than the latest
counter: such a number comes after the counter whatever zeros follow, and it can have more of them than
there are names taken. Only if the latest counter goes on behind its nines with a digit of another script
does no number come after it, for the digits of all other scripts come after those that keys are written
in.

## Main definitions

* `Key.Stuck` — a latest key that no number comes after.
* `Key.overtaking`, `Key.later` — a number with more nines, and those with more zeros behind it.

## Main statements

* `Key.stuck_iff` — a latest key with a time that is not past is stuck exactly if no number comes after it.
* `Key.exists_first?` — after any other there is a free key, however many are taken.
* `BuildDir.allocate_returns` — what an allocation comes to, whatever text the latest key is.
-/

namespace FlowPlan

/-! ## Digits of other scripts -/

namespace Text

/-- The digits of other scripts come after the plain ones. -/
theorem plain_or_later {c : Char} (h : isDigit c = true) : c.isDigit = true ∨ 57 < c.toNat := by
  obtain ⟨r, hr, hlow, hhigh⟩ := Ranges.has_iff.1 h
  have hranges : ∀ r ∈ digitRanges, r = (0x30, 0x39) ∨ 57 < r.1 := by decide
  rcases hranges r hr with rfl | hlater
  · left
    simp only [Char.isDigit, Bool.and_eq_true, decide_eq_true_eq]
    exact ⟨UInt32.le_iff_toNat_le.2 hlow, UInt32.le_iff_toNat_le.2 hhigh⟩
  · exact .inr (hlater.trans_le hlow)

theorem later_of_not_plain {c : Char} (h : isDigit c = true) (hc : c.isDigit = false) : 57 < c.toNat := by
  grind [plain_or_later]

theorem digitValue?_le (c : Char) : (digitValue? c).getD 0 ≤ 9 := by
  unfold digitValue?
  cases digitRanges.find? _ with
  | none => simp
  | some r =>
    simp only [Option.map_some, Option.getD_some]
    omega

theorem digitsValue_lt (cs : List Char) : digitsValue cs < 10 ^ cs.length := by
  have hfold : ∀ n, cs.foldl (fun n c => 10 * n + (digitValue? c).getD 0) n <
      (n + 1) * 10 ^ cs.length := by
    induction cs with
    | nil => simp
    | cons c cs ih =>
      intro n
      have hc := digitValue?_le c
      calc cs.foldl _ (10 * n + (digitValue? c).getD 0)
          < (10 * n + (digitValue? c).getD 0 + 1) * 10 ^ cs.length := ih _
        _ ≤ ((n + 1) * 10) * 10 ^ cs.length := Nat.mul_le_mul_right _ (by omega)
        _ = (n + 1) * 10 ^ (c :: cs).length := by rw [List.length_cons, Nat.pow_succ']; ring
  simpa [digitsValue] using hfold 0

/-- Plain digits do not come after nines with a later character behind them. -/
theorem leChars_nines {ds nines : List Char} {c : Char} (hplain : ∀ d ∈ ds, d.isDigit = true)
    (hnines : ∀ d ∈ nines, d = '9') (hc : 57 < c.toNat) (rest : List Char) :
    leChars ds (nines ++ c :: rest) = true := by
  induction nines generalizing ds with
  | nil =>
    cases ds with
    | nil => rfl
    | cons d ds =>
      have hd := (plain_bounds (hplain d List.mem_cons_self)).2
      simp only [List.nil_append, leChars, Bool.or_eq_true, decide_eq_true_eq]
      exact .inl (by omega)
  | cons e nines ih =>
    cases ds with
    | nil => rfl
    | cons d ds =>
      obtain rfl := hnines e List.mem_cons_self
      have hd := (plain_bounds (hplain d List.mem_cons_self)).2
      have hrest : leChars ds (nines ++ c :: rest) = true :=
        ih (fun x hx => hplain x (List.mem_cons_of_mem d hx)) fun x hx =>
          hnines x (List.mem_cons_of_mem '9' hx)
      have hnine : '9'.toNat = 57 := rfl
      simp only [List.cons_append, leChars, Bool.or_eq_true, decide_eq_true_eq, Bool.and_eq_true,
        beq_iff_eq, hrest, and_true]
      rcases Nat.lt_or_eq_of_le hd with hlt | heq
      · exact .inl (by omega)
      · exact .inr (Char.toNat_inj.1 heq)

end Text

namespace Key

/-! ## The parts of a latest key -/

theorem of_counter? {cs ds : List Char} (h : counter? cs = some ds) :
    cs = (if ds = [] then [] else '-' :: ds) ∧ ∀ c ∈ ds, Text.isDigit c = true := by
  unfold counter? at h
  split at h
  · cases h
    simp
  · split at h
    · cases h
    · rename_i ds' hds
      cases h
      simp only [Bool.or_eq_true, List.isEmpty_iff, Bool.not_eq_true', not_or, Bool.not_eq_false,
        List.all_eq_true] at hds
      exact ⟨by rw [if_neg hds.1], hds.2⟩
  · cases h

/-- A text that is shaped like a key is a time, digits behind a hyphen or nothing, and perhaps a line feed. -/
theorem of_split? {text time : String} {ds : List Char} (h : split? text = some (time, ds)) :
    IsTime time ∧ (∀ c ∈ ds, Text.isDigit c = true) ∧ ∃ tail : List Char, (tail = [] ∨ tail = ['\n']) ∧
      text.toList = time.toList ++ ((if ds = [] then [] else '-' :: ds) ++ tail) := by
  obtain ⟨tail, htail, htext⟩ : ∃ tail : List Char, (tail = [] ∨ tail = ['\n']) ∧
      text.toList = dropFinalNewline text.toList ++ tail := by
    unfold dropFinalNewline
    split
    · exact ⟨['\n'], .inr rfl, (List.dropLast_append_getLast? _ ‹_›).symm⟩
    · exact ⟨[], .inl rfl, by simp⟩
  unfold split? at h
  obtain ⟨cs, hcs⟩ : ∃ cs, cs = dropFinalNewline text.toList := ⟨_, rfl⟩
  rw [← hcs] at h htext
  dsimp only at h
  split at h
  · rename_i hfits
    obtain ⟨ds', hcounter, heq⟩ := Option.map_eq_some_iff.1 h
    cases heq
    obtain ⟨hdrop, hdigits⟩ := of_counter? hcounter
    refine ⟨by simpa [IsTime] using hfits, hdigits, tail, htail, ?_⟩
    rw [htext, ← hdrop, String.toList_ofList, ← List.append_assoc, List.take_append_drop]
  · cases h

/-- The time of the latest key is not past, and its counter goes on behind its nines with a digit of another
script. -/
def Stuck (now latest : String) : Prop :=
  ∃ time nines c rest, split? latest = some (time, nines ++ c :: rest) ∧ Text.le now time = true ∧
    (∀ d ∈ nines, d = '9') ∧ c.isDigit = false

/-- What keys are made of does not get stuck. -/
theorem IsKey.not_stuck {key : String} (h : IsKey key) (now : String) : ¬ Stuck now key := by
  rintro ⟨time, nines, c, rest, hsplit, -, -, hc⟩
  obtain ⟨time', n, htime, rfl⟩ := h
  rw [split?_numbered htime n] at hsplit
  have hds : (if n = 0 then [] else (Instant.padded 3 n).toList) = nines ++ c :: rest :=
    congrArg Prod.snd (Option.some.inj hsplit)
  split at hds
  · simp at hds
  · have hplain : c.isDigit = true := Instant.plain_padded c (by rw [hds]; simp)
    rw [hc] at hplain
    cases hplain

theorem IsKey.isSome_split? {key : String} (h : IsKey key) : (split? key).isSome = true := by
  obtain ⟨time, n, htime, rfl⟩ := h
  rw [split?_numbered htime n]
  rfl

theorem Stuck.not_lt {now latest time : String} {ds : List Char} (h : Stuck now latest)
    (hsplit : split? latest = some (time, ds)) (n : Nat) :
    Text.lt latest (numbered time n) = false := by
  obtain ⟨time', nines, c, rest, hsplit', -, hnines, hc⟩ := h
  rw [hsplit] at hsplit'
  cases hsplit'
  obtain ⟨-, hdigits, tail, -, htext⟩ := of_split? hsplit
  have hlater := Text.later_of_not_plain (hdigits c (by simp)) hc
  unfold Text.lt Text.le
  rw [toList_numbered, htext, Text.leChars_append, if_neg (show nines ++ c :: rest ≠ [] by simp)]
  split
  · rfl
  · have hplain : ∀ d ∈ (Instant.padded 3 n).toList, d.isDigit = true := Instant.plain_padded
    have hle := Text.leChars_nines hplain hnines hlater (rest ++ tail)
    simp [Text.leChars, hle]

/-! ## Later numbers -/

theorem toDigits_nines (p : Nat) : Nat.toDigits 10 (10 ^ (p + 1) - 1) = List.replicate (p + 1) '9' := by
  induction p with
  | zero => rfl
  | succ p ih =>
    have hpos : 1 < 10 ^ (p + 1) := Nat.one_lt_pow (by omega) (by decide)
    have happend := Nat.toDigits_append_toDigits (b := 10) (n := 10 ^ (p + 1) - 1) (d := 9) (by decide)
      (by omega) (by decide)
    rw [show 10 ^ (p + 1 + 1) - 1 = 10 * (10 ^ (p + 1) - 1) + 9 by rw [Nat.pow_succ]; omega, ← happend, ih,
      List.replicate_succ' (n := p + 1)]
    rfl

/-- The `j`-th number behind `n` in search of a free one: the one before it with one more zero. -/
def later (n j : Nat) : Nat := 10 ^ (j + 1) * max n 100

theorem later_injective (n : Nat) : Function.Injective (later n) := by
  intro i j h
  have := Nat.eq_of_mul_eq_mul_right (by omega) h
  have := Nat.pow_right_injective (show 2 ≤ 10 by decide) this
  omega

/-- More nines than a counter begins with, and at least two digits more than it has. -/
def overtaking (nines digits : Nat) : Nat := 10 ^ (digits - nines + 2) * (10 ^ (nines + 1) - 1)

theorem overtaking_bounds {nines digits : Nat} (h : nines ≤ digits) :
    100 ≤ overtaking nines digits ∧ 10 ^ digits ≤ overtaking nines digits ∧
      overtaking nines digits < 10 ^ (digits + 3) := by
  have hpos : 0 < 10 ^ nines := Nat.pow_pos (by decide)
  have hnines : 10 ^ nines ≤ 10 ^ (nines + 1) - 1 := by rw [Nat.pow_succ]; omega
  have hlow : 10 ^ (digits + 2) ≤ overtaking nines digits :=
    calc 10 ^ (digits + 2) = 10 ^ (digits - nines + 2) * 10 ^ nines := by rw [← Nat.pow_add]; congr 1; omega
      _ ≤ overtaking nines digits := Nat.mul_le_mul_left _ hnines
  refine ⟨?_, ?_, ?_⟩
  · have : 10 ^ 2 ≤ 10 ^ (digits + 2) := Nat.pow_le_pow_right (by decide) (by omega)
    omega
  · exact (Nat.pow_le_pow_right (by decide) (by omega)).trans hlow
  · calc overtaking nines digits < 10 ^ (digits - nines + 2) * 10 ^ (nines + 1) :=
          Nat.mul_lt_mul_of_pos_left (by omega) (Nat.pow_pos (by decide))
      _ = 10 ^ (digits + 3) := by rw [← Nat.pow_add]; congr 1; omega

theorem toDigits_overtaking (nines digits j : Nat) (h : 100 ≤ overtaking nines digits) :
    Nat.toDigits 10 (later (overtaking nines digits) j) =
      List.replicate nines '9' ++ '9' :: List.replicate (j + 1 + (digits - nines + 2)) '0' := by
  have hpos : 0 < 10 ^ (nines + 1) - 1 := by
    have : 1 < 10 ^ (nines + 1) := Nat.one_lt_pow (by omega) (by decide)
    omega
  rw [later, show max (overtaking nines digits) 100 = overtaking nines digits by omega, overtaking,
    ← Nat.mul_assoc, ← Nat.pow_add, toDigits_zeros hpos, toDigits_nines, List.replicate_succ']
  simp

/-- A latest key that is not stuck is overtaken. -/
theorem exists_overtaking {now latest time : String} {ds : List Char}
    (hsplit : split? latest = some (time, ds)) (hle : Text.le now time = true) (h : ¬ Stuck now latest) :
    ∃ nines ≤ ds.length, ∀ j,
      Text.lt latest (numbered time (later (overtaking nines ds.length) j)) = true := by
  obtain ⟨-, hdigits, tail, htail, htext⟩ := of_split? hsplit
  -- The counter is cut behind its nines.
  obtain ⟨nines, rest, rfl, hnines, hrest⟩ : ∃ nines rest, ds = nines ++ rest ∧ (∀ d ∈ nines, d = '9') ∧
      ∀ c cs, rest = c :: cs → c ≠ '9' := by
    refine ⟨ds.takeWhile (· = '9'), ds.dropWhile (· = '9'), List.takeWhile_append_dropWhile.symm, ?_, ?_⟩
    · intro d hd
      simpa using List.mem_takeWhile_imp hd
    · intro c cs hcs
      have := List.head?_dropWhile_not (· = '9') ds
      simpa [hcs] using this
  refine ⟨nines.length, by simp, fun j => ?_⟩
  obtain ⟨h100, -, -⟩ := overtaking_bounds (show nines.length ≤ (nines ++ rest).length by simp)
  have hle100 : 100 ≤ later (overtaking nines.length (nines ++ rest).length) j :=
    h100.trans ((le_max_left _ _).trans (Nat.le_mul_of_pos_left _ (Nat.pow_pos (by decide))))
  have hcounter := toDigits_overtaking nines.length (nines ++ rest).length j h100
  rw [← List.eq_replicate_of_mem hnines] at hcounter
  -- A nine comes after what stands behind the nines of the counter, or there is nothing.
  have hbehind : ∀ zeros, Text.leChars ('9' :: zeros) (rest ++ tail) = false := by
    intro zeros
    cases rest with
    | nil => rcases htail with rfl | rfl <;> rfl
    | cons c cs =>
      have hc : c.isDigit = true := by
        refine Bool.eq_true_of_not_eq_false fun hc => h ⟨time, nines, c, cs, hsplit, hle, hnines, hc⟩
      have hle57 := (Text.plain_bounds hc).2
      have hne : ('9' == c) = false := by simpa using (hrest c cs rfl).symm
      have hnine : '9'.toNat = 57 := rfl
      simp only [List.cons_append, Text.leChars, hne, Bool.false_and, Bool.or_false,
        decide_eq_false_iff_not]
      omega
  unfold Text.lt Text.le
  rw [toList_numbered, htext, Text.leChars_append, if_neg (by omega), toList_padded_of_le hle100, hcounter]
  split
  · rcases htail with rfl | rfl <;> rfl
  · have := Text.leChars_append nines
      ('9' :: List.replicate (j + 1 + ((nines ++ rest).length - nines.length + 2)) '0') (rest ++ tail)
    rw [hbehind] at this
    simpa [Text.leChars] using this

/-- A latest key whose time is not past is stuck exactly if no number comes after it. -/
theorem stuck_iff {now latest time : String} {ds : List Char} (hsplit : split? latest = some (time, ds))
    (hle : Text.le now time = true) :
    Stuck now latest ↔ ∀ n, Text.lt latest (numbered time n) = false := by
  refine ⟨fun h => h.not_lt hsplit, fun h => Classical.byContradiction fun hfine => ?_⟩
  obtain ⟨nines, -, hlater⟩ := exists_overtaking hsplit hle hfine
  have := h (later (overtaking nines ds.length) 0)
  rw [hlater] at this
  cases this

/-! ## The search -/

/-- Among more numbers than there are names, one has a key that is none of them. -/
theorem exists_numbered_notMem (time : String) {number : Nat → Nat} (hnumber : Function.Injective number)
    {names : List String} {taken : Nat} (h : names.length ≤ taken) :
    ∃ j ≤ taken, numbered time (number j) ∉ names := by
  have hcard : names.toFinset.card <
      ((Finset.range (taken + 1)).image (numbered time ∘ number)).card := by
    rw [Finset.card_image_of_injective _ ((numbered_injective time).comp hnumber), Finset.card_range]
    have := names.toFinset_card_le
    omega
  obtain ⟨key, hkey, hnot⟩ := Finset.exists_mem_notMem_of_card_lt_card hcard
  obtain ⟨j, hj, rfl⟩ := Finset.mem_image.1 hkey
  exact ⟨j, by simpa [Nat.lt_succ_iff] using hj, by simpa using hnot⟩

theorem exists_firstFrom {isFree : String → Bool} {l : Option String} {base : String}
    {fuel n m : Nat} (hnm : n ≤ m) (hm : m < n + fuel) (hfree : isFree (numbered base m) = true)
    (hlater : l.all (fun l => Text.lt l (numbered base m)) = true) :
    ∃ key, firstFrom isFree l base fuel n = some key := by
  induction fuel generalizing n with
  | zero => omega
  | succ fuel ih =>
    unfold firstFrom
    dsimp only
    split
    · exact ⟨_, rfl⟩
    · rename_i hkey
      refine ih ?_ (by omega)
      rcases Nat.eq_or_lt_of_le hnm with rfl | hlt
      · exact absurd (by rw [hlater, hfree]; rfl) hkey
      · exact hlt

/-- A free key is found among more numbers than there are names, if all are later and within the bound. -/
theorem exists_firstFrom_later {isFree : String → Bool} (l : Option String) {base : String} (fuel n : Nat)
    {taken : Nat} {number : Nat → Nat} {names : List String} (hnames : names.length ≤ taken)
    (hfree : ∀ m, numbered base m ∉ names → isFree (numbered base m) = true)
    (hnumber : Function.Injective number) (hrange : ∀ j ≤ taken, n ≤ number j ∧ number j < fuel)
    (hlater : ∀ j, l.all (fun l => Text.lt l (numbered base (number j))) = true) :
    ∃ m, firstFrom isFree l base fuel n = some (numbered base m) ∧
      l.all (fun l => Text.lt l (numbered base m)) = true := by
  obtain ⟨j, hj, hnot⟩ := exists_numbered_notMem base hnumber hnames
  obtain ⟨hn, hfuel⟩ := hrange j hj
  obtain ⟨key, hkey⟩ := exists_firstFrom hn (Nat.lt_add_left n hfuel) (hfree _ hnot) (hlater j)
  obtain ⟨m, -, rfl, -, hl, -⟩ := of_firstFrom hkey
  exact ⟨m, hkey, hl⟩

theorem taken_lt_bound (digits taken : Nat) : taken < bound digits taken := by
  have := Nat.lt_pow_self (n := digits + taken + 4) (show 1 < 10 by decide)
  unfold bound
  rw [Nat.pow_eq]
  omega

theorem later_overtaking_bounds {nines digits : Nat} (h : nines ≤ digits) {taken j : Nat} (hj : j ≤ taken) :
    10 ^ digits ≤ later (overtaking nines digits) j ∧
      later (overtaking nines digits) j < bound digits taken := by
  obtain ⟨h100, hlow, hhigh⟩ := overtaking_bounds h
  have hmax : max (overtaking nines digits) 100 = overtaking nines digits := by omega
  unfold later
  rw [hmax]
  constructor
  · exact hlow.trans (Nat.le_mul_of_pos_left _ (Nat.pow_pos (by decide)))
  · calc 10 ^ (j + 1) * overtaking nines digits < 10 ^ (j + 1) * 10 ^ (digits + 3) :=
          Nat.mul_lt_mul_of_pos_left hhigh (Nat.pow_pos (by decide))
      _ = 10 ^ (digits + j + 4) := by rw [← Nat.pow_add]; congr 1; omega
      _ ≤ 10 ^ (digits + taken + 4) := Nat.pow_le_pow_right (by decide) (by omega)
      _ < bound digits taken := by
        unfold bound
        rw [Nat.pow_eq]
        omega

/-- A key with a later time comes later, whatever the counters are. -/
theorem lt_of_time_lt {latest time base : String} {ds : List Char}
    (hsplit : split? latest = some (time, ds)) (hbase : IsTime base) (h : Text.le base time = false)
    (n : Nat) : Text.lt latest (numbered base n) = true := by
  obtain ⟨htime, -, tail, -, htext⟩ := of_split? hsplit
  have hlength : time.toList.length = base.toList.length :=
    (length_of_isTime htime).trans (length_of_isTime hbase).symm
  unfold Text.lt Text.le at *
  rw [toList_numbered, htext, Text.leChars_append_false hlength h]
  rfl

/-- There is a free key after a latest one that is not stuck, if at most so many keys are taken. -/
theorem exists_first? (isFree : String → Bool) {taken : Nat} {now : Instant} {latest : Option String}
    (hnow : now.IsClock) (hlatest : ∀ l, latest = some l → ¬ Stuck now.key l) {names : List String}
    (hnames : names.length ≤ taken) (hfree : ∀ key, IsKey key → key ∉ names → isFree key = true) :
    ∃ key, first? isFree taken now latest = some key ∧ IsKey key ∧
      ∀ l, latest = some l → (split? l).isSome → Text.lt l key = true := by
  have free : ∀ {base}, IsTime base → ∀ m, numbered base m ∉ names → isFree (numbered base m) = true :=
    fun hbase m => hfree _ ⟨_, m, hbase, rfl⟩
  unfold first?
  cases hparts : latest.bind split? with
  | none =>
    -- The latest key, if there is one, is not shaped like a key.
    obtain ⟨m, hkey, -⟩ := exists_firstFrom_later none (bound 0 taken) 0 hnames
      (free hnow.isTime_key) Function.injective_id
      (fun j hj => ⟨Nat.zero_le j, lt_of_le_of_lt hj (taken_lt_bound _ taken)⟩) (by simp)
    refine ⟨_, by simpa [start] using hkey, ⟨_, m, hnow.isTime_key, rfl⟩, ?_⟩
    rintro l rfl hsome
    rw [Option.bind_some] at hparts
    simp [hparts] at hsome
  | some parts =>
    obtain ⟨time, ds⟩ := parts
    obtain ⟨l, rfl, hsplit⟩ := Option.bind_eq_some_iff.1 hparts
    obtain ⟨htime, -⟩ := of_split? hsplit
    simp only [Option.elim_some, Option.isSome_some, if_true, start]
    split
    · rename_i hle
      obtain ⟨nines, hnines, hlater⟩ := exists_overtaking hsplit hle (hlatest l rfl)
      obtain ⟨m, hkey, hl⟩ := exists_firstFrom_later (some l) (bound ds.length taken) (Text.digitsValue ds)
        hnames (free htime) (later_injective (overtaking nines ds.length))
        (fun j hj => (later_overtaking_bounds hnines hj).imp_left ((Text.digitsValue_lt ds).le.trans ·))
        (by simpa using hlater)
      refine ⟨_, hkey, ⟨_, m, htime, rfl⟩, ?_⟩
      rintro _ ⟨⟩ -
      simpa using hl
    · rename_i hle
      obtain ⟨m, hkey, hl⟩ := exists_firstFrom_later (some l) (bound ds.length taken) 0
        hnames (free hnow.isTime_key) Function.injective_id
        (fun j hj => ⟨Nat.zero_le j, lt_of_le_of_lt hj (taken_lt_bound _ taken)⟩)
        (by simpa using lt_of_time_lt hsplit hnow.isTime_key (by simpa using hle))
      refine ⟨_, hkey, ⟨_, m, hnow.isTime_key, rfl⟩, ?_⟩
      rintro _ ⟨⟩ -
      simpa using hl

/-- The search for a key after a latest one that is stuck finds none, however long it goes on. -/
theorem Stuck.first?_eq_none {now : Instant} {l : String} (h : Stuck now.key l) (isFree : String → Bool)
    (taken : Nat) : first? isFree taken now (some l) = none := by
  obtain ⟨time, nines, c, rest, hsplit, hle, -⟩ := id h
  refine Option.eq_none_iff_forall_ne_some.2 fun key hkey => ?_
  unfold first? at hkey
  simp only [Option.bind_some, hsplit, Option.elim_some, Option.isSome_some, if_true, start, hle] at hkey
  obtain ⟨m, -, rfl, -, hlater, -⟩ := of_firstFrom hkey
  simp [h.not_lt hsplit m] at hlater

/-- A latest key that is not shaped like one makes no difference: the key found is the first of those of the
present time that is free. -/
theorem of_first?_unmatched {isFree : String → Bool} {taken : Nat} {now : Instant} {latest : Option String}
    {key : String} (h : first? isFree taken now latest = some key) (hlatest : latest.bind split? = none) :
    ∃ n, key = numbered now.key n ∧ ∀ m < n, isFree (numbered now.key m) = false := by
  unfold first? at h
  rw [hlatest] at h
  obtain ⟨n, -, rfl, -, -, hbefore⟩ := of_firstFrom h
  exact ⟨n, rfl, fun m hm => by simpa [start] using hbefore m (Nat.zero_le m) hm⟩

end Key

/-- There are at most as many names in a directory as there are entries on the disk. -/
theorem Disk.exists_names (d : Disk) (A : Address) :
    ∃ names : List String, names.length ≤ d.entries.length ∧ ∀ n, n ∉ names → d.find? (A ++ [n]) = none := by
  refine ⟨d.entries.filterMap (·.1.getLast?), List.length_filterMap_le _ _, fun n hn => ?_⟩
  refine Classical.byContradiction fun hne => hn ?_
  obtain ⟨e, he⟩ := Option.ne_none_iff_exists'.1 hne
  have hmem : (A ++ [n], e) ∈ d.entries := by
    unfold Disk.find? at he
    split at he
    · simp_all
    · exact Assoc.mem_of_find? he
  exact List.mem_filterMap.2 ⟨_, hmem, by simp⟩

/-! ## Allocations -/

namespace BuildDir

open FlowPlan.Action Site Pointers

variable {b : BuildDir} {A : Address} {s : Site}

/-- There is a key for the next workspace after a latest one that is not stuck. -/
theorem exists_nextKey (hr : Disk.Rooted Disk.maxLinks s.disk b.root A) (hclock : s.clock.IsClock)
    (latest : Option String) (hlatest : ∀ l, latest = some l → ¬ Key.Stuck s.clock.key l) :
    ∃ key, b.nextKey s latest = some key ∧ Key.IsKey key ∧
      ∀ l, latest = some l → (Key.split? l).isSome → Text.lt l key = true := by
  obtain ⟨names, hlength, hnames⟩ := s.disk.exists_names A
  refine Key.exists_first? _ hclock hlatest hlength fun key hkey hnot => ?_
  rw [hr.lookup?_child hkey.isKeyName.isName.1 (by simp), hnames key hnot]
  rfl

/-- An allocation comes to an end unless the latest key is stuck, whatever text it is; if it is, no number
comes after it. The new key is free, and it comes after a latest key that is shaped like one. Any other
text makes no difference: the new key is the first of those of the present time that is free. -/
theorem allocate_returns (hr : Disk.Rooted Disk.maxLinks s.disk b.root A) (hclosed : Disk.Closed A s.disk)
    (hlog : s.journal.file = none) (hclock : s.clock.IsClock) {B : Bindings}
    (hload : b.pointers.load s.disk = .ok B) {l : String} (hl : Assoc.find? B latest = some (.str l)) :
    (Key.Stuck s.clock.key l → b.allocate.run s = (.error .endless, s) ∧
      ∀ time ds, Key.split? l = some (time, ds) → ∀ n, Text.lt l (Key.numbered time n) = false) ∧
    (¬ Key.Stuck s.clock.key l → ∃ key t, b.allocate.run s = (.ok (b.workspace key), t) ∧
      s.disk.find? (A ++ [key]) = none ∧ t.disk.find? (A ++ [key]) = some .dir ∧
      ((Key.split? l).isSome → Text.lt l key = true) ∧
      (Key.split? l = none → ∃ n, key = Key.numbered s.clock.key n ∧
        ∀ m < n, s.disk.find? (A ++ [Key.numbered s.clock.key m]) ≠ none)) := by
  have hready := ready_of_journal hr hlog
  have hkey : latestKey ((Assoc.find? B latest).getD .null) = .ok (if l.isEmpty then none else some l) := by
    rw [hl]
    rfl
  -- An empty text is not shaped like a key.
  have hsome : ∀ {parts}, Key.split? l = some parts → (if l.isEmpty then none else some l) = some l := by
    rintro parts hparts
    rw [if_neg]
    intro hempty
    rw [String.isEmpty_iff.1 hempty] at hparts
    cases hparts
  constructor
  · intro hstuck
    refine ⟨?_, fun time ds hsplit n => hstuck.not_lt hsplit n⟩
    obtain ⟨time, nines, c, rest, hsplit, -⟩ := id hstuck
    unfold allocate
    rw [run_bind_ok (Session.makeDirs_run hr), run_bind_ok (get_run hload (by decide)), hkey, hsome hsplit,
      Action.lift_ok_bind]
    rcases claim_run hr (some l) with ⟨-, hclaim⟩ | ⟨key, hnext, -⟩
    · exact run_bind_error hclaim
    · rw [nextKey, hstuck.first?_eq_none] at hnext
      cases hnext
  · intro hfine
    obtain ⟨key, hnext, -, hlater⟩ := exists_nextKey hr hclock (if l.isEmpty then none else some l)
      fun l' hl' => by grind
    rcases allocate_run hready hclosed hlog hload with ⟨f, -, hnone⟩ | ⟨key', l', t, hrun, ha, hkey', hnext'⟩
    · rw [hnone _ hkey] at hnext
      cases hnext
    rw [hkey] at hkey'
    cases hkey'
    rw [hnext] at hnext'
    cases hnext'
    refine ⟨key, t, hrun, ha.free, ha.dir, fun hshape => ?_, fun hnone => ?_⟩
    · obtain ⟨parts, hparts⟩ := Option.isSome_iff_exists.1 hshape
      exact hlater l (hsome hparts) hshape
    · obtain ⟨n, hn, hbefore⟩ := Key.of_first?_unmatched hnext (by split <;> simp [hnone])
      refine ⟨n, hn, fun m hm => ?_⟩
      have hname := (Key.isKey_key hclock).isKeyName
      have hfree := hbefore m hm
      rw [hr.lookup?_child (Key.isKeyName_numbered hname m).isName.1 (by simp)] at hfree
      simpa [← Option.isSome_iff_ne_none] using hfree

/-- A site with a build root that holds only pointers with this latest key. -/
def led (latest : String) : Site :=
  .ofDisk ⟨[(["/"], .dir), (["/", "p"], .dir), (["/", "p", "run"], .dir),
    (["/", "p", "run", storeName], .file (.json (.obj [("latest", .str latest)])))], []⟩
    ⟨2023, 1, 1, 0, 0, 0, 0, none⟩

/-- A counter of one Arabic-Indic digit, and a text that is no key. -/
theorem allocate_returns_led : let b : BuildDir := ⟨⟨"/", ["p", "run"]⟩, true⟩
    b.allocate.run (led "20240101-000000.000000-\u0661") =
      (.error .endless, led "20240101-000000.000000-\u0661") ∧
    ∃ t, b.allocate.run (led "former") = (.ok ⟨⟨"/", ["p", "run"]⟩, "20230101-000000.000000"⟩, t) := by
  intro b
  have hrooted : ∀ l, Disk.Rooted Disk.maxLinks (led l).disk b.root ["/", "p", "run"] := fun l =>
    .of_dirs _ (by unfold Path.Clean; decide +kernel) rfl (by decide +kernel) fun k hk => by
      have hle : k ≤ 3 := hk
      interval_cases k <;> rfl
  have hclosed : ∀ l, Disk.Closed ["/", "p", "run"] (led l).disk := by
    intro l k n _
    simp [led, Site.ofDisk, Disk.find?, Assoc.find?_cons]
  have hstore : ∀ l, (led l).disk.find? (["/", "p", "run"] ++ [storeName]) =
      some (.file (.json (.obj [("latest", .str l)]))) := fun l => rfl
  have hload : ∀ l, b.pointers.load (led l).disk = .ok [("latest", .str l)] := fun l =>
    load_of_file (hrooted l) (hstore l)
  have hfind : ∀ l, Assoc.find? [("latest", Json.str l)] latest = some (.str l) := fun l => rfl
  have hclock : Instant.IsClock ⟨2023, 1, 1, 0, 0, 0, 0, none⟩ := ⟨rfl, by decide, by decide⟩
  constructor
  · refine ((allocate_returns (hrooted _) (hclosed _) rfl hclock (hload _) (hfind _)).1 ?_).1
    exact ⟨"20240101-000000.000000", [], '\u0661', [], by decide +kernel, by decide +kernel, by simp, rfl⟩
  · have hnone : Key.split? "former" = none := by decide +kernel
    obtain ⟨key, t, hrun, -, -, -, hfirst⟩ :=
      (allocate_returns (hrooted _) (hclosed _) rfl hclock (hload _) (hfind "former")).2 (by
        rintro ⟨time, nines, c, rest, hsplit, -⟩
        rw [hnone] at hsplit
        cases hsplit)
    obtain ⟨n, rfl, hbefore⟩ := hfirst hnone
    -- Nothing has the present time for a name.
    obtain rfl : n = 0 := Nat.eq_zero_of_not_pos fun hn => hbefore 0 hn (by decide +kernel)
    exact ⟨t, hrun⟩

end BuildDir

end FlowPlan

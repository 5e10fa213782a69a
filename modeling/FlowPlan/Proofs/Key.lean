import FlowPlan.Build.Key
import FlowPlan.Proofs.Disk.Location
import FlowPlan.Proofs.Json.Sorted
import Mathlib

/-!
# Keys

A key is a time and a counter, and can be the name of a directory. The number of a counter is read back
from its key, so that different numbers give different keys.

## Main definitions

* `Key.IsTime` — what a key says of the time, in digits of any script.
* `Key.IsKey` — a time with a counter in plain digits, as keys are made from the clock.
* `Key.IsKeyName` — what every key looks like, also after a latest key in other digits.

## Main statements

* `Key.split?_numbered` — a key is taken apart into its time and its counter.
* `Key.of_first?` — a key that is found is free.
-/

namespace FlowPlan

/-! ## Digits -/

namespace Text

theorem plain_bounds {c : Char} (h : c.isDigit = true) : 48 ≤ c.toNat ∧ c.toNat ≤ 57 := by
  simp only [Char.isDigit, Bool.and_eq_true, decide_eq_true_eq] at h
  exact ⟨UInt32.le_iff_toNat_le.1 h.1, UInt32.le_iff_toNat_le.1 h.2⟩

theorem isDigit_of_plain {c : Char} (h : c.isDigit = true) : isDigit c = true :=
  Ranges.has_iff.2 ⟨(0x30, 0x39), by decide, plain_bounds h⟩

/-! ## Order by digits -/

theorem leChars_append (a x y : List Char) : leChars (a ++ x) (a ++ y) = leChars x y := by
  induction a with
  | nil => rfl
  | cons c a ih => simp [leChars, ih]

/-- A difference between two beginnings of one length decides. -/
theorem leChars_append_false {a b : List Char} (hlength : a.length = b.length)
    (h : leChars b a = false) (x y : List Char) : leChars (b ++ y) (a ++ x) = false := by
  induction a generalizing b with
  | nil =>
    cases b with
    | nil => simp [leChars] at h
    | cons d b => simp at hlength
  | cons c a ih =>
    cases b with
    | nil => simp at hlength
    | cons d b =>
      simp only [leChars, List.cons_append, Bool.or_eq_false_iff, Bool.and_eq_false_iff] at h ⊢
      exact ⟨h.1, h.2.imp_right (ih (by simpa using hlength))⟩

end Text

/-! ## Padded numbers -/

namespace Instant

theorem toList_padded (width n : Nat) :
    (padded width n).toList =
      List.replicate (width - (Nat.toDigits 10 n).length) '0' ++ Nat.toDigits 10 n := by
  simp [padded, Nat.repr_eq_ofList_toDigits]

theorem plain_padded {width n : Nat} : ∀ c ∈ (padded width n).toList, c.isDigit = true := by
  intro c hc
  rw [toList_padded, List.mem_append] at hc
  rcases hc with hc | hc
  · rw [List.eq_of_mem_replicate hc]
    rfl
  · exact Nat.isDigit_of_mem_toDigits (by decide) (by decide) hc

theorem value_padded (width n : Nat) : Nat.ofDigitChars 10 (padded width n).toList 0 = n := by
  rw [toList_padded, Nat.ofDigitChars_append]
  simp

theorem padded_ne_empty (width n : Nat) : padded width n ≠ "" := by
  intro h
  have hlist := toList_padded width n
  rw [h] at hlist
  simp at hlist

theorem length_padded {width n : Nat} (hwidth : 0 < width) (h : n < 10 ^ width) :
    (padded width n).toList.length = width := by
  have := (Nat.length_toDigits_le_iff (b := 10) (by decide) hwidth).2 h
  rw [toList_padded, List.length_append, List.length_replicate]
  omega

end Instant

namespace Key

/-! ## The shape of keys -/

/-- The text is a time as keys hold it, in digits of any script. -/
def IsTime (time : String) : Prop := fits time.toList timeShape = true

/-- A time and a counter. -/
def IsKey (key : String) : Prop := ∃ time n, IsTime time ∧ key = numbered time n

/-- The text begins with a digit and holds but digits, hyphens and points. -/
def IsKeyName (key : String) : Prop :=
  (∃ c cs, key.toList = c :: cs ∧ Text.isDigit c = true) ∧
    ∀ c ∈ key.toList, Text.isDigit c = true ∨ c = '-' ∨ c = '.'

theorem fits_append {a b : List Char} {s t : List (Option Char)} (ha : fits a s = true)
    (hb : fits b t = true) : fits (a ++ b) (s ++ t) = true := by
  simp only [fits, Bool.and_eq_true, decide_eq_true_eq] at ha hb ⊢
  refine ⟨by simp [ha.1, hb.1], ?_⟩
  rw [List.zip_append ha.1, List.all_append, ha.2, hb.2]
  rfl

theorem fits_digits {n : Nat} {ds : List Char} (hlength : ds.length = n)
    (h : ∀ c ∈ ds, c.isDigit = true) : fits ds (List.replicate n none) = true := by
  subst hlength
  induction ds with
  | nil => rfl
  | cons c ds ih =>
    have hrest := ih fun d hd => h d (List.mem_cons_of_mem c hd)
    have hc := Text.isDigit_of_plain (h c List.mem_cons_self)
    simp_all [fits, List.replicate_succ]

theorem fits_mark (c : Char) : fits [c] [some c] = true := by simp [fits]

theorem length_of_isTime {time : String} (h : IsTime time) : time.toList.length = 22 := by
  unfold IsTime fits at h
  rw [Bool.and_eq_true, decide_eq_true_eq] at h
  exact h.1

theorem fits_cons {c : Char} {cs : List Char} {place : Option Char} {shape : List (Option Char)}
    (h : fits (c :: cs) (place :: shape) = true) :
    (match place with
      | some mark => c = mark
      | none => Text.isDigit c = true) ∧ fits cs shape = true := by
  simp only [fits, List.length_cons, List.zip_cons_cons, List.all_cons, Bool.and_eq_true,
    decide_eq_true_eq, Nat.add_right_cancel_iff] at h ⊢
  obtain ⟨hlength, hc, hcs⟩ := h
  refine ⟨?_, hlength, hcs⟩
  cases place <;> simpa using hc

/-- Every place of a time holds a digit or a mark. -/
theorem char_of_fits {cs : List Char} {shape : List (Option Char)} (h : fits cs shape = true)
    (hshape : ∀ mark, some mark ∈ shape → mark = '-' ∨ mark = '.') :
    ∀ c ∈ cs, Text.isDigit c = true ∨ c = '-' ∨ c = '.' := by
  induction cs generalizing shape with
  | nil => simp
  | cons c cs ih =>
    cases shape with
    | nil => simp [fits] at h
    | cons place shape =>
      obtain ⟨hc, hcs⟩ := fits_cons h
      rintro d (_ | ⟨_, hd⟩)
      · cases place with
        | none => exact .inl hc
        | some mark => exact .inr (hc ▸ hshape mark List.mem_cons_self)
      · exact ih hcs (fun mark hmark => hshape mark (List.mem_cons_of_mem place hmark)) d hd

theorem isKeyName_of_isTime {time : String} (h : IsTime time) : IsKeyName time := by
  have hchars := char_of_fits h (by simp [timeShape])
  have hlength := length_of_isTime h
  cases hcs : time.toList with
  | nil => simp [hcs] at hlength
  | cons c cs =>
    have hc : Text.isDigit c = true := by
      unfold IsTime at h
      rw [hcs, timeShape, List.replicate_succ] at h
      exact (fits_cons h).1
    exact ⟨⟨c, cs, hcs, hc⟩, hchars⟩

theorem toList_numbered (base : String) (n : Nat) :
    (numbered base n).toList =
      base.toList ++ if n = 0 then [] else '-' :: (Instant.padded 3 n).toList := by
  unfold numbered
  split <;> simp

theorem isKeyName_numbered {base : String} (h : IsKeyName base) (n : Nat) :
    IsKeyName (numbered base n) := by
  obtain ⟨⟨c, cs, hcs, hc⟩, hchars⟩ := h
  refine ⟨⟨c, _, by rw [toList_numbered, hcs, List.cons_append], hc⟩, fun d hd => ?_⟩
  rw [toList_numbered, List.mem_append] at hd
  rcases hd with hd | hd
  · exact hchars d hd
  · split at hd
    · cases hd
    · rcases List.mem_cons.1 hd with rfl | hd
      · exact .inr (.inl rfl)
      · exact .inl (Text.isDigit_of_plain (Instant.plain_padded d hd))

theorem toList_key (t : Instant) :
    t.key.toList =
      (Nat.toDigits 10 t.year ++ (Instant.padded 2 t.month).toList ++ (Instant.padded 2 t.day).toList) ++
      ['-'] ++
      ((Instant.padded 2 t.hour).toList ++ (Instant.padded 2 t.minute).toList ++
        (Instant.padded 2 t.second).toList) ++
      ['.'] ++ (Instant.padded 6 t.micro).toList := by
  simp [Instant.key]

theorem plain_toDigits {n : Nat} : ∀ c ∈ Nat.toDigits 10 n, c.isDigit = true :=
  fun _ hc => Nat.isDigit_of_mem_toDigits (by decide) (by decide) hc

theorem isKeyName_key (t : Instant) : IsKeyName t.key := by
  have hplain : ∀ {c : Char}, c.isDigit = true → Text.isDigit c = true ∨ c = '-' ∨ c = '.' :=
    fun h => .inl (Text.isDigit_of_plain h)
  refine ⟨?_, fun c hc => ?_⟩
  · cases hds : Nat.toDigits 10 t.year with
    | nil => exact absurd hds Nat.toDigits_ne_nil
    | cons c cs =>
      refine ⟨c, _, by rw [toList_key, hds]; simp only [List.cons_append]; rfl, ?_⟩
      exact Text.isDigit_of_plain (plain_toDigits c (hds ▸ List.mem_cons_self))
  · rw [toList_key] at hc
    simp only [List.mem_append, List.mem_singleton] at hc
    rcases hc with (((((hc | hc) | hc) | hc) | ((hc | hc) | hc)) | hc) | hc
    · exact hplain (plain_toDigits c hc)
    · exact hplain (Instant.plain_padded c hc)
    · exact hplain (Instant.plain_padded c hc)
    · exact .inr (.inl hc)
    · exact hplain (Instant.plain_padded c hc)
    · exact hplain (Instant.plain_padded c hc)
    · exact hplain (Instant.plain_padded c hc)
    · exact .inr (.inr hc)
    · exact hplain (Instant.plain_padded c hc)

/-! ## Names -/

theorem IsKeyName.isName {key : String} (h : IsKeyName key) : Path.IsName key ∧ Path.NulFree key := by
  obtain ⟨⟨c, cs, hcs, hc⟩, hchars⟩ := h
  have hmem : ∀ d : Char, Text.isDigit d = false → d ≠ '-' → d ≠ '.' → d ∉ key.toList := by
    intro d hd hhyphen hpoint hin
    rcases hchars d hin with h | h | h
    · rw [hd] at h; cases h
    · exact hhyphen h
    · exact hpoint h
  have hhead : ∀ text : String, (∀ e es, text.toList = e :: es → Text.isDigit e = false) → key ≠ text := by
    rintro text ht rfl
    rw [ht c cs hcs] at hc
    cases hc
  refine ⟨⟨hhead "" (by simp), hhead "." ?_, hhead ".." ?_, hmem '/' ?_ (by decide) (by decide)⟩,
    hmem '\x00' ?_ (by decide) (by decide)⟩
  · intro e es h
    obtain ⟨rfl, -⟩ := List.cons.inj (h.symm.trans (show ".".toList = ['.'] from rfl))
    decide +kernel
  · intro e es h
    obtain ⟨rfl, -⟩ := List.cons.inj (h.symm.trans (show "..".toList = ['.', '.'] from rfl))
    decide +kernel
  · decide +kernel
  · decide +kernel

theorem IsKey.isKeyName {key : String} (h : IsKey key) : IsKeyName key := by
  obtain ⟨time, n, htime, rfl⟩ := h
  exact isKeyName_numbered (isKeyName_of_isTime htime) n

/-- A name that does not begin with a digit is no key. -/
theorem IsKeyName.ne {key name : String} (h : IsKeyName key)
    (hname : (name.toList.head?.any Text.isDigit) = false) : key ≠ name := by
  rintro rfl
  obtain ⟨⟨c, cs, hcs, hc⟩, -⟩ := h
  rw [hcs] at hname
  simp [hc] at hname

/-! ## Reading keys -/

theorem split?_numbered {time : String} (h : IsTime time) (n : Nat) :
    split? (numbered time n) =
      some (time, if n = 0 then [] else (Instant.padded 3 n).toList) := by
  have hlength : time.toList.length = timeShape.length := length_of_isTime h
  have hlast : ((numbered time n).toList.getLast? = some '\n') = False := by
    rw [eq_iff_iff, iff_false]
    intro hl
    have hin := List.mem_of_getLast? hl
    rcases (isKeyName_numbered (isKeyName_of_isTime h) n).2 _ hin with hd | hd | hd
    · revert hd; decide +kernel
    · revert hd; decide
    · revert hd; decide
  have hcounter : counter? (if n = 0 then [] else '-' :: (Instant.padded 3 n).toList) =
      some (if n = 0 then [] else (Instant.padded 3 n).toList) := by
    by_cases hn : n = 0
    · simp [hn, counter?]
    · have hall : (Instant.padded 3 n).toList.all Text.isDigit = true :=
        List.all_eq_true.2 fun c hc => Text.isDigit_of_plain (Instant.plain_padded c hc)
      simp [hn, counter?, hall, Instant.padded_ne_empty]
  unfold split? dropFinalNewline
  simp only [hlast, if_false]
  rw [toList_numbered, List.take_left' hlength, List.drop_left' hlength, hcounter]
  rw [if_pos (show fits time.toList timeShape = true from h)]
  simp

/-! ## Numbers -/

theorem toDigits_zeros {n : Nat} (hn : 0 < n) (j : Nat) :
    Nat.toDigits 10 (10 ^ j * n) = Nat.toDigits 10 n ++ List.replicate j '0' := by
  induction j with
  | zero => simp
  | succ j ih =>
    have hpos : 0 < 10 ^ j * n := Nat.mul_pos (Nat.pow_pos (by decide)) hn
    have happend := Nat.toDigits_append_toDigits (b := 10) (n := 10 ^ j * n) (d := 0) (by decide) hpos
      (by decide)
    rw [Nat.pow_succ, Nat.mul_comm (10 ^ j) 10, Nat.mul_assoc, ← Nat.add_zero (10 * _), ← happend, ih,
      List.replicate_succ', List.append_assoc]
    rfl

theorem toList_padded_of_le {n : Nat} (h : 100 ≤ n) :
    (Instant.padded 3 n).toList = Nat.toDigits 10 n := by
  have := Nat.length_toDigits_le_iff (b := 10) (n := n) (k := 2) (by decide) (by decide)
  rw [Instant.toList_padded, Nat.sub_eq_zero_of_le (by omega)]
  rfl

theorem numbered_injective (time : String) : Function.Injective (numbered time) := by
  intro m n h
  have hlist := congrArg String.toList h
  rw [toList_numbered, toList_numbered, List.append_cancel_left_eq] at hlist
  by_cases hm : m = 0 <;> by_cases hn : n = 0
  · omega
  · simp [hm, hn] at hlist
  · simp [hm, hn] at hlist
  · simp only [hm, hn, if_false, List.cons.injEq, true_and] at hlist
    rw [← Instant.value_padded 3 m, ← Instant.value_padded 3 n, hlist]

/-- The number that is found comes first: those before it will not do. -/
theorem of_firstFrom {isFree : String → Bool} {latest : Option String} {base key : String}
    {fuel n : Nat} (h : firstFrom isFree latest base fuel n = some key) :
    ∃ m, n ≤ m ∧ key = numbered base m ∧ isFree key = true ∧
      latest.all (fun l => Text.lt l key) = true ∧
      ∀ k, n ≤ k → k < m →
        (latest.all (fun l => Text.lt l (numbered base k)) && isFree (numbered base k)) = false := by
  induction fuel generalizing n with
  | zero => cases h
  | succ fuel ih =>
    unfold firstFrom at h
    dsimp only at h
    split at h
    · rename_i hkey
      cases h
      rw [Bool.and_eq_true] at hkey
      exact ⟨n, le_rfl, rfl, hkey.2, hkey.1, fun k hn hk => absurd hk (by omega)⟩
    · rename_i hkey
      obtain ⟨m, hn, hm, hfree, hlater, hbefore⟩ := ih h
      refine ⟨m, by omega, hm, hfree, hlater, fun k hk hkm => ?_⟩
      rcases Nat.eq_or_lt_of_le hk with rfl | hlt
      · exact Bool.eq_false_of_not_eq_true hkey
      · exact hbefore k hlt hkm

/-- A key is free, and is a name. -/
theorem of_first? {isFree : String → Bool} {taken : Nat} {now : Instant} {latest : Option String}
    {key : String} (h : first? isFree taken now latest = some key) :
    isFree key = true ∧ IsKeyName key := by
  unfold first? at h
  obtain ⟨m, -, rfl, hfree, -⟩ := of_firstFrom h
  refine ⟨hfree, isKeyName_numbered ?_ m⟩
  have hstart : ∀ parts : Option (String × List Char), (∀ q, parts = some q → IsTime q.1) →
      IsKeyName (start now.key parts).1 := by
    intro parts hparts
    unfold start
    cases parts with
    | none => exact isKeyName_key now
    | some q =>
      dsimp only
      split
      · exact isKeyName_of_isTime (hparts q rfl)
      · exact isKeyName_key now
  refine hstart _ fun q hq => ?_
  obtain ⟨l, -, hl⟩ := Option.bind_eq_some_iff.1 hq
  unfold split? at hl
  dsimp only at hl
  split at hl
  · obtain ⟨ds, -, rfl⟩ := Option.map_eq_some_iff.1 hl
    simpa [IsTime] using ‹fits _ timeShape = true›
  · cases hl

end Key

namespace Instant

/-- The time exists, and its year has four digits. -/
def IsClock (t : Instant) : Prop := t.isDate = true ∧ 1000 ≤ t.year ∧ t.micro < 1000000

theorem IsClock.isTime_key {t : Instant} (h : t.IsClock) : Key.IsTime t.key := by
  obtain ⟨hdate, hyear, hmicro⟩ := h
  simp only [isDate, Bool.and_eq_true, decide_eq_true_eq] at hdate
  obtain ⟨⟨⟨⟨⟨⟨⟨⟨-, hyear'⟩, -⟩, hmonth⟩, -⟩, hday⟩, hhour⟩, hminute⟩, hsecond⟩ := hdate
  have hday' : t.day < 100 := by
    have : daysInMonth t.year t.month ≤ 31 := by
      unfold daysInMonth
      split <;> (try split) <;> omega
    omega
  have hlength : (Nat.toDigits 10 t.year).length = 4 := by
    have h4 := Nat.length_toDigits_le_iff (b := 10) (n := t.year) (k := 4) (by decide) (by decide)
    have h3 := Nat.length_toDigits_le_iff (b := 10) (n := t.year) (k := 3) (by decide) (by decide)
    omega
  have hpair : ∀ {n}, n < 100 → Key.fits (padded 2 n).toList (List.replicate 2 none) = true :=
    fun hn => Key.fits_digits (length_padded (by decide) hn) plain_padded
  unfold Key.IsTime
  rw [Key.toList_key]
  have hdatePart := Key.fits_append (Key.fits_append (Key.fits_digits hlength Key.plain_toDigits)
    (hpair (n := t.month) (by omega))) (hpair hday')
  have hclockPart := Key.fits_append (Key.fits_append (hpair (n := t.hour) (by omega))
    (hpair (n := t.minute) (by omega))) (hpair (n := t.second) (by omega))
  exact Key.fits_append (Key.fits_append (Key.fits_append (Key.fits_append hdatePart
    (Key.fits_mark '-')) hclockPart) (Key.fits_mark '.'))
    (Key.fits_digits (length_padded (by decide) hmicro) plain_padded)

end Instant

namespace Key

theorem isKey_key {t : Instant} (h : t.IsClock) : IsKey t.key := ⟨t.key, 0, h.isTime_key, rfl⟩

/-- Without a latest key the time alone will do if it is free. -/
theorem first?_none {isFree : String → Bool} {taken : Nat} {now : Instant}
    (hfree : isFree now.key = true) : first? isFree taken now none = some now.key := by
  unfold first? bound
  simp only [Option.bind_none, start, Option.isSome_none]
  unfold firstFrom
  simp [numbered, hfree]

end Key

end FlowPlan

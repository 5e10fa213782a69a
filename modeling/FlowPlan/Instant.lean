import FlowPlan.Fault

/-!
# Points in time

Times are read and written in the notation of ISO 8601: a calendar or week date, any one character,
and a time of day with an optional fraction and offset. Separators may be left out. A text of
another shape and a date that does not exist are different faults.

## Main definitions

* `Instant.parse` — read a time.
* `Instant.micros`, `Instant.ofMicros` — a time as a count of microseconds, and back.
* `Instant.secondsSince` — the distance of two times.
* `Instant.text` — write a time; the fraction and the offset only where there is one.
* `Instant.key` — the compact form that workspaces are named by.
-/

namespace FlowPlan

/-- A date and a time of day, with the offset from universal time in microseconds if it is known. -/
structure Instant where
  year : Nat
  month : Nat
  day : Nat
  hour : Nat
  minute : Nat
  second : Nat
  micro : Nat
  offset : Option Int
  deriving DecidableEq, Repr

namespace Instant

/-! ## The calendar -/

def isLeap (year : Nat) : Bool := year % 4 = 0 && (year % 100 ≠ 0 || year % 400 = 0)

def daysInMonth (year month : Nat) : Nat :=
  match month with
  | 2 => if isLeap year then 29 else 28
  | 4 | 6 | 9 | 11 => 30
  | _ => 31

/-- The number of days before the first of January; year 1 begins on day 1. -/
def daysBefore (year : Nat) : Nat :=
  let y := year - 1
  365 * y + y / 4 - y / 100 + y / 400

/-- The weekday of the first of January, Monday being zero. -/
def firstWeekday (year : Nat) : Nat := daysBefore year % 7

/-- The day number of the Monday of a year's first week, which is the one with the fourth of
January. -/
def firstMonday (year : Nat) : Int :=
  let w := firstWeekday year
  (daysBefore year : Int) + 1 - w + (if 3 < w then 7 else 0)

/-- The month and the day of a day of the year, counted from one. -/
def monthDay (year : Nat) : Nat → Nat → Nat → Nat × Nat
  | 0, month, day => (month, day)
  | fuel + 1, month, day =>
    let length := daysInMonth year month
    if day ≤ length then (month, day) else monthDay year fuel (month + 1) (day - length)

/-- The date of a day, the first of January of year 1 being day 1. A cycle of the calendar has 400
years; its last century and the last year of four have one day more than the others. -/
def dateOfDay (n : Nat) : Nat × Nat × Nat :=
  let cycle := (n - 1) / 146097
  let inCycle := (n - 1) % 146097
  let century := min (inCycle / 36524) 3
  let inCentury := inCycle - century * 36524
  let inFour := inCentury % 1461
  let single := min (inFour / 365) 3
  let year := 400 * cycle + 100 * century + 4 * (inCentury / 1461) + single + 1
  (year, monthDay year 12 1 (inFour - single * 365 + 1))

/-- A year has 53 weeks if it begins on a Thursday, or on a Wednesday in a leap year. -/
def weeksInYear (year : Nat) : Nat :=
  if firstWeekday year = 3 || (firstWeekday year = 2 && isLeap year) then 53 else 52

/-- The date of a day of a week. No date of the year zero exists, though its weeks have 52 names. -/
def ofWeek? (year week day : Nat) : Option (Nat × Nat × Nat) :=
  if 1 ≤ week && week ≤ (if year = 0 then 52 else weeksInYear year) && 1 ≤ day && day ≤ 7 then
    if year = 0 then some (0, 0, 0)
    else some (dateOfDay (firstMonday year + ((week - 1) * 7 + day - 1 : Nat)).toNat)
  else none

/-- Every field is in its range and the day exists. -/
def isDate (t : Instant) : Bool :=
  1 ≤ t.year && t.year ≤ 9999 && 1 ≤ t.month && t.month ≤ 12 && 1 ≤ t.day &&
    t.day ≤ daysInMonth t.year t.month && t.hour ≤ 23 && t.minute ≤ 59 && t.second ≤ 59

/-! ## Reading -/

def digitsValue (cs : List Char) : Nat := cs.foldl (fun n c => 10 * n + (c.toNat - 48)) 0

/-- Exactly that many digits, and what follows them. -/
def digits? (count : Nat) (cs : List Char) : Option (Nat × List Char) :=
  let ds := cs.take count
  if ds.length = count && ds.all Char.isDigit then some (digitsValue ds, cs.drop count) else none

/-- Where the date ends, judging by its hyphens and by the mark of a week. A week date without
hyphens has a day if an odd number of digits follows the week. -/
def dateLength? (cs : List Char) : Option Nat :=
  if cs.length = 7 then some 7
  else
    match cs[4]?, cs[5]? with
    | some '-', some 'W' =>
      if cs.length < 8 then none
      else if cs[8]? = some '-' then
        if cs.length = 9 then none else if (cs[10]?.any Char.isDigit) then some 8 else some 10
      else some 8
    | some '-', _ => some 10
    | some 'W', _ =>
      let stop := 7 + ((cs.drop 7).takeWhile Char.isDigit).length
      if stop < 9 then some stop else if stop % 2 = 0 then some 7 else some 8
    | _, _ => some 8

/-- Drop the hyphen that a date uses throughout or not at all. -/
def hyphen? (used : Bool) (cs : List Char) : Option (List Char) :=
  if used then (if cs.head? = some '-' then some cs.tail else none) else some cs

/-- The date at the start of a text, of which `length` characters belong to it. -/
def date? (length : Option Nat) (cs : List Char) : Option (Nat × Nat × Nat) := do
  let (year, rest) ← digits? 4 cs
  let hyphens := rest.head? = some '-'
  let rest ← hyphen? hyphens rest
  match rest with
  | 'W' :: rest =>
    let (week, rest) ← digits? 2 rest
    let ended := length.any (· ≤ cs.length - rest.length)
    if ended then ofWeek? year week 1
    else
      let (day, _) ← digits? 1 (← hyphen? hyphens rest)
      ofWeek? year week day
  | _ =>
    let (month, rest) ← digits? 2 rest
    let (day, _) ← digits? 2 (← hyphen? hyphens rest)
    return (year, month, day)

/-- A time of day as far as it was read. -/
structure Clock where
  hour : Nat
  minute : Nat
  second : Nat
  micro : Nat
  /-- Something follows that does not belong to the clock. -/
  unfinished : Bool

/-- The digits of a fraction. Six count; more are skipped. -/
def fraction? (hms : Nat × Nat × Nat) (followed : Bool) (cs : List Char) : Option Clock := do
  let count := min cs.length 6
  let (n, rest) ← digits? count cs
  let rest := rest.dropWhile Char.isDigit
  return ⟨hms.1, hms.2.1, hms.2.2, n * Nat.pow 10 (6 - count), followed || !rest.isEmpty⟩

/-- Put the next field of a time of day into its place. -/
def setField (hms : Nat × Nat × Nat) (i n : Nat) : Nat × Nat × Nat :=
  match i with
  | 0 => (n, hms.2.1, hms.2.2)
  | 1 => (hms.1, n, hms.2.2)
  | _ => (hms.1, hms.2.1, n)

/-- The fields from the `i`-th on, then a fraction. Colons are used throughout or not at all; `colons`
is not known before the first field ends. A single ASCII character may follow before an offset. -/
def clockFrom? (followed : Bool) : Nat → Nat → Option Bool → Nat × Nat × Nat → List Char → Option Clock
  | 0, _, _, hms, cs => fraction? hms followed cs
  | fuel + 1, i, colons, hms, cs =>
    match digits? 2 cs with
    | none => none
    | some (n, rest) =>
      let hms := setField hms i n
      match rest with
      | [] => some ⟨hms.1, hms.2.1, hms.2.2, 0, followed⟩
      | [c] => if c.toNat < 0x80 then some ⟨hms.1, hms.2.1, hms.2.2, 0, true⟩ else none
      | c :: after =>
        let colons := colons.getD (c = ':')
        if colons && c = ':' then clockFrom? followed fuel (i + 1) (some colons) hms after
        else if c = '.' || c = ',' then fraction? hms followed after
        else if !colons then clockFrom? followed fuel (i + 1) (some colons) hms rest
        else none

/-- A time of day; `followed` if an offset comes after it. -/
def clock? (followed : Bool) (cs : List Char) : Option Clock :=
  clockFrom? followed 3 0 none (0, 0, 0) cs

def isZoneMark (c : Char) : Bool := c = '+' || c = '-' || c = 'Z'

/-- A time of day and its offset in seconds and microseconds. -/
def time? (cs : List Char) : Option (Clock × Option Int) :=
  let zone := cs.dropWhile (!isZoneMark ·)
  match clock? (!zone.isEmpty) (cs.takeWhile (!isZoneMark ·)), zone with
  | none, _ => none
  | some clock, [] => if clock.unfinished then none else some (clock, none)
  | some clock, 'Z' :: rest => if rest.isEmpty then some (clock, some 0) else none
  | some clock, sign :: rest =>
    match clock? false rest with
    | none => none
    | some zone =>
      let seconds := (zone.hour * 60 + zone.minute) * 60 + zone.second
      let offset : Int := if seconds = 0 then 0 else (seconds * 1000000 + zone.micro : Nat)
      if zone.unfinished then none else some (clock, some (if sign = '-' then -offset else offset))

/-- A whole day in microseconds. -/
def dayMicros : Int := 86400000000

/-- A time of the right shape whose fields may be out of range. -/
def shaped? (cs : List Char) : Option Instant := do
  let length := dateLength? cs
  let (year, month, day) ← date? length cs
  match cs.drop (length.getD 0) with
  | [] => return ⟨year, month, day, 0, 0, 0, 0, none⟩
  | _ :: rest =>
    let (clock, offset) ← time? rest
    return ⟨year, month, day, clock.hour, clock.minute, clock.second, clock.micro, offset⟩

/-- Read a time. -/
def parse (text : String) : Attempt Instant :=
  match shaped? text.toList with
  | none => .error (.notDate text)
  | some t =>
    if t.isDate && t.offset.all fun o => -dayMicros < o && o < dayMicros then .ok t
    else .error .noSuchDate

/-! ## Counting -/

/-- Days of the year before a month, of which that many are over. -/
def daysBeforeMonth (year : Nat) : Nat → Nat
  | 0 => 0
  | m + 1 => daysBeforeMonth year m + daysInMonth year (m + 1)

/-- Days up to a date, the first of January of year 1 being the first. -/
def dayNumber (t : Instant) : Nat :=
  daysBefore t.year + daysBeforeMonth t.year (t.month - 1) + t.day

/-- Microseconds up to a time. -/
def micros (t : Instant) : Int :=
  (((t.dayNumber * 24 + t.hour) * 60 + t.minute) * 60 + t.second) * 1000000 + t.micro - t.offset.getD 0

/-- The time in universal time, that many microseconds after the start of day 0. -/
def ofMicros (n : Nat) : Instant :=
  let seconds := n / 1000000
  let (year, month, day) := dateOfDay (seconds / 86400)
  ⟨year, month, day, seconds / 3600 % 24, seconds / 60 % 60, seconds % 60, n % 1000000, some 0⟩

/-- The seconds that have gone by since an earlier time. -/
def secondsSince (t earlier : Instant) : Binary64 :=
  let n := t.micros - earlier.micros
  Binary64.ofRatio (n < 0) n.natAbs 1000000

/-! ## Writing -/

/-- A number in decimal digits, padded with zeros to a width. -/
def padded (width n : Nat) : String :=
  let digits := toString n
  String.ofList (List.replicate (width - digits.length) '0') ++ digits

def offsetText (offset : Int) : String :=
  let micros := offset.natAbs
  let seconds := micros / 1000000
  let fraction := micros % 1000000
  (if offset < 0 then "-" else "+") ++ padded 2 (seconds / 3600) ++ ":" ++ padded 2 (seconds / 60 % 60) ++
    (if seconds % 60 = 0 && fraction = 0 then "" else ":" ++ padded 2 (seconds % 60)) ++
    (if fraction = 0 then "" else "." ++ padded 6 fraction)

def text (t : Instant) : String :=
  padded 4 t.year ++ "-" ++ padded 2 t.month ++ "-" ++ padded 2 t.day ++ "T" ++
    padded 2 t.hour ++ ":" ++ padded 2 t.minute ++ ":" ++ padded 2 t.second ++
    (if t.micro = 0 then "" else "." ++ padded 6 t.micro) ++
    (match t.offset with
      | some offset => offsetText offset
      | none => "")

/-- The date and the time down to the millisecond, as readable logs write it. -/
def stamp (t : Instant) : String :=
  padded 4 t.year ++ "-" ++ padded 2 t.month ++ "-" ++ padded 2 t.day ++ " " ++
    padded 2 t.hour ++ ":" ++ padded 2 t.minute ++ ":" ++ padded 2 t.second ++ "," ++
    padded 3 (t.micro / 1000)

/-- The date and the time as two runs of digits, and the microseconds. -/
def key (t : Instant) : String :=
  toString t.year ++ padded 2 t.month ++ padded 2 t.day ++ "-" ++
    padded 2 t.hour ++ padded 2 t.minute ++ padded 2 t.second ++ "." ++ padded 6 t.micro

end Instant

end FlowPlan

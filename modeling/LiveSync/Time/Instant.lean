import LiveSync.Text.Blank
import LiveSync.Text.Decimal

/-!
# Points in time

An **instant** is a point in time in UTC, to the nanosecond. A leap second
is the second 59 with more than a whole second of nanoseconds: it is kept
as it was read, and written as second 60.

Reading is generous about the shape of a date. Fields need no leading
zeros, blanks may stand before a field or a dash or colon, and day and
time are parted by `T`, `t` or one space. An offset from UTC is needed:
`Z`, the word `UTC`, or hours and two digits of minutes behind a sign. Of
a fraction the first nine digits count.

Writing has one shape, in UTC, with no, three, six or nine digits of
fraction, as few as show the nanoseconds.
-/

namespace LiveSync

/-- **A point in time**, counted from the start of 1970. -/
structure Instant where
  /-- Whole seconds, leap seconds not counted. -/
  seconds : Int
  /-- Nanoseconds, from `10 ^ 9` on within a leap second. -/
  nanos : Nat
deriving Repr, DecidableEq, Inhabited

namespace Instant

/-! ### The calendar -/

/-- A day of the calendar. -/
structure Day where
  year : Int
  month : Nat
  day : Nat
deriving Repr, DecidableEq

/-- Whether a year has 366 days. -/
def isLeapYear (year : Int) : Bool :=
  (year % 4 = 0 && year % 100 ≠ 0) || year % 400 = 0

/-- How many days a month has. -/
def daysInMonth (year : Int) (month : Nat) : Nat :=
  match month with
  | 2 => if isLeapYear year then 29 else 28
  | 4 | 6 | 9 | 11 => 30
  | _ => 31

/-- The earliest year. -/
def minYear : Int := -262143

/-- The latest year. -/
def maxYear : Int := 262142

/-- Whether a day is in the calendar. -/
def Day.isValid (d : Day) : Bool :=
  minYear ≤ d.year && d.year ≤ maxYear && 1 ≤ d.month && d.month ≤ 12
    && 1 ≤ d.day && d.day ≤ daysInMonth d.year d.month

/-- **The number of a day**, counted from the start of 1970. Years begin in
March here, so that the leap day is the last one of its year. -/
def Day.number (d : Day) : Int :=
  let y := if d.month ≤ 2 then d.year - 1 else d.year
  let era := y.fdiv 400
  let yearOfEra := y - era * 400
  let monthOfYear : Int := (d.month + 9) % 12
  let dayOfYear := (153 * monthOfYear + 2) / 5 + d.day - 1
  let dayOfEra := yearOfEra * 365 + yearOfEra / 4 - yearOfEra / 100 + dayOfYear
  era * 146097 + dayOfEra - 719468

/-- **The day of a number.** -/
def Day.ofNumber (n : Int) : Day :=
  let z := n + 719468
  let era := z.fdiv 146097
  let dayOfEra := z - era * 146097
  let yearOfEra :=
    (dayOfEra - dayOfEra / 1460 + dayOfEra / 36524 - dayOfEra / 146096) / 365
  let dayOfYear := dayOfEra - (365 * yearOfEra + yearOfEra / 4 - yearOfEra / 100)
  let monthOfYear := (5 * dayOfYear + 2) / 153
  let day := dayOfYear - (153 * monthOfYear + 2) / 5 + 1
  let month := if monthOfYear < 10 then monthOfYear + 3 else monthOfYear - 9
  let year := yearOfEra + era * 400 + (if month ≤ 2 then 1 else 0)
  ⟨year, month.toNat, day.toNat⟩

/-! ### Reading -/

/-- Reads something off the start of a text. -/
abbrev Scan (α : Type) := List Char → Option (α × List Char)

/-- Between one and `most` digits, behind blanks. -/
def number (most : Nat) (cs : List Char) : Option (Nat × List Char) :=
  let cs := Text.trimStart cs
  let ds := (cs.takeWhile Char.isDigit).take most
  (Decimal.toNat? ds).map fun n => (n, cs.drop ds.length)

/-- A year: up to four digits, or any number of them behind a sign. -/
def year (cs : List Char) : Option (Int × List Char) :=
  match Text.trimStart cs with
  | '-' :: rest => (digits rest).map fun p => (-(p.1 : Int), p.2)
  | '+' :: rest => (digits rest).map fun p => ((p.1 : Int), p.2)
  | rest => (number 4 rest).map fun p => ((p.1 : Int), p.2)
where
  /-- Any number of digits, at least one. -/
  digits (cs : List Char) : Option (Nat × List Char) :=
    (Decimal.toNat? (cs.takeWhile Char.isDigit)).map fun n => (n, cs.dropWhile Char.isDigit)

/-- What follows a mark, before which blanks may stand. -/
def afterMark (mark : Char) (cs : List Char) : Option (List Char) :=
  match Text.trimStart cs with
  | c :: rest => if c = mark then some rest else none
  | [] => none

/-- The nanoseconds of a fraction; none, if there is no point. -/
def fraction : Scan Nat
  | '.' :: cs =>
    let ds := cs.takeWhile Char.isDigit
    let kept := ds.take 9
    (Decimal.toNat? kept).map fun n => (n * Nat.pow 10 (9 - kept.length), cs.dropWhile Char.isDigit)
  | cs => some (0, cs)

/-- The minutes of two digits after a sign's hours. -/
def offsetMinutes (cs : List Char) : Option (Nat × List Char) :=
  match cs.dropWhile fun c => c = ':' || Text.isBlank c with
  | m :: n :: rest =>
    if '0' ≤ m ∧ m ≤ '5' ∧ n.isDigit then some (Nat.ofDigitChars 10 [m, n] 0, rest) else none
  | _ => none

/-- The minutes of an offset behind its sign. -/
def offsetSize : Scan Int
  | g :: h :: rest =>
    if g.isDigit ∧ h.isDigit then
      (offsetMinutes rest).map fun p => ((Nat.ofDigitChars 10 [g, h] 0 * 60 + p.1 : Nat), p.2)
    else none
  | _ => none

/-- The minutes by which a text is ahead of UTC. -/
def offset (cs : List Char) : Option (Int × List Char) :=
  match cs with
  | 'Z' :: rest | 'z' :: rest => some (0, rest)
  | '+' :: rest => offsetSize rest
  | '-' :: rest | '\u2212' :: rest => (offsetSize rest).map fun p => (-p.1, p.2)
  | u :: t :: c :: rest =>
    if [u, t, c].map Char.toLower = ['u', 't', 'c'] then some (0, rest) else none
  | _ => none

/-- What follows the one character between day and time. -/
def afterSeparator : List Char → Option (List Char)
  | 'T' :: rest | 't' :: rest | ' ' :: rest => some rest
  | _ => none

/-- **The instant a text names.** -/
def parse? (text : String) : Option Instant := do
  let (y, cs) ← year text.toList
  let cs ← afterMark '-' cs
  let (mo, cs) ← number 2 cs
  let cs ← afterMark '-' cs
  let (d, cs) ← number 2 cs
  let cs ← afterSeparator cs
  let (h, cs) ← number 2 cs
  let cs ← afterMark ':' cs
  let (mi, cs) ← number 2 cs
  let cs ← afterMark ':' cs
  let (s, cs) ← number 2 cs
  let (frac, cs) ← fraction cs
  let (ahead, cs) ← offset (Text.trimStart cs)
  let day : Day := ⟨y, mo, d⟩
  guard (Text.trimStart cs = [] ∧ day.isValid ∧ h < 24 ∧ mi < 60 ∧ s ≤ 60
    ∧ ahead.natAbs < 24 * 60)
  let seconds := day.number * 86400 + h * 3600 + mi * 60 + min s 59 - ahead * 60
  guard ((Day.ofNumber (seconds.fdiv 86400)).isValid)
  return ⟨seconds, if s = 60 then frac + 1_000_000_000 else frac⟩

/-! ### Writing -/

/-- The text of a year: four digits, or a sign and at least four. -/
def yearText (y : Int) : List Char :=
  if 0 ≤ y ∧ y ≤ 9999 then Decimal.padded 4 y.toNat
  else (if y < 0 then '-' else '+') :: Decimal.padded 4 y.natAbs

/-- The fraction of a second, as short as shows all of it. -/
def fractionText (nanos : Nat) : List Char :=
  if nanos = 0 then []
  else if nanos % 1_000_000 = 0 then '.' :: Decimal.padded 3 (nanos / 1_000_000)
  else if nanos % 1_000 = 0 then '.' :: Decimal.padded 6 (nanos / 1_000)
  else '.' :: Decimal.padded 9 nanos

/-- **The text of an instant.** -/
def text (t : Instant) : String :=
  let day := Day.ofNumber (t.seconds.fdiv 86400)
  let clock := (t.seconds.fmod 86400).toNat
  let leap := 1_000_000_000 ≤ t.nanos
  let two := Decimal.padded 2
  String.ofList <|
    yearText day.year ++ '-' :: two day.month ++ '-' :: two day.day
      ++ 'T' :: two (clock / 3600) ++ ':' :: two (clock / 60 % 60)
      ++ ':' :: two (clock % 60 + if leap then 1 else 0)
      ++ fractionText (if leap then t.nanos - 1_000_000_000 else t.nanos) ++ ['Z']

end Instant

end LiveSync

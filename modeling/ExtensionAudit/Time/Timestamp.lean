namespace ExtensionAudit

def isLeapYear (year : Int) : Bool :=
  year % 4 == 0 && (year % 100 != 0 || year % 400 == 0)

def daysInMonth (year : Int) (month : Nat) : Nat :=
  if month = 2 then if isLeapYear year then 29 else 28
  else if month = 4 || month = 6 || month = 9 || month = 11 then 30
  else 31

/-- The years that dates can have. -/
def leastYear : Int := -262143

def greatestYear : Int := 262142

/-- A day of the Gregorian calendar, carried back to years before its introduction. -/
structure Date where
  year : Int
  month : Nat
  day : Nat
  year_range : leastYear ≤ year ∧ year ≤ greatestYear
  month_range : 1 ≤ month ∧ month ≤ 12
  day_range : 1 ≤ day ∧ day ≤ daysInMonth year month
deriving DecidableEq

namespace Date

def make? (year : Int) (month day : Nat) : Option Date :=
  if years : leastYear ≤ year ∧ year ≤ greatestYear then
    if months : 1 ≤ month ∧ month ≤ 12 then
      if days : 1 ≤ day ∧ day ≤ daysInMonth year month then
        some ⟨year, month, day, years, months, days⟩
      else none
    else none
  else none

theorem make?_self (d : Date) : make? d.year d.month d.day = some d := by
  simp [make?, d.year_range, d.month_range, d.day_range]

def next? (d : Date) : Option Date :=
  (make? d.year d.month (d.day + 1)).or
    ((make? d.year (d.month + 1) 1).or (make? (d.year + 1) 1 1))

def previous? (d : Date) : Option Date :=
  if 1 < d.day then make? d.year d.month (d.day - 1)
  else if 1 < d.month then make? d.year (d.month - 1) (daysInMonth d.year (d.month - 1))
  else make? (d.year - 1) 12 31

/-- The days from the first of March of the year zero. Years are counted from March, so that a leap
day is the last day of its year. -/
def dayNumber (d : Date) : Int :=
  let year := if d.month ≤ 2 then d.year - 1 else d.year
  let month : Int := ((d.month + 9) % 12 : Nat)
  365 * year + year / 4 - year / 100 + year / 400 + (153 * month + 2) / 5 + d.day - 1

def first : Date := ⟨leastYear, 1, 1, by decide, by decide, by decide⟩

def last : Date := ⟨greatestYear, 12, 31, by decide, by decide, by decide⟩

end Date

def secondsPerDay : Nat := 86400

def nanosPerSecond : Nat := 1000000000

/-- A moment in universal time. A leap second is the last second of a minute, with a thousand
million nanoseconds or more. -/
structure Timestamp where
  date : Date
  second : Nat
  nanosecond : Nat
  second_range : second < secondsPerDay
  nanosecond_range :
    nanosecond < nanosPerSecond ∨ second % 60 = 59 ∧ nanosecond < 2 * nanosPerSecond
deriving DecidableEq

/-- A point on the time scale: seconds from the first of March of the year zero. The nanoseconds of
a leap second go on past those of the second before it. -/
structure Instant where
  seconds : Int
  nanosecond : Nat
deriving DecidableEq

instance : LE Instant where
  le a b := a.seconds < b.seconds ∨ a.seconds = b.seconds ∧ a.nanosecond ≤ b.nanosecond

instance (a b : Instant) : Decidable (a ≤ b) :=
  inferInstanceAs (Decidable (_ ∨ _))

namespace Timestamp

def make? (date : Date) (second nanosecond : Nat) : Option Timestamp :=
  if seconds : second < secondsPerDay then
    if nanos : nanosecond < nanosPerSecond ∨ second % 60 = 59 ∧ nanosecond < 2 * nanosPerSecond then
      some ⟨date, second, nanosecond, seconds, nanos⟩
    else none
  else none

theorem make?_self (t : Timestamp) : make? t.date t.second t.nanosecond = some t := by
  simp [make?, t.second_range, t.nanosecond_range]

/-- The moment at which clocks `offset` seconds ahead of universal time show the given time. -/
def ofLocal? (date : Date) (second nanosecond : Nat) (offset : Int) : Option Timestamp :=
  let moved : Int := second - offset
  if moved < 0 then do make? (← date.previous?) (moved + secondsPerDay).toNat nanosecond
  else if moved < secondsPerDay then make? date moved.toNat nanosecond
  else do make? (← date.next?) (moved - secondsPerDay).toNat nanosecond

def instant (t : Timestamp) : Instant :=
  ⟨t.date.dayNumber * secondsPerDay + t.second, t.nanosecond⟩

def isLeap (t : Timestamp) : Bool := nanosPerSecond ≤ t.nanosecond

/-- The nanoseconds from `earlier` to `later`. A leap second that lies between the two times of day
is counted. -/
def nanosSince (later earlier : Timestamp) : Int :=
  let days := later.date.dayNumber - earlier.date.dayNumber
  let leap : Int :=
    if earlier.second < later.second && earlier.isLeap then 1
    else if later.second < earlier.second && later.isLeap then -1
    else 0
  (days * secondsPerDay + ((later.second : Int) - earlier.second) + leap) * nanosPerSecond +
    ((later.nanosecond : Int) - earlier.nanosecond)

/-- The instant that many days, at least one, before the moment. Leaving a leap second backwards
starts from the second after it. Nothing lies before the first date. -/
def daysBefore? (t : Timestamp) (days : Nat) : Option Instant :=
  let start := t.instant
  let start : Instant :=
    if t.isLeap then ⟨start.seconds + 1, start.nanosecond - nanosPerSecond⟩ else start
  let seconds := start.seconds - days * secondsPerDay
  if seconds < Date.first.dayNumber * secondsPerDay then none else some ⟨seconds, start.nanosecond⟩

end Timestamp

end ExtensionAudit

import ExtensionAudit.Time.Timestamp

namespace ExtensionAudit

/-- The date so many days after the first of March of the year zero. Whole cycles of 400 years are
split off first; in a year that starts in March the lengths of the months repeat every five. -/
def Date.ofDayNumber? (number : Int) : Option Date :=
  let cycle := number / 146097
  let day := (number % 146097).toNat
  let year := (day - day / 1460 + day / 36524 - day / 146096) / 365
  let day := day - (365 * year + year / 4 - year / 100)
  let month := (5 * day + 2) / 153
  let day := day - (153 * month + 2) / 5 + 1
  let year : Int := year + 400 * cycle
  if month < 10 then make? year (month + 3) day else make? (year + 1) (month - 9) day

/-- The day number of the first of January of 1970. -/
def Date.epochNumber : Int := 719468

/-- The moment so many nanoseconds after the first of January of 1970. -/
def Timestamp.ofUnixNanos? (nanos : Int) : Option Timestamp := do
  let seconds := nanos / nanosPerSecond
  let date ← Date.ofDayNumber? (Date.epochNumber + seconds / secondsPerDay)
  make? date (seconds % secondsPerDay).toNat (nanos % nanosPerSecond).toNat

example : (Date.ofDayNumber? Date.epochNumber).map (fun d => (d.year, d.month, d.day)) =
    some (1970, 1, 1) := by decide

end ExtensionAudit

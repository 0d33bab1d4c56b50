/-!
# Calendar dates of selection times

Selection times are milliseconds since 1970-01-01 00:00:00 UTC. The history listing shows them
as `YYYY-MM-DD HH:MM:SS` in UTC, on the proleptic Gregorian calendar:

* `civilOfDays` — the date of a day number, counted from 1970-01-01 (day 0);
* `daysOfCivil` — the day number of a date, its inverse;
* `stamp` — the text of a time, or none when it is past the last representable day,
  31 December 262142, or does not fit a signed 64-bit count of milliseconds.

Years after 9999 carry a leading `+`, as the calendar library writes them.
-/

namespace Launcher.Cli

/-- A calendar date. -/
structure Civil where
  year : Nat
  month : Nat
  day : Nat
  deriving DecidableEq, Inhabited

/-- The date of a day number, for days on or after 1970-01-01: days are shifted to an era count
from 0000-03-01, split into 400-year eras of 146097 days, and the day of the era into year,
day of year and month, with March first so that leap days fall at the end of a year. -/
def civilOfDays (days : Nat) : Civil :=
  let z := days + 719468
  let era := z / 146097
  let doe := z % 146097
  let yoe := (doe - doe / 1460 + doe / 36524 - doe / 146096) / 365
  let doy := doe - (365 * yoe + yoe / 4 - yoe / 100)
  let mp := (5 * doy + 2) / 153
  let day := doy - (153 * mp + 2) / 5 + 1
  let month := if mp < 10 then mp + 3 else mp - 9
  let year := yoe + era * 400 + (if month ≤ 2 then 1 else 0)
  { year := year, month := month, day := day }

/-- The day number of a date on or after 1970-01-01. -/
def daysOfCivil (c : Civil) : Nat :=
  let y := if c.month ≤ 2 then c.year - 1 else c.year
  let era := y / 400
  let yoe := y % 400
  let mp := if c.month > 2 then c.month - 3 else c.month + 9
  let doy := (153 * mp + 2) / 5 + c.day - 1
  let doe := yoe * 365 + yoe / 4 - yoe / 100 + doy
  era * 146097 + doe - 719468

/-- The last day the calendar represents. -/
def lastDay : Nat := daysOfCivil ⟨262142, 12, 31⟩

/-- Two digits, zero-padded. -/
def pad2 (n : Nat) : String := if n < 10 then "0" ++ toString n else toString n

/-- A year: four digits, zero-padded, or signed when it has more. -/
def yearText (y : Nat) : String :=
  if y ≤ 9999 then String.ofList (List.replicate (4 - (toString y).length) '0') ++ toString y
  else "+" ++ toString y

/-- The text of a time in milliseconds, or none when the calendar cannot show it. -/
def stamp (ms : Nat) : Option String :=
  let secs := ms / 1000
  let days := secs / 86400
  let rest := secs % 86400
  if ms ≥ Nat.pow 2 63 || days > lastDay then none
  else
    let c := civilOfDays days
    some s!"{yearText c.year}-{pad2 c.month}-{pad2 c.day} {pad2 (rest / 3600)}:{pad2 (rest % 3600 / 60)}:{pad2 (rest % 60)}"

/-- The first day is 1970-01-01. -/
theorem civilOfDays_zero : civilOfDays 0 = ⟨1970, 1, 1⟩ := by decide

end Launcher.Cli

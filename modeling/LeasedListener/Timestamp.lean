import LeasedListener.Duration

/-!
# Timestamps

Points of civil time in the proleptic Gregorian calendar, with nanoseconds and
room for a leap second after second 59 of any minute.  The years run from
-262143 to 262142.
-/

namespace LeasedListener

def firstYear : Int := -262143

def lastYear : Int := 262142

def isLeapYear (year : Int) : Bool :=
  year % 4 == 0 && (year % 100 != 0 || year % 400 == 0)

def daysInMonth (year : Int) (month : Nat) : Nat :=
  if month = 2 then (if isLeapYear year then 29 else 28)
  else if month ∈ [4, 6, 9, 11] then 30
  else 31

structure Date where
  year : Int
  month : Nat
  day : Nat
  year_mem : firstYear ≤ year ∧ year ≤ lastYear
  month_mem : 1 ≤ month ∧ month ≤ 12
  day_mem : 1 ≤ day ∧ day ≤ daysInMonth year month
deriving DecidableEq

namespace Date

def ofParts? (year : Int) (month day : Nat) : Option Date :=
  if hy : firstYear ≤ year ∧ year ≤ lastYear then
    if hm : 1 ≤ month ∧ month ≤ 12 then
      if hd : 1 ≤ day ∧ day ≤ daysInMonth year month then
        some ⟨year, month, day, hy, hm, hd⟩
      else none
    else none
  else none

/-- The following day, unless it lies after the last year. -/
def next? (d : Date) : Option Date :=
  if d.day < daysInMonth d.year d.month then ofParts? d.year d.month (d.day + 1)
  else if d.month < 12 then ofParts? d.year (d.month + 1) 1
  else ofParts? (d.year + 1) 1 1

/-- The preceding day, unless it lies before the first year. -/
def previous? (d : Date) : Option Date :=
  if 1 < d.day then ofParts? d.year d.month (d.day - 1)
  else if 1 < d.month then ofParts? d.year (d.month - 1) (daysInMonth d.year (d.month - 1))
  else ofParts? (d.year - 1) 12 31

/-- The number of days since the first of March of year zero. -/
def dayNumber (d : Date) : Int :=
  let year := if d.month ≤ 2 then d.year - 1 else d.year
  let monthsSinceMarch := (d.month + 9) % 12
  year * 365 + year / 4 - year / 100 + year / 400 +
    ((153 * monthsSinceMarch + 2) / 5 + d.day - 1 : Nat)

/-- The day with the given number, counted as in `dayNumber`. -/
def ofDayNumber? (n : Int) : Option Date :=
  let cycle := n / 146097
  let inCycle := (n - cycle * 146097).toNat
  let yearOfCycle := (inCycle - inCycle / 1460 + inCycle / 36524 - inCycle / 146096) / 365
  let inYear := inCycle - (365 * yearOfCycle + yearOfCycle / 4 - yearOfCycle / 100)
  let monthsSinceMarch := (5 * inYear + 2) / 153
  let day := inYear - (153 * monthsSinceMarch + 2) / 5 + 1
  let month := if monthsSinceMarch < 10 then monthsSinceMarch + 3 else monthsSinceMarch - 9
  let year := cycle * 400 + yearOfCycle
  ofParts? (if month ≤ 2 then year + 1 else year) month day

end Date

def secondsPerDay : Nat := 86400

/-- A date, the seconds since its midnight, and the nanoseconds since that
second, which exceed one second within a leap second. -/
structure Timestamp where
  date : Date
  second : Nat
  nano : Nat
  second_lt : second < secondsPerDay
  nano_lt : nano < nanosPerSecond ∨ (nano < 2 * nanosPerSecond ∧ second % 60 = 59)
deriving DecidableEq

namespace Timestamp

def ofParts? (date : Date) (second nano : Nat) : Option Timestamp :=
  if hs : second < secondsPerDay then
    if hn : nano < nanosPerSecond ∨ (nano < 2 * nanosPerSecond ∧ second % 60 = 59) then
      some ⟨date, second, nano, hs, hn⟩
    else none
  else none

/-- The last timestamp there is, which stands for "never". -/
def last : Timestamp where
  date := ⟨262142, 12, 31, by decide, by decide, by decide⟩
  second := 86399
  nano := 999999999
  second_lt := by decide
  nano_lt := by decide

/-- The timestamp `seconds` later, or earlier where that is negative, by less
than a day. -/
def shift? (t : Timestamp) (seconds : Int) : Option Timestamp :=
  let total := t.second + seconds
  if total < 0 then
    t.date.previous?.bind fun date => ofParts? date (total + secondsPerDay).toNat t.nano
  else if total < secondsPerDay then ofParts? t.date total.toNat t.nano
  else t.date.next?.bind fun date => ofParts? date (total - secondsPerDay).toNat t.nano

/-- The timestamp a duration later, where there is one. -/
def plus? (t : Timestamp) (d : Duration) : Option Timestamp :=
  let nanos := t.second * nanosPerSecond + t.nano + d.nanos
  let seconds := nanos / nanosPerSecond
  (Date.ofDayNumber? (t.date.dayNumber + seconds / secondsPerDay)).bind fun date =>
    ofParts? date (seconds % secondsPerDay) (nanos % nanosPerSecond)

/-- The timestamp a duration later, or the last one. -/
def plus (t : Timestamp) (d : Duration) : Timestamp := (t.plus? d).getD last

end Timestamp

end LeasedListener

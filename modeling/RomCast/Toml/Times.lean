import RomCast.Toml.Numbers

set_option autoImplicit false

/-!
# TOML dates and times

A date, a time of day, or a date with a time of day and perhaps an offset.  A date exists in the
calendar; a minute has room for a leap second.
-/

namespace RomCast.Toml

/-- A number of exactly `n` decimal digits. -/
def fixedNumber (n : Nat) : Scan Nat := fun text =>
  let digits := text.take n
  if digits.length = n ∧ digits.all isDecimal then some (valueOf 10 digits, text.drop n) else none

/-- A number of two digits within bounds. -/
def twoDigits (low high : Nat) : Scan Nat := do
  let n ← fixedNumber 2
  if low ≤ n ∧ n ≤ high then return n else failure

/-- Whether a year has a 29th of February. -/
def isLeapYear (year : Nat) : Bool := year % 4 = 0 && (year % 100 ≠ 0 || year % 400 = 0)

/-- How many days a month has. -/
def daysIn (year month : Nat) : Nat :=
  if month = 2 then if isLeapYear year then 29 else 28
  else if month = 4 ∨ month = 6 ∨ month = 9 ∨ month = 11 then 30
  else 31

/-- A day of the calendar. -/
def date : Scan Unit := do
  let year ← fixedNumber 4
  Scan.char '-'
  let month ← twoDigits 1 12
  Scan.char '-'
  let _ ← twoDigits 1 (daysIn year month)

/-- A time of day. -/
def timeOfDay : Scan Unit := do
  let _ ← twoDigits 0 23
  Scan.char ':'
  let _ ← twoDigits 0 59
  Scan.char ':'
  let _ ← twoDigits 0 60
  let _ ← Scan.maybe do
    Scan.char '.'
    let _ ← Scan.one isDecimal
    let _ ← Scan.takeWhile isDecimal

/-- The offset of a clock from universal time. -/
def offset : Scan Unit :=
  (do let _ ← Scan.one fun c => c = 'Z' || c = 'z') <|> do
    let _ ← Scan.one fun c => c = '+' || c = '-'
    let _ ← twoDigits 0 23
    Scan.char ':'
    let _ ← twoDigits 0 59

/-- A date with a time of day if one follows, or a time of day alone. -/
def datetime : Scan Unit :=
  (do
    date
    let _ ← Scan.maybe do
      let _ ← Scan.one fun c => c = 'T' || c = 't' || c = ' '
      timeOfDay
      let _ ← Scan.maybe offset) <|>
  timeOfDay

end RomCast.Toml

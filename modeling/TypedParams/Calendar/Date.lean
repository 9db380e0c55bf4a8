/-! Dates of the proleptic Gregorian calendar and their day numbers. -/
namespace TypedParams

structure Date where
  year : Nat
  month : Nat
  day : Nat
  deriving DecidableEq

namespace Date

def isLeap (year : Nat) : Bool := year % 4 = 0 && (year % 100 ≠ 0 || year % 400 = 0)

def daysInMonth (year month : Nat) : Nat :=
  if month = 2 then if isLeap year then 29 else 28
  else if month = 4 ∨ month = 6 ∨ month = 9 ∨ month = 11 then 30
  else 31

/-- Dates from year 1 to year 9999. -/
def Valid (d : Date) : Prop :=
  (1 ≤ d.year ∧ d.year ≤ 9999) ∧ (1 ≤ d.month ∧ d.month ≤ 12) ∧
    1 ≤ d.day ∧ d.day ≤ daysInMonth d.year d.month

instance (d : Date) : Decidable d.Valid := by unfold Valid; infer_instance

/-- Days from the first of January of year 1 to that of `year`. -/
def daysBeforeYear (year : Nat) : Nat :=
  let y := year - 1
  365 * y + y / 4 - y / 100 + y / 400

/-- Days of the year before its `month`. -/
def daysBeforeMonth (year : Nat) : Nat → Nat
  | 0 | 1 => 0
  | m + 2 => daysBeforeMonth year (m + 1) + daysInMonth year (m + 1)

/-- The day number, counted from zero on the first of January of year 1. -/
def ordinal (d : Date) : Nat :=
  daysBeforeYear d.year + daysBeforeMonth d.year d.month + (d.day - 1)

/-- Month and day of the day `n` of a year, walking from `month` over the months left. -/
def monthDay (year : Nat) : Nat → Nat → Nat → Nat × Nat
  | 0, month, n => (month, n + 1)
  | left + 1, month, n =>
    if n < daysInMonth year month then (month, n + 1)
    else monthDay year left (month + 1) (n - daysInMonth year month)

/-- Cycles of 400, 100, 4 and 1 years; the last day of a long cycle belongs to its last part. -/
def ofOrdinal (n : Nat) : Date :=
  let r := n % 146097
  let centuries := min (r / 36524) 3
  let r := r - centuries * 36524
  let r' := r % 1461
  let years := min (r' / 365) 3
  let year := 400 * (n / 146097) + 100 * centuries + 4 * (r / 1461) + years + 1
  let (month, day) := monthDay year 11 1 (r' - years * 365)
  ⟨year, month, day⟩

end Date
end TypedParams

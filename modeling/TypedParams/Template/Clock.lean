import TypedParams.Error
import TypedParams.Temporal.Literal
import TypedParams.Value.Access

/-! The variables that give the current date and time. -/
namespace TypedParams

/-- A moment on a clock, and how far the clock is ahead of universal time. -/
structure Clock where
  moment : Moment
  ahead : Duration

namespace Clock

def instant (c : Clock) : Int := c.moment.instant - c.ahead.micros

/-- The moment in universal time. -/
def universal (c : Clock) : Except Error Moment :=
  if ¬c.moment.Valid ∨ microsPerDay ≤ c.ahead.micros.natAbs then .error .outsideCalendar
  else if leastInstant ≤ c.instant ∧ c.instant ≤ greatestInstant then .ok (.ofInstant c.instant)
  else .error .instantOverflow

/-- A date as clocks write it: the year has no zeros in front. -/
def dateText (d : Date) : List Char :=
  Nat.toDigits 10 d.year ++ '-' :: Text.field 2 d.month ++ '-' :: Text.field 2 d.day

def momentText (m : Moment) : List Char := dateText m.date ++ ' ' :: m.time.literal

/-- The clock's variables, by name. -/
def varsAt (m : Moment) : List (String × String) :=
  [("now_date", String.ofList (dateText m.date)),
   ("now_time", String.ofList m.time.literal),
   ("now_datetime", String.ofList (momentText m)),
   ("now_timestamp", String.ofList (momentText m ++ Offset.utc.literal))]

def vars (c : Clock) : Except Error (List (String × String)) := c.universal.map varsAt

end Clock
end TypedParams

import TypedParams.Calendar.Date

/-! Times of day, moments and instants in microseconds. -/
namespace TypedParams

structure TimeOfDay where
  hour : Nat
  minute : Nat
  second : Nat
  micro : Nat
  deriving DecidableEq

namespace TimeOfDay

def Valid (t : TimeOfDay) : Prop :=
  t.hour < 24 ∧ t.minute < 60 ∧ t.second < 60 ∧ t.micro < 1000000

instance (t : TimeOfDay) : Decidable t.Valid := by unfold Valid; infer_instance

/-- Microseconds since midnight. -/
def micros (t : TimeOfDay) : Nat :=
  ((t.hour * 60 + t.minute) * 60 + t.second) * 1000000 + t.micro

def ofMicros (n : Nat) : TimeOfDay :=
  ⟨n / 3600000000, n / 60000000 % 60, n / 1000000 % 60, n % 1000000⟩

end TimeOfDay

def microsPerDay : Nat := 86400000000

/-- A length of time in microseconds, negative where it goes back. -/
structure Duration where
  micros : Int

namespace Duration

def seconds (n : Int) : Duration := ⟨n * 1000000⟩

/-- A plain number counts seconds. -/
instance : Coe Int Duration := ⟨seconds⟩

instance (n : Nat) : OfNat Duration n := ⟨seconds n⟩

end Duration

/-- A date and a time of day, without an offset. -/
structure Moment where
  date : Date
  time : TimeOfDay
  deriving DecidableEq

namespace Moment

def Valid (m : Moment) : Prop := m.date.Valid ∧ m.time.Valid

instance (m : Moment) : Decidable m.Valid := by unfold Valid; infer_instance

/-- Microseconds since the start of year 1. -/
def micros (m : Moment) : Nat := m.date.ordinal * microsPerDay + m.time.micros

def ofMicros (n : Nat) : Moment :=
  ⟨.ofOrdinal (n / microsPerDay), .ofMicros (n % microsPerDay)⟩

end Moment

def Moment.epoch : Moment := ⟨⟨1970, 1, 1⟩, ⟨0, 0, 0, 0⟩⟩

/-- Microseconds from the start of year 1 to the epoch, the start of 1970. -/
def epochMicros : Nat := 719162 * microsPerDay

theorem epochMicros_eq : Moment.epoch.micros = epochMicros := by decide

/-- Microseconds since the epoch of a moment in universal time. -/
def Moment.instant (m : Moment) : Int := (m.micros : Int) - epochMicros

def leastInstant : Int := -62135596800000000

def greatestInstant : Int := 253402300799999999

theorem leastInstant_eq : (Moment.mk ⟨1, 1, 1⟩ ⟨0, 0, 0, 0⟩).instant = leastInstant := by decide

theorem greatestInstant_eq :
    (Moment.mk ⟨9999, 12, 31⟩ ⟨23, 59, 59, 999999⟩).instant = greatestInstant := by decide

/-- The moment in universal time of an instant that is not before year 1. -/
def Moment.ofInstant (t : Int) : Moment := .ofMicros (t + epochMicros).toNat

/-- The moment some microseconds later, if they make less than a billion days and it is still
between the start of year 1 and the end of year 9999. -/
def Moment.plus? (m : Moment) (n : Int) : Option Moment :=
  let t := m.instant + n
  if (n.fdiv microsPerDay).natAbs ≤ 999999999 ∧ leastInstant ≤ t ∧ t ≤ greatestInstant then
    some (.ofInstant t)
  else none

end TypedParams

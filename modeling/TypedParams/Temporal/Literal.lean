import TypedParams.Calendar.Moment
import TypedParams.Text.Digits

/-! Fixed-width literals of dates, times and offsets. -/
namespace TypedParams

def Date.literal (d : Date) : List Char :=
  Text.field 4 d.year ++ '-' :: Text.field 2 d.month ++ '-' :: Text.field 2 d.day

def TimeOfDay.literal (t : TimeOfDay) : List Char :=
  Text.field 2 t.hour ++ ':' :: Text.field 2 t.minute ++ ':' :: Text.field 2 t.second ++
    '.' :: Text.field 6 t.micro

/-- A date, one space and a time. -/
def Moment.literal (m : Moment) : List Char := m.date.literal ++ ' ' :: m.time.literal

/-- A distance from universal time of less than a day, in whole minutes. -/
structure Offset where
  west : Bool
  hour : Nat
  minute : Nat
  deriving DecidableEq

namespace Offset

def Valid (o : Offset) : Prop := o.hour < 24 ∧ o.minute < 60

instance (o : Offset) : Decidable o.Valid := by unfold Valid; infer_instance

def utc : Offset := ⟨false, 0, 0⟩

def literal (o : Offset) : List Char :=
  (if o.west then '-' else '+') :: Text.field 2 o.hour ++ ':' :: Text.field 2 o.minute

end Offset

/-- A moment with its offset. -/
structure Timestamp where
  moment : Moment
  offset : Offset
  deriving DecidableEq

namespace Timestamp

def Valid (t : Timestamp) : Prop := t.moment.Valid ∧ t.offset.Valid

def literal (t : Timestamp) : List Char := t.moment.literal ++ t.offset.literal

end Timestamp
end TypedParams

import TypedParams.LogicalType

/-! The temporal types and the patterns of their literals. -/
namespace TypedParams

/-- Types whose values are written as dates and times. -/
inductive TemporalType where
  | timestamp
  | date
  | time
  | datetime
  deriving DecidableEq

namespace TemporalType

def all : List TemporalType := [.timestamp, .date, .time, .datetime]

def scalar : TemporalType → ScalarType
  | .timestamp => .timestamp
  | .date => .date
  | .time => .time
  | .datetime => .datetime

def ofScalar? : ScalarType → Option TemporalType
  | .timestamp => some .timestamp
  | .date => some .date
  | .time => some .time
  | .datetime => some .datetime
  | _ => none

/-- The pattern of the literals, as messages give it. -/
def pattern : TemporalType → String
  | .timestamp => "yyyy-MM-dd HH:mm:ss.SSSSSS±HH:MM"
  | .date => "yyyy-MM-dd"
  | .time => "HH:mm:ss.SSSSSS"
  | .datetime => "yyyy-MM-dd HH:mm:ss.SSSSSS"

end TemporalType
end TypedParams

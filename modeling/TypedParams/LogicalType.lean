/-! The closed set of parameter types and their wire tokens. -/
namespace TypedParams

/-- Types whose values are single literals. -/
inductive ScalarType where
  | bool
  | int64
  | float64
  | string
  | bytes
  | timestamp
  | date
  | time
  | datetime
  deriving DecidableEq

namespace ScalarType

def all : List ScalarType :=
  [.bool, .int64, .float64, .string, .bytes, .timestamp, .date, .time, .datetime]

theorem mem_all (s : ScalarType) : s ∈ all := by cases s <;> decide

def token : ScalarType → String
  | .bool => "BOOL"
  | .int64 => "INT64"
  | .float64 => "FLOAT64"
  | .string => "STRING"
  | .bytes => "BYTES"
  | .timestamp => "TIMESTAMP"
  | .date => "DATE"
  | .time => "TIME"
  | .datetime => "DATETIME"

end ScalarType

/-- Scalars, arrays of scalars, and a reserved record type that no value has. -/
inductive LogicalType where
  | scalar (type : ScalarType)
  | array
  | struct
  deriving DecidableEq

namespace LogicalType

/-- All types, in the order messages list them. -/
def all : List LogicalType := ScalarType.all.map scalar ++ [.array, .struct]

def token : LogicalType → String
  | .scalar s => s.token
  | .array => "ARRAY"
  | .struct => "STRUCT"

def isComposite : LogicalType → Bool
  | .scalar _ => false
  | _ => true

def scalar? : LogicalType → Option ScalarType
  | .scalar s => some s
  | _ => none

/-- Tokens are matched exactly. -/
def ofToken? (s : String) : Option LogicalType := all.find? fun t => t.token = s

theorem ofToken?_token (t : LogicalType) : ofToken? t.token = some t := by
  rcases t with s | _ | _ <;> (try cases s) <;> rfl

theorem token_injective {t u : LogicalType} (h : t.token = u.token) : t = u := by
  have ht := ofToken?_token t
  rw [h, ofToken?_token u] at ht
  exact (Option.some.inj ht).symm

theorem token_of_ofToken? {s : String} {t : LogicalType} (h : ofToken? s = some t) :
    t.token = s := by
  simpa using List.find?_some h

theorem ofToken?_eq_some_iff {s : String} {t : LogicalType} : ofToken? s = some t ↔ s = t.token :=
  ⟨fun h => (token_of_ofToken? h).symm, fun h => h ▸ ofToken?_token t⟩

end LogicalType
end TypedParams

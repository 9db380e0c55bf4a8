import TypedParams.Base64
import TypedParams.Temporal.Format
import TypedParams.Value.Access

/-! The encoders of the nine scalar types. None of them converts between kinds. -/
namespace TypedParams

/-- A named function from host values to literals. -/
structure Encoder where
  name : String
  run : Value → Except Error String

namespace Encoder

def leastInt64 : Int := -Int.pow 2 63

def greatestInt64 : Int := Int.pow 2 63 - 1

def mismatch (t : LogicalType) (v : Value) : Except Error String :=
  .error (.mismatch t v.className)

def bool : Encoder where
  name := "encode_bool"
  run
    | .bool b => .ok (if b then "true" else "false")
    | v => mismatch (.scalar .bool) v

def int64 : Encoder where
  name := "encode_int64"
  run
    | .int n g =>
      if leastInt64 ≤ n ∧ n ≤ greatestInt64 then .ok (toString n)
      else .error ((Value.int n g).showing (.intOutOfRange · leastInt64 greatestInt64))
    | v => mismatch (.scalar .int64) v

def float64 : Encoder where
  name := "encode_float64"
  run
    | .float x _ => .ok x.text
    | v => mismatch (.scalar .float64) v

def string : Encoder where
  name := "encode_string"
  run
    | .text t => .ok t.content
    | v => mismatch (.scalar .string) v

def bytes : Encoder where
  name := "encode_bytes"
  run
    | .bytes bs _ | .buffer bs => .ok (String.ofList (Base64.encode bs))
    | v => mismatch (.scalar .bytes) v

/-- Instants count microseconds from the epoch. -/
def timestamp : Encoder where
  name := "encode_timestamp"
  run
    | .int n _ => Timestamp.ofMicros n
    | .text t => TemporalType.timestamp.validate t.content
    | v => mismatch (.scalar .timestamp) v

/-- Literals of a temporal type that has no other form. -/
def literal (name : String) (type : TemporalType) : Encoder where
  name := name
  run
    | .text t => type.validate t.content
    | v => mismatch (.scalar type.scalar) v

def date : Encoder := literal "encode_date" .date

def time : Encoder := literal "encode_time" .time

def datetime : Encoder := literal "encode_datetime" .datetime

def builtIn : ScalarType → Encoder
  | .bool => bool
  | .int64 => int64
  | .float64 => float64
  | .string => string
  | .bytes => bytes
  | .timestamp => timestamp
  | .date => date
  | .time => time
  | .datetime => datetime

end Encoder

/-- The timestamp literal of a number of microseconds; fractions are rounded, a half to even. -/
def Value.timestampLiteral (v : Value) : Except Error String :=
  let outside : Error := v.showing (.timestampOutOfRange · leastInstant greatestInstant)
  let literal (n : Int) : Except Error String :=
    if leastInstant ≤ n ∧ n ≤ greatestInstant then Timestamp.ofMicros n else .error outside
  match v with
  | .bool b => literal (if b then 1 else 0)
  | .int n _ => literal n
  | .float x _ => if x.isFinite then literal x.roundEven else .error outside
  | _ => .error .notComparable

end TypedParams

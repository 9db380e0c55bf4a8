import TypedParams.Error
import TypedParams.Temporal.Literal
import TypedParams.Temporal.Reading
import TypedParams.Text.Pattern

/-! The four temporal types: the shapes of their literals, how many digits stand where and what
stands between them, which texts they accept, and timestamps from instants. -/
namespace TypedParams

namespace TemporalType
open Text Text.Pattern

def dateShape : List Pattern := digits 4 ++ [char '-'] ++ digits 2 ++ [char '-'] ++ digits 2

def timeShape : List Pattern :=
  digits 2 ++ [char ':'] ++ digits 2 ++ [char ':'] ++ digits 2 ++ [char '.'] ++ digits 6

def offsetShape : List Pattern := [oneOf ['+', '-']] ++ digits 2 ++ [char ':'] ++ digits 2

def shape : TemporalType → Pattern
  | .timestamp => row (dateShape ++ [char ' '] ++ timeShape ++ offsetShape)
  | .date => row dateShape
  | .time => row timeShape
  | .datetime => row (dateShape ++ [char ' '] ++ timeShape)

/-- Whether a text is a literal of the type: it has the shape, and its fields can be read. -/
def accepts (t : TemporalType) (s : String) : Bool :=
  t.shape.fits s.toList && (Reading.ofChars? (Reading.parts t) s.toList).isSome

/-- A literal passes unchanged. -/
def validate (t : TemporalType) (s : String) : Except Error String :=
  if t.accepts s then .ok s else .error (.malformedLiteral t s)

end TemporalType

/-- Types without a pattern have no literals to validate. -/
def LogicalType.validateLiteral (t : LogicalType) (s : String) : Except Error String :=
  match t.scalar?.bind TemporalType.ofScalar? with
  | some t => t.validate s
  | none => .error .noFormat

namespace Timestamp

/-- The timestamp in universal time of an instant. -/
def ofInstant (t : Int) : Timestamp := ⟨.ofInstant t, .utc⟩

/-- The literal of an instant between the start of year 1 and the end of year 9999. -/
def ofMicros (n : Int) : Except Error String :=
  if leastInstant ≤ n ∧ n ≤ greatestInstant then
    match Moment.epoch.plus? n with
    | some m => .ok (String.ofList (literal ⟨m, .utc⟩))
    | none => .error .instantOverflow
  else if Text.isWritable n then
    .error (.timestampOutOfRange (toString n) leastInstant greatestInstant)
  else .error .unwritableNumber

end Timestamp
end TypedParams

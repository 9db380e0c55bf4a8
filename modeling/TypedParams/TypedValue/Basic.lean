import TypedParams.Text.Basic

/-! Typed values: one literal, or a flat array of literals of one type. -/
namespace TypedParams

/-- The elements of an array share its element type, so the type is kept once. -/
inductive TypedValue where
  | scalar (type : ScalarType) (value : Text)
  | array (element : ScalarType) (items : List Text)
  deriving DecidableEq

namespace TypedValue

def type : TypedValue → LogicalType
  | .scalar t _ => .scalar t
  | .array _ _ => .array

def elementType? : TypedValue → Option LogicalType
  | .scalar _ _ => none
  | .array t _ => some (.scalar t)

def value? : TypedValue → Option Text
  | .scalar _ v => some v
  | .array _ _ => none

def elements? : TypedValue → Option (List TypedValue)
  | .scalar _ _ => none
  | .array t items => some (items.map (.scalar t))

def isArray (tv : TypedValue) : Bool := tv.type = .array

/-- Typed values are equal when their types agree and their literals say the same. -/
instance : BEq TypedValue where
  beq
    | .scalar t v, .scalar t' v' => t = t' && v == v'
    | .array t xs, .array t' xs' => t = t' && xs == xs'
    | _, _ => false

def className : ClassName := ⟨"parambricks.value", [], "TypedValue"⟩

/-- Items between round brackets; a single one keeps a comma behind it. -/
def quotedTuple : List String → String
  | [] => "()"
  | [s] => "(" ++ s ++ ",)"
  | ss => "(" ++ String.intercalate ", " ss ++ ")"

def quotedFields (value elements type elementType : String) : String :=
  "TypedValue(value=" ++ value ++ ", elements=" ++ elements ++ ", type=" ++ type ++
    ", element_type=" ++ elementType ++ ")"

def quotedScalar (t : ScalarType) (v : Text) : String :=
  quotedFields v.quotedForm "None" (LogicalType.scalar t).quoted "None"

/-- The form in which messages and listings show a typed value. -/
def quoted : TypedValue → String
  | .scalar t v => quotedScalar t v
  | .array t items =>
    quotedFields "None" (quotedTuple (items.map (quotedScalar t))) LogicalType.array.quoted
      (LogicalType.scalar t).quoted

end TypedValue
end TypedParams

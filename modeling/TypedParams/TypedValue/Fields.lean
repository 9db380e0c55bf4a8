import TypedParams.Value.Access

/-! Construction of typed values from four loosely typed fields. -/
namespace TypedParams

/-- Fields of a typed value to be; a null stands for a field left out. -/
structure Fields where
  value : Value
  elements : Value
  type : Value
  elementType : Value

namespace Fields

/-- The items of the elements field, if it is set. -/
def readElements (f : Fields) : Except Error (Option (List Value)) :=
  if f.elements.isNull then .ok none
  else match f.elements.items? with
    | some xs => .ok (some xs)
    | none => .error .notIterable

/-- Elements have to be scalars of the declared type. -/
def checkElements (declared : ScalarType) : Nat → List Value → Except Error (List Text)
  | _, [] => .ok []
  | i, .typed (.scalar t s) :: xs =>
    if t = declared then (checkElements declared (i + 1) xs).map (s :: ·)
    else .error (.elementTypeDiffers i (.scalar t) (.scalar declared))
  | i, .typed (.array _ _) :: _ => .error (.elementTypeDiffers i .array (.scalar declared))
  | i, x :: _ => .error (.elementNotTyped i x.shortClassName)

def checkArray (value : Value) (xs : List Value) (type : LogicalType)
    (elementType : Option LogicalType) : Except Error TypedValue :=
  if type ≠ .array then .error (.elementsWithoutArray type)
  else match elementType with
    | none => .error .elementTypeNotSet
    | some t =>
      if !value.isNull then .error .valueBesideElements
      else match t with
        | .scalar t => (checkElements t 0 xs).map (.array t)
        | t => .error (.compositeElements t)

def checkScalar (value : Value) (type : LogicalType) (elementType : Option LogicalType) :
    Except Error TypedValue :=
  if type = .array then .error .arrayWithoutElements
  else match elementType, value with
    | some t, _ => .error (.elementTypeWithoutElements t)
    | none, .null => .error .valueNotSet
    | none, .text s =>
      match type with
      | .scalar t => .ok (.scalar t s)
      | _ => .error .structValue
    | none, v => .error (.valueNotString v.shortClassName)

/-- The value the fields describe. Both types are read before anything else is checked. -/
def check (f : Fields) : Except Error TypedValue := do
  let elements ← f.readElements
  let type ← LogicalType.ofValue? f.type
  let elementType ← LogicalType.ofValue? f.elementType
  match type, elements with
  | none, _ => .error .typeNotSet
  | some type, some xs => checkArray f.value xs type elementType
  | some type, none => checkScalar f.value type elementType

end Fields

/-- The fields of a typed value. -/
def TypedValue.fields (tv : TypedValue) : Fields where
  value := Value.optional .text tv.value?
  elements := Value.optional (fun tvs => .tuple (tvs.map .typed) none) tv.elements?
  type := .ofType tv.type
  elementType := Value.optional .ofType tv.elementType?

end TypedParams

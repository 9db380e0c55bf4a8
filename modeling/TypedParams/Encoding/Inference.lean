import TypedParams.Encoding.Registry
import TypedParams.TypedValue.Fields

/-! Typed values from host values, with the type given or inferred. -/
namespace TypedParams

/-- Kinds with a type of their own, tried in order: truth values count as integers too. -/
def Class.inferenceOrder : List (NativeKind × ScalarType) :=
  [(.bool, .bool), (.str, .string), (.int, .int64), (.float, .float64)]

def Class.scalarType? (c : Class) : Option ScalarType :=
  (inferenceOrder.find? fun p => c.kinds.contains p.1).map (·.2)

def Class.inferType (c : Class) : Except Error LogicalType :=
  match c.scalarType? with
  | some t => .ok (.scalar t)
  | none => .error (.unsupportedClass c.name.qualified)

/-- The type that stands for a class. -/
def LogicalType.infer : Value → Except Error LogicalType
  | .classRef c _ => c.inferType
  | v => .error (v.quoting .unsupportedClass)

/-- A type given as itself, by its token or by a class. -/
def LogicalType.resolve (v : Value) : Except Error LogicalType :=
  match v with
  | .text _ => ofValue v
  | v => infer v

namespace TypedValue

/-- A scalar of a resolved type. A null has no literal in any type. -/
def encodeAs (r : Registry) (v : Value) (t : LogicalType) : Except Error TypedValue := do
  let literal ← if v.isNull then .ok .null else (r.encode v t).map .str
  Fields.checkScalar literal t none

/-- A scalar; its class decides where no type is given. -/
def scalarOf (r : Registry) (v type : Value) : Except Error TypedValue := do
  let t ← if type.isNull then v.cls.inferType else LogicalType.resolve type
  encodeAs r v t

/-- An array; the class of the first element decides where no element type is given. -/
def arrayOf (r : Registry) (values elementType : Value) : Except Error TypedValue := do
  match values with
  | .text _ | .bytes _ _ | .buffer _ => .error (.singleAsArray values.shortClassName)
  | _ =>
    let some items := values.items? | .error .notIterable
    let t ←
      if elementType.isNull then
        match items with
        | [] => .error .untypedEmptyArray
        | v :: _ => v.cls.inferType
      else LogicalType.resolve elementType
    let elements ← items.mapM fun v => encodeAs r v t
    Fields.checkArray .null (elements.map .typed) .array (some t)

/-- Typed values pass; lists and tuples become arrays, anything else a scalar. -/
def ofValue (r : Registry) (v : Value) : Except Error TypedValue :=
  match v with
  | .typed tv => .ok tv
  | .list _ _ | .tuple _ _ => arrayOf r v .null
  | v => scalarOf r v .null

end TypedValue
end TypedParams

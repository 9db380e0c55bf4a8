import TypedParams.Journal.Traced
import TypedParams.TypedValue.Fields
import TypedParams.Wire.Reader

/-! Typed values to and from the wire pair of payload and descriptor. -/
namespace TypedParams

namespace TypedValue

/-- The literal, or the list of the elements' literals. -/
def payload : TypedValue → Value
  | .scalar _ v => .text v
  | .array _ items => .list (items.map .text) none

/-- The element type of an array is carried once, on the descriptor. -/
def descriptor (tv : TypedValue) : Descriptor :=
  .wrap tv.type.token (tv.elementType?.map fun t => .leaf t.token)

/-- A value whose descriptor carries no element type. -/
def decodeLeaf (payload : Value) (t : LogicalType) : Except Error TypedValue :=
  if t = .array then .error .elementTypeMissing
  else Fields.checkScalar payload t none

/-- The items of an array payload. -/
def arrayItems : Value → Except Error (List Value)
  | .list xs _ | .tuple xs _ => .ok xs
  | v => .error (.payloadNotList v.shortClassName)

/-- A value from a payload and a descriptor; literals are taken as they are. -/
def decode (payload : Value) (d : Descriptor) : Traced TypedValue := do
  let t ← LogicalType.ofValue (.str d.type)
  match t, d.elementType? with
  | .array, some element =>
    if element.elementType?.isSome then Traced.lift (.error (.nestedElementType element.type))
    else
      let items ← arrayItems payload
      let elementType ← LogicalType.ofValue (.str element.type)
      let elements ← Traced.lift (items.mapM fun v => decodeLeaf v elementType)
      Traced.report (.decodedArray elementType elements.length)
      Traced.lift (Fields.checkArray .null (elements.map .typed) .array (some elementType))
  | .array, none => Traced.lift (.error .elementTypeMissing)
  | t, some _ => Traced.lift (.error (.elementTypeOnScalar t))
  | t, none => Traced.lift (decodeLeaf payload t)

/-- A descriptor may be given as the mapping it is written as. -/
def readDescriptor : Value → Except Error Descriptor
  | .descriptor d => .ok d
  | v => do
    let entries ← v.toEntries
    (Descriptor.read (.mapping entries)).mapError (Error.withIssues .malformedDescriptor)

def ofWireTraced (payload descriptor : Value) : Traced TypedValue := do
  let d ← readDescriptor descriptor
  decode payload d

/-- A value from the two parts of a wire pair. -/
def ofWire (payload descriptor : Value) : Except Error TypedValue :=
  (ofWireTraced payload descriptor).result

end TypedValue
end TypedParams

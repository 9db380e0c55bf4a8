import TypedParams.Value.Access

/-! The mappings that records are written as. Main statement: strings are written as themselves. -/
namespace TypedParams

namespace Descriptor

def mappingChain : String → List String → Value
  | type, [] => .mapping [(.str "type", .str type)]
  | type, t :: ts =>
    .mapping [(.str "type", .str type), (.str "elementType", mappingChain t ts)]

/-- The mapping of a descriptor of any depth; an element type that is not there is left out. -/
def mapping (d : Descriptor) : Value := mappingChain d.type d.inner

/-- The mapping a descriptor is written as, if it is not nested too deep. -/
def toMapping (d : Descriptor) : Except Error Value :=
  if d.levels ≤ levelLimit then .ok d.mapping else .error .unwritableNesting

end Descriptor

namespace TypedValue

def mappingOf (value elements type elementType : Value) : Value :=
  .mapping [(.str "value", value), (.str "elements", elements), (.str "type", type),
    (.str "element_type", elementType)]

def scalarMapping (t : ScalarType) (v : Text) : Value :=
  mappingOf (.text v) .null (.ofType (.scalar t)) .null

/-- The mapping of all fields of a typed value, those not set included. -/
def toMapping : TypedValue → Value
  | .scalar t v => scalarMapping t v
  | .array t items =>
    mappingOf .null (.tuple (items.map (scalarMapping t)) none) (.ofType .array)
      (.ofType (.scalar t))

end TypedValue

namespace Value

def documentMapping (name : String) (type : Descriptor) (payload : Value) : Value :=
  .mapping [(str "name", str name), (str "parameterType", type.mapping),
    (str "parameterValue", payload)]

/-- What stands for a stream that is written only as it is read. -/
def pendingStream : Value :=
  .foreign ⟨⟨⟨"pydantic_core._pydantic_core", [], "SerializationIterator"⟩, none, none⟩, true, none⟩
    none

mutual

/-- A value as it is written: records become mappings at any depth, lists and tuples of application
classes plain ones; keys and all other values stay. -/
def written : Value → Value
  | .list xs _ => .list (writtenAll xs) none
  | .tuple xs _ => .tuple (writtenAll xs) none
  | .stream _ => pendingStream
  | .mapping es => .mapping (writtenEntries es)
  | .typed tv => tv.toMapping
  | .descriptor d => d.mapping
  | .document ⟨name, type, p⟩ => documentMapping name type (writtenPayload p)
  | v => v

def writtenAll : List Value → List Value
  | [] => []
  | v :: vs => written v :: writtenAll vs

def writtenEntries : List (Value × Value) → List (Value × Value)
  | [] => []
  | (k, v) :: es => (k, written v) :: writtenEntries es

def writtenPayload : Payload Value → Value
  | .text s => str s
  | .items xs => .list (writtenAll xs) none

end

theorem writtenAll_text (ts : List Text) : writtenAll (ts.map .text) = ts.map .text := by
  induction ts with
  | nil => rfl
  | cons t ts ih => simp [writtenAll, written, ih]

end Value

namespace Document

/-- The payload as it is written. -/
def writtenPayload (d : Document Value) : Value := Value.writtenPayload d.payload

/-- The mapping of a document with a type of any depth. -/
def mapping (d : Document Value) : Value := Value.documentMapping d.name d.type d.writtenPayload

/-- The mapping a document is written as, if its type is not nested too deep. -/
def toMapping (d : Document Value) : Except Error Value :=
  d.type.toMapping.map fun _ => d.mapping

end Document
end TypedParams

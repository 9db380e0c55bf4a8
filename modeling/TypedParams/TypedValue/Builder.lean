import TypedParams.TypedValue.Fields

/-! Staged construction of typed values. -/
namespace TypedParams

/-- Where a builder takes its elements from: its own copy, or a list that others may extend. -/
inductive ElementSource where
  | own (v : Value)
  | live (list : String)

/-- Setters only store; the fields are checked together when a value is built. -/
structure Builder where
  value : Value
  elements : ElementSource
  type : Value
  elementType : Value

namespace Builder

def new : Builder := ⟨.null, .own .null, .null, .null⟩

def setValue (b : Builder) (v : Value) : Builder := { b with value := v }

def setType (b : Builder) (v : Value) : Builder := { b with type := v }

def setElementType (b : Builder) (v : Value) : Builder := { b with elementType := v }

/-- The items are read once, when they are set. -/
def setElements (b : Builder) (v : Value) : Except Error Builder :=
  if v.isNull then .ok { b with elements := .own .null }
  else match v.items? with
    | some xs => .ok { b with elements := .own (.list xs none) }
    | none => .error .notIterable

/-- The elements as they stand, given what the live lists hold. -/
def elementsValue (lists : String → List Value) (b : Builder) : Value :=
  match b.elements with
  | .own v => v
  | .live l => .list (lists l) none

def fields (lists : String → List Value) (b : Builder) : Fields :=
  ⟨b.value, b.elementsValue lists, b.type, b.elementType⟩

def build (lists : String → List Value) (b : Builder) : Except Error TypedValue :=
  (b.fields lists).check

/-- The builder after a build: a stream given at the start is used up, all else is as before. -/
def afterBuild (b : Builder) : Builder :=
  match b.elements with
  | .own (.stream _) => { b with elements := .own (.stream []) }
  | _ => b

end Builder

/-- A builder with the fields of a value. -/
def TypedValue.toBuilder (tv : TypedValue) : Builder where
  value := Value.optional .text tv.value?
  elements := .own (Value.optional (fun tvs => .list (tvs.map .typed) none) tv.elements?)
  type := .ofType tv.type
  elementType := Value.optional .ofType tv.elementType?

/-- The value with some fields replaced, checked anew. -/
def TypedValue.replace (tv : TypedValue) (changes : List (String × Value)) :
    Except Error TypedValue := do
  let fields ← changes.foldlM (fun f c => set f c.1 c.2) tv.fields
  fields.check
where
  set (f : Fields) (name : String) (v : Value) : Except Error Fields :=
    match name with
    | "value" => .ok { f with value := v }
    | "elements" => .ok { f with elements := v }
    | "type" => .ok { f with type := v }
    | "element_type" => .ok { f with elementType := v }
    | _ => .error .unknownField

end TypedParams

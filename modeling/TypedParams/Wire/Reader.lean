import TypedParams.Value.Access
import TypedParams.Wire.Issue

/-! Validated reading of descriptors and documents. -/
namespace TypedParams

namespace Checked

/-- A fault of a host value. -/
def refuse (v : Value) (f : Fault) : Checked α := fail f v.isQuotable

/-- Strings pass, bytes are read as UTF-8. A string of an application class is encoded and read
anew, so that it must not hold lone surrogates. -/
def string (v : Value) : Checked String :=
  match v with
  | .text t => if t.isTorn then refuse v .notUtf8 else .ok t.content
  | .bytes bs _ | .buffer bs =>
    match String.fromUTF8? ⟨bs.toArray⟩ with
    | some s => .ok s
    | none => refuse v .notUtf8
  | _ => refuse v .notString

/-- Anything that can be gone through, strings, byte strings and mappings excepted. -/
def list (v : Value) : Checked (List Value) :=
  match v with
  | .text _ | .bytes _ _ | .buffer _ | .mapping _ | .parameters _ => refuse v .notList
  | _ =>
    match v.items? with
    | some xs => .ok xs
    | none => refuse v .notList

/-- A field that has to be there. -/
def required (entries : List (Value × Value)) (name : String) (read : Value → Checked α) :
    Checked α :=
  match Value.field? entries name with
  | some v => (read v).under (.key name)
  | none => (refuse (.mapping entries) .missing).under (.key name)

/-- A field that may be left out. -/
def optional (entries : List (Value × Value)) (name : String) (default : α)
    (read : Value → Checked α) : Checked α :=
  match Value.field? entries name with
  | some v => (read v).under (.key name)
  | none => .ok default

/-- The key in use of a field with two names: the preferred one where both are there. -/
def nameInUse (entries : List (Value × Value)) (preferred name : String) : String :=
  if (Value.field? entries preferred).isNone && (Value.field? entries name).isSome then name
  else preferred

end Checked

namespace Descriptor

/-- Reads what is not null. -/
def orNull (read : Value → Checked Descriptor) (v : Value) : Checked (Option Descriptor) :=
  if v.isNull then .ok none else (read v).map some

/-- A descriptor of a number of levels at most, the mappings counted that it is read from. -/
def readWithin : Nat → Value → Checked Descriptor
  | 0, v => Checked.refuse v .nested
  | _ + 1, .descriptor d => .ok d
  | n + 1, v => v.entries?.elim (Checked.refuse v (.notRecord className.name)) fun es =>
    let key := Checked.nameInUse es "elementType" "element_type"
    let element := Checked.optional es key none (orNull (readWithin n))
    (Checked.both (Checked.required es "type" Checked.string) element).map fun p => wrap p.1 p.2

/-- A descriptor, or the mapping it is written as; keys that mean nothing are passed over. -/
def read : Value → Checked Descriptor := readWithin levelLimit

end Descriptor

namespace Payload

/-- A string or a list; the issues of both readings otherwise. -/
def read (v : Value) : Checked (Payload Value) :=
  match Checked.string v, Checked.list v with
  | .ok s, _ => .ok (.text s)
  | .error _, .ok xs => .ok (.items xs)
  | .error is, .error js =>
    .error (Issue.allUnder (.key "str") is ++ Issue.allUnder (.key "list[any]") js)

end Payload

namespace Document

def nameRule (name : String) : Option String :=
  if name = "" then some "name must be a non-empty string" else none

/-- A document, or the mapping it is written as. -/
def read : Value → Checked (Document Value)
  | .document d => .ok d
  | v => v.entries?.elim (Checked.refuse v (.notRecord className.name)) fun es =>
    let typeKey := Checked.nameInUse es "parameterType" "parameter_type"
    let valueKey := Checked.nameInUse es "parameterValue" "parameter_value"
    let fields := Checked.both (Checked.required es "name" Checked.string)
      (Checked.both (Checked.required es typeKey Descriptor.read)
        (Checked.required es valueKey Payload.read))
    let document : Checked (Document Value) := fields.map fun p => ⟨p.1, p.2.1, p.2.2⟩
    document.ensure v.isQuotable fun d => nameRule d.name

end Document
end TypedParams

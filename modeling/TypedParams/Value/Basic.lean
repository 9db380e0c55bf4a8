import TypedParams.Binary64.Literal
import TypedParams.Parameters.Basic
import TypedParams.Wire.Descriptor

/-! Host values: whatever a caller may hand to the library. -/
namespace TypedParams

/-- The scalar kinds a host value may be of. -/
inductive NativeKind where
  | bool
  | int
  | float
  | str
  | bytes
  deriving DecidableEq

/-- A class, and the scalar kinds its instances count as. -/
structure Class where
  name : ClassName
  kinds : List NativeKind
  deriving DecidableEq

/-- What is known of an instance of a class that the library knows nothing of. -/
structure Foreign where
  guise : Guise
  hashable : Bool
  /-- The number it is equal to, if it is one. -/
  number : Option Binary64
  deriving DecidableEq

/-- A guise, where present, gives the application class of a value and what it shows. -/
inductive Value where
  | null
  | bool (b : Bool)
  | int (n : Int) (guise : Option Guise)
  | float (x : Binary64) (guise : Option Guise)
  | text (t : Text)
  | bytes (bs : List UInt8) (guise : Option Guise)
  /-- A mutable byte buffer. -/
  | buffer (bs : List UInt8)
  | list (xs : List Value) (guise : Option Guise)
  | tuple (xs : List Value) (guise : Option Guise)
  /-- Items that can be read once. -/
  | stream (xs : List Value)
  /-- Entries in order, with distinct keys. -/
  | mapping (entries : List (Value × Value))
  | typed (tv : TypedValue)
  | descriptor (d : Descriptor)
  | document (d : Document Value)
  | parameters (p : Parameters)
  /-- A class; an enumeration lists its members. -/
  | classRef (c : Class) (members : List Text)
  /-- An instance of another class; a collection lists its items. -/
  | foreign (f : Foreign) (items : Option (List Value))

namespace Value

def str (s : String) : Value := .text (.plain s)

/-- The text of a string value, if it is one. -/
def text? : Value → Option Text
  | .text t => some t
  | _ => none

def isNull : Value → Bool
  | .null => true
  | _ => false

/-- The kind of a scalar host value; truth values are not taken for integers. -/
def kind? : Value → Option NativeKind
  | .bool _ => some .bool
  | .int _ _ => some .int
  | .float _ _ => some .float
  | .text _ => some .str
  | .bytes _ _ => some .bytes
  | .buffer _ => some .bytes
  | _ => none

/-- The class of the plain values that a guised value belongs among. -/
def classOr (plain : String) (g : Option Guise) : ClassName :=
  match g with
  | none => .builtin plain
  | some g => g.cls

/-- The class of a value. Truth values form a subclass of the integers. -/
def cls : Value → Class
  | .null => ⟨.builtin "NoneType", []⟩
  | .bool _ => ⟨.builtin "bool", [.bool, .int]⟩
  | .int _ g => ⟨classOr "int" g, [.int]⟩
  | .float _ g => ⟨classOr "float" g, [.float]⟩
  | .text t => ⟨t.className, [.str]⟩
  | .bytes _ g => ⟨classOr "bytes" g, [.bytes]⟩
  | .buffer _ => ⟨.builtin "bytearray", [.bytes]⟩
  | .list _ g => ⟨classOr "list" g, []⟩
  | .tuple _ g => ⟨classOr "tuple" g, []⟩
  | .stream _ => ⟨.builtin "generator", []⟩
  | .mapping _ => ⟨.builtin "dict", []⟩
  | .typed _ => ⟨TypedValue.className, []⟩
  | .descriptor _ => ⟨Descriptor.className, []⟩
  | .document _ => ⟨Document.className, []⟩
  | .parameters _ => ⟨Parameters.className, []⟩
  | .classRef _ [] => ⟨.builtin "type", []⟩
  | .classRef _ (_ :: _) => ⟨⟨"enum", [], "EnumType"⟩, []⟩
  | .foreign f _ => ⟨f.guise.cls, []⟩

/-- The class as messages about mismatches name it. -/
def className (v : Value) : String := v.cls.name.full

/-- The class without its home and enclosing classes. -/
def shortClassName (v : Value) : String := v.cls.name.name

/-- Whether a value is an object whose fields can be asked for. Values of the built-in classes and
of the classes for dates are not. -/
def isObject (v : Value) : Bool := v.cls.name.home != "" && v.cls.name.home != "datetime"

/-- What counts as given where nothing stands for "not given". -/
def isTruthy : Value → Bool
  | .null => false
  | .bool b => b
  | .int n _ => n != 0
  | .float x _ => !x.isZero
  | .text t => t.content != ""
  | .bytes bs _ | .buffer bs => !bs.isEmpty
  | .list xs _ | .tuple xs _ => !xs.isEmpty
  | .mapping es => !es.isEmpty
  | .parameters p => p.size != 0
  | .foreign _ items => items.elim true (!·.isEmpty)
  | _ => true

end Value
end TypedParams

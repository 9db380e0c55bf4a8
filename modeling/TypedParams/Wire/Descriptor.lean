import TypedParams.Text.Basic

/-! Type descriptors, a type token and for arrays the descriptor of the elements, and the documents
that carry them with a name and a payload. -/
namespace TypedParams

/-- A descriptor of any depth, kept as its tokens from the outside in; they are not checked. -/
structure Descriptor where
  type : String
  inner : List String
  deriving DecidableEq

namespace Descriptor

def elementType? (d : Descriptor) : Option Descriptor :=
  match d.inner with
  | [] => none
  | t :: ts => some ⟨t, ts⟩

def leaf (type : String) : Descriptor := ⟨type, []⟩

/-- The most levels, the outermost one counted, that a record may nest. -/
def levelLimit : Nat := 255

def levels (d : Descriptor) : Nat := d.inner.length + 1

/-- The descriptor with the given token around an element descriptor. -/
def wrap (type : String) : Option Descriptor → Descriptor
  | none => leaf type
  | some d => ⟨type, d.type :: d.inner⟩

@[simp] theorem elementType?_wrap (type : String) (d : Option Descriptor) :
    (wrap type d).elementType? = d := by
  cases d <;> rfl

@[simp] theorem type_wrap (type : String) (d : Option Descriptor) : (wrap type d).type = type := by
  cases d <;> rfl

theorem wrap_elementType? (d : Descriptor) : wrap d.type d.elementType? = d := by
  rcases d with ⟨t, _ | ⟨t', ts⟩⟩ <;> rfl

def className : ClassName := ⟨"parambricks.models.wire", [], "TypeDescriptor"⟩

/-- A chain of tokens nested one in the other. -/
def quotedChain : String → List String → String
  | type, [] => "TypeDescriptor(type=" ++ Text.quoted type ++ ", element_type=None)"
  | type, t :: ts =>
    "TypeDescriptor(type=" ++ Text.quoted type ++ ", element_type=" ++ quotedChain t ts ++ ")"

def quoted (d : Descriptor) : String := quotedChain d.type d.inner

/-- The fields alone, as text in place of a placeholder. -/
def shown (d : Descriptor) : String :=
  "type=" ++ Text.quoted d.type ++ " element_type=" ++
    (match d.elementType? with
     | none => "None"
     | some e => e.quoted)

end Descriptor

/-- A literal, or a list whose items nothing has checked yet. -/
inductive Payload (α : Type) where
  | text (s : String)
  | items (xs : List α)

structure Document (α : Type) where
  name : String
  type : Descriptor
  payload : Payload α

def Document.className : ClassName := ⟨"parambricks.models.wire", [], "WireParameter"⟩

end TypedParams

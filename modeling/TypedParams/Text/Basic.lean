import TypedParams.LogicalType
import TypedParams.Text.Quoted

/-! Strings as their owners see them: plain, a type token, or of an application class. -/
namespace TypedParams

/-- Where a class lives and what it is called. -/
structure ClassName where
  home : String
  outer : List String
  name : String
  deriving DecidableEq

namespace ClassName

/-- A built-in class, which has no home. -/
def builtin (name : String) : ClassName := ⟨"", [], name⟩

/-- The name with the enclosing classes in front. -/
def qualified (c : ClassName) : String := String.intercalate "." (c.outer ++ [c.name])

def full (c : ClassName) : String :=
  if c.home = "" then c.qualified else c.home ++ "." ++ c.qualified

end ClassName

/-- The application class of a value, and the texts it shows where they differ from the plain ones.
-/
structure Guise where
  cls : ClassName
  shown : Option String
  quoted : Option String
  deriving DecidableEq

def LogicalType.className : ClassName := ⟨"parambricks.types", [], "LogicalType"⟩

/-- The form in which a type shows itself inside other values. -/
def LogicalType.quoted (t : LogicalType) : String :=
  "<LogicalType." ++ t.token ++ ": " ++ Text.quoted t.token ++ ">"

/-- A string; what it says is its `content`, whatever its class shows. -/
inductive Text where
  | plain (s : String)
  | token (t : LogicalType)
  | custom (content : String) (guise : Guise)
  /-- As `custom`, of a string in which surrogates stand alone. -/
  | torn (content : String) (guise : Guise)
  deriving DecidableEq

namespace Text

def content : Text → String
  | .plain s => s
  | .token t => t.token
  | .custom s _ | .torn s _ => s

def className : Text → ClassName
  | .plain _ => .builtin "str"
  | .token _ => LogicalType.className
  | .custom _ g | .torn _ g => g.cls

/-- The text put in place of a placeholder. -/
def shown : Text → String
  | .plain s => s
  | .token t => t.token
  | .custom s g | .torn s g => g.shown.getD s

def quotedForm : Text → String
  | .plain s => quoted s
  | .token t => t.quoted
  | .custom s g => g.quoted.getD (quoted s)
  | .torn s g => g.quoted.getD (quotedBy escapeSurrogate s)

/-- Whether a string of an application class has no Unicode encoding. Plain strings are passed on
without one being made. -/
def isTorn : Text → Bool
  | .torn s _ => s.toList.any isSurrogate
  | _ => false

@[simp] theorem content_plain (s : String) : (plain s).content = s := rfl

/-- Strings are equal when they say the same. -/
instance : BEq Text := ⟨fun s t => s.content == t.content⟩

theorem beq_iff {s t : Text} : (s == t) = true ↔ s.content = t.content := by
  simp [BEq.beq]

end Text
end TypedParams

import TypedParams.Template.Scan
import TypedParams.Value.Access

/-! Placeholders replaced by what their names are bound to. -/
namespace TypedParams.Template

/-- Values by name: the entries of a mapping. All values are taken to have a text. -/
abbrev Bindings := List (Value × Value)

/-- The text a name stands for; an unbound name and one bound to null stand for nothing. -/
def insertion? (vars : Bindings) (name : List Char) : Option (List Char) :=
  match Value.field? vars (String.ofList name) with
  | none | some .null => none
  | some v => some v.shown.toList

/-- A placeholder that stands for nothing keeps its spelling. -/
def renderPiece (vars : Bindings) : Piece → List Char
  | .char c => [c]
  | .placeholder name spelling => (insertion? vars name).getD spelling

def substituteChars (vars : Bindings) (cs : List Char) : List Char :=
  (scan cs).flatMap (renderPiece vars)

/-- Whether a text has an opening of either spelling. -/
def hasOpening : List Char → Bool
  | '{' :: '{' :: _ => true
  | '$' :: '{' :: _ => true
  | _ :: cs => hasOpening cs
  | [] => false

/-- A text without an opening is not looked at any further. -/
def substitute (vars : Bindings) (s : String) : String :=
  if hasOpening s.toList then String.ofList (substituteChars vars s.toList) else s

/-- A string of an application class keeps its class only where it has no opening. -/
def substituteText (vars : Bindings) (t : Text) : Text :=
  if hasOpening t.content.toList then .plain (substitute vars t.content) else t

mutual

/-- Strings are substituted, in lists and tuples at any depth; everything else is kept. -/
def resolve (vars : Bindings) : Value → Value
  | .text t => .text (substituteText vars t)
  | .list xs _ => .list (resolveAll vars xs) none
  | .tuple xs _ => .tuple (resolveAll vars xs) none
  | v => v

def resolveAll (vars : Bindings) : List Value → List Value
  | [] => []
  | v :: vs => resolve vars v :: resolveAll vars vs

end

theorem resolveAll_eq_map (vars : Bindings) (vs : List Value) :
    resolveAll vars vs = vs.map (resolve vars) := by
  induction vs with
  | nil => rfl
  | cons v vs ih => simp [resolveAll, ih]

/-- The names of the placeholders in a text, in order. -/
def placeholderNames (cs : List Char) : List (List Char) := (scan cs).filterMap Piece.name?

mutual

/-- The names of the placeholders in the strings that are substituted, in order. -/
def names : Value → List (List Char)
  | .text t => placeholderNames t.content.toList
  | .list xs _ | .tuple xs _ => namesAll xs
  | _ => []

def namesAll : List Value → List (List Char)
  | [] => []
  | v :: vs => names v ++ namesAll vs

end

end TypedParams.Template

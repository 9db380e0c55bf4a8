import TypedParams.Error
import TypedParams.Value.Basic

/-! The two texts of a host value, the quoted form and the text put in place of a placeholder, and
the refusals that contain them. -/
namespace TypedParams.Value

def quotedOr (g : Option Guise) (plain : String) : String := (g.bind (·.quoted)).getD plain

def commaList (ss : List String) : String := String.intercalate ", " ss

def quotedBool (b : Bool) : String := if b then "True" else "False"

def quotedClass (c : Class) (members : List Text) : String :=
  if members.isEmpty then "<class '" ++ c.name.full ++ "'>" else "<enum '" ++ c.name.name ++ "'>"

def documentFields (name : String) (type : Descriptor) (payload separator : String) : String :=
  "name=" ++ Text.quoted name ++ separator ++ "parameter_type=" ++ type.quoted ++ separator ++
    "parameter_value=" ++ payload

mutual

def quoted : Value → String
  | .null => "None"
  | .bool b => quotedBool b
  | .int n g => quotedOr g (toString n)
  | .float x g => quotedOr g x.text
  | .text t => t.quotedForm
  | .bytes bs g => quotedOr g (Text.quotedBytes bs)
  | .buffer bs => Text.quotedBuffer bs
  | .list xs g => quotedOr g ("[" ++ commaList (quotedAll xs) ++ "]")
  | .tuple xs g => quotedOr g (TypedValue.quotedTuple (quotedAll xs))
  | .stream _ => "<generator object>"
  | .mapping es => "\x7b" ++ commaList (quotedEntries es) ++ "\x7d"
  | .typed tv => tv.quoted
  | .descriptor d => d.quoted
  | .document ⟨name, type, p⟩ =>
    "WireParameter(" ++ documentFields name type (quotedPayload p) ", " ++ ")"
  | .parameters p => p.quoted
  | .classRef c members => quotedClass c members
  | .foreign f _ => quotedOr (some f.guise) ("<" ++ f.guise.cls.full ++ " object>")

def quotedAll : List Value → List String
  | [] => []
  | v :: vs => v.quoted :: quotedAll vs

def quotedEntries : List (Value × Value) → List String
  | [] => []
  | (k, v) :: es => (k.quoted ++ ": " ++ v.quoted) :: quotedEntries es

def quotedPayload : Payload Value → String
  | .text s => Text.quoted s
  | .items xs => "[" ++ commaList (quotedAll xs) ++ "]"

end

/-- Strings, descriptors, documents and values with a guise have a text apart from their quoted
form. -/
def shown (v : Value) : String :=
  match v with
  | .text t => t.shown
  | .int _ g | .float _ g | .bytes _ g | .list _ g | .tuple _ g =>
    (g.bind (·.shown)).getD v.quoted
  | .foreign f _ => f.guise.shown.getD v.quoted
  | .descriptor d => d.shown
  | .document d => documentFields d.name d.type (quotedPayload d.payload) " "
  | v => v.quoted

theorem shown_text (t : Text) : (Value.text t).shown = t.shown := rfl

mutual

/-- Whether the quoted form can be written: not with an integer in it that is too long. -/
def isQuotable : Value → Bool
  | .int n g => (g.bind (·.quoted)).isSome || Text.isWritable n
  | .list xs g | .tuple xs g => (g.bind (·.quoted)).isSome || allQuotable xs
  | .mapping es => entriesQuotable es
  | .document ⟨_, _, .items xs⟩ => allQuotable xs
  | _ => true

def allQuotable : List Value → Bool
  | [] => true
  | v :: vs => v.isQuotable && allQuotable vs

def entriesQuotable : List (Value × Value) → Bool
  | [] => true
  | (k, v) :: es => k.isQuotable && v.isQuotable && entriesQuotable es

end

def isShowable (v : Value) : Bool :=
  match v with
  | .int _ g | .list _ g | .tuple _ g => (g.bind (·.shown)).isSome || v.isQuotable
  | v => v.isQuotable

/-- A refusal that quotes a value. -/
def quoting (v : Value) (refusal : String → Error) : Error :=
  if v.isQuotable then refusal v.quoted else .unwritableNumber

/-- A refusal that shows a value. -/
def showing (v : Value) (refusal : String → Error) : Error :=
  if v.isShowable then refusal v.shown else .unwritableNumber

end TypedParams.Value

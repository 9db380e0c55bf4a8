import TypedParams.Wire.Reader

/-! Declared parameters: scalars and arrays, read from configuration values. -/
namespace TypedParams

/-- A declared parameter; the literals keep the kind they were written in. -/
inductive Declaration where
  | scalar (name : String) (type : Option LogicalType) (value : Value)
  | array (name : String) (elementType : Option LogicalType) (values : List Value)

namespace Checked

/-- A type, by its token in any form that is read as a string, or nothing. -/
def type? (v : Value) : Checked (Option LogicalType) :=
  if v.isNull then .ok none
  else match (string v).toOption.bind LogicalType.ofToken? with
    | some t => .ok (some t)
    | none => refuse v .notType

/-- The issues of a value that is a literal of no kind; as a string it is faulty in its own way. -/
def noLiteral (v : Value) (asString : Fault) : Checked α :=
  .error [⟨[.key "bool"], .notBool, v.isQuotable⟩, ⟨[.key "int"], .notInt, v.isQuotable⟩,
    ⟨[.key "float"], .notNumber, v.isQuotable⟩, ⟨[.key "str"], asString, v.isQuotable⟩,
    ⟨[.key "bytes"], .notBytes, v.isQuotable⟩]

/-- A truth value, a number, a string or bytes, with no conversion between them. A number of another
class is read as a float. -/
def literal (v : Value) : Checked Value :=
  match v with
  | .bool b => .ok (.bool b)
  | .int n _ => .ok (.int n none)
  | .float x _ => .ok (.float x none)
  | .text t => if t.isTorn then noLiteral v .notUtf8 else .ok (.str t.content)
  | .bytes bs g => .ok (.bytes bs g)
  | .foreign ⟨_, _, some x⟩ _ => .ok (.float x none)
  | _ => noLiteral v .notString

end Checked

namespace Declaration

def name : Declaration → String
  | .scalar n _ _ | .array n _ _ => n

def isComposite (t : Option LogicalType) : Bool := t.elim false (·.isComposite)

def scalarRule : Declaration → Option String
  | .scalar _ t _ =>
    if isComposite t then
      some "scalar parameters can't declare type ARRAY or STRUCT; use kind='array'"
    else none
  | .array _ _ _ => none

def arrayRule : Declaration → Option String
  | .array _ t values =>
    if isComposite t then some "element_type can't be ARRAY or STRUCT"
    else if t.isNone && values.isEmpty then some "element_type is required when values is empty"
    else none
  | .scalar _ _ _ => none

def readScalar (es : List (Value × Value)) : Checked Declaration :=
  let fields := Checked.both (Checked.required es "name" Checked.string)
    (Checked.both (Checked.optional es "type" none Checked.type?)
      (Checked.required es "value" Checked.literal))
  let declaration : Checked Declaration := fields.map fun p => .scalar p.1 p.2.1 p.2.2
  declaration.ensure (Value.mapping es).isQuotable scalarRule

def readLiterals (v : Value) : Checked (List Value) :=
  (Checked.list v).bind fun vs => Checked.all (vs.map Checked.literal)

def readArray (es : List (Value × Value)) : Checked Declaration :=
  let fields := Checked.both (Checked.required es "name" Checked.string)
    (Checked.both (Checked.optional es "element_type" none Checked.type?)
      (Checked.optional es "values" [] readLiterals))
  let declaration : Checked Declaration := fields.map fun p => .array p.1 p.2.1 p.2.2
  declaration.ensure (Value.mapping es).isQuotable arrayRule

/-- A tag as the issue shows it. -/
def shownTag (tag : Value) : String :=
  if tag.isShowable then tag.shown else "<unprintable " ++ tag.shortClassName ++ " object>"

/-- Entries are read by the rules that their `kind` names. -/
def readEntries (es : List (Value × Value)) : Checked Declaration :=
  match Value.field? es "kind" with
  | none => Checked.refuse (.mapping es) .noTag
  | some tag =>
    match tag.text?.map (·.content) with
    | some "scalar" => (readScalar es).under (.key "scalar")
    | some "array" => (readArray es).under (.key "array")
    | _ => Checked.refuse (.mapping es) (.unknownTag (shownTag tag))

/-- A declaration. Objects are asked for their kind, which none has. -/
def read (v : Value) : Checked Declaration :=
  match v.entries? with
  | some es => readEntries es
  | none => Checked.refuse v (if v.isObject then .noTag else .notEntry)

/-- The first name that occurs a second time. -/
def repeated? : (seen : List String) → List Declaration → Option String
  | _, [] => none
  | seen, d :: ds => if seen.contains d.name then some d.name else repeated? (d.name :: seen) ds

def uniqueRule (ds : List Declaration) : Option String :=
  (repeated? [] ds).map fun name => "duplicate parameter name " ++ Text.quoted name

/-- A configuration: declarations with distinct names. -/
def readConfig (v : Value) : Checked (List Declaration) :=
  v.entries?.elim (Checked.refuse v (.notRecord "QueryParametersConfig")) fun es =>
    let items := Checked.optional es "parameters" [] fun v =>
      (Checked.list v).bind fun vs => Checked.all (vs.map read)
    items.ensure v.isQuotable uniqueRule

/-- Declarations one by one, whose names may repeat; the first malformed one is reported. -/
def readEach (vs : List Value) : Except Error (List Declaration) :=
  vs.mapM fun v => (read v).mapError (.invalidRecord none)

end Declaration
end TypedParams

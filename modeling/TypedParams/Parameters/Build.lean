import TypedParams.Encoding.Inference

/-! Parameter sets from mappings of host values. -/
namespace TypedParams.Parameters

/-- Add a parameter under a name that has to be an identifier. -/
def add (p : Parameters) (name : Value) (v : TypedValue) : Except Error Parameters :=
  match name with
  | .text t =>
    if h : Text.isIdentifier t.content = true then .ok (p.insert t v h)
    else .error (name.quoting .badName)
  | _ => .error (name.quoting .badName)

/-- Add entries in order; the value of each is encoded before its name is looked at. -/
def addAll (r : Registry) (p : Parameters) : List (Value × Value) → Except Error Parameters
  | [] => .ok p
  | (name, v) :: es => do
    let tv ← TypedValue.ofValue r v
    let p ← p.add name tv
    addAll r p es

def ofEntries (r : Registry) (es : List (Value × Value)) : Except Error Parameters :=
  addAll r .empty es

/-- The parameters of a mapping; whatever counts as not given makes none. -/
def ofValue (r : Registry) (v : Value) : Except Error Parameters :=
  if !v.isTruthy then .ok .empty
  else match v.entries? with
    | some es => ofEntries r es
    | none => .error (if v.isMappingClass then .notMapping else .noMethod)

/-- The parameters with others put over them. -/
def extend (r : Registry) (p : Parameters) (v : Value) : Except Error Parameters :=
  match v.entries? with
  | some es => ofEntries r (Value.putAll es (Value.parameterEntries p))
  | none => .error .notMapping

/-- The value of a parameter; a name that cannot be a key is refused. -/
def getValue (p : Parameters) (name : Value) : Except Error TypedValue :=
  match name.text? with
  | some t =>
    match p.get? t.content with
    | some tv => .ok tv
    | none => .error .noParameter
  | none => .error (if name.hashable then .noParameter else .unhashable)

def containsValue (p : Parameters) (name : Value) : Except Error Bool :=
  match name.text? with
  | some t => .ok (p.contains t.content)
  | none => if name.hashable then .ok false else .error .unhashable

end TypedParams.Parameters

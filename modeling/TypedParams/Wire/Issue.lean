import TypedParams.LogicalType

/-! What a validated reader found wrong, and where. -/
namespace TypedParams

/-- One step into a nested input. -/
inductive Step where
  | key (name : String)
  | index (i : Nat)
  deriving DecidableEq

inductive Fault where
  | missing
  | notString
  | notUtf8
  | notList
  | notBool
  | notInt
  | notNumber
  | notBytes
  | notType
  /-- The input is no mapping and no instance of the named record. -/
  | notRecord (name : String)
  /-- Records are nested too deep. -/
  | nested
  | notEntry
  | noTag
  | unknownTag (shown : String)
  /-- A rule over the fields of a record, broken. -/
  | rule (text : String)
  deriving DecidableEq

namespace Fault

def code : Fault → String
  | .missing => "missing"
  | .notString => "string_type"
  | .notUtf8 => "string_unicode"
  | .notList => "list_type"
  | .notBool => "bool_type"
  | .notInt => "int_type"
  | .notNumber => "float_type"
  | .notBytes => "bytes_type"
  | .notType => "enum"
  | .notRecord _ => "model_type"
  | .nested => "recursion_loop"
  | .notEntry => "model_attributes_type"
  | .noTag => "union_tag_not_found"
  | .unknownTag _ => "union_tag_invalid"
  | .rule _ => "value_error"

def quotedTokens (ts : List LogicalType) : String :=
  String.intercalate ", " (ts.map fun t => "'" ++ t.token ++ "'")

/-- All tokens in order, the last after an "or". -/
def tokenChoice : String :=
  quotedTokens LogicalType.all.dropLast ++ " or " ++ quotedTokens (LogicalType.all.getLast?.toList)

def message : Fault → String
  | .missing => "Field required"
  | .notString => "Input should be a valid string"
  | .notUtf8 => "Input should be a valid string, unable to parse raw data as a unicode string"
  | .notList => "Input should be a valid list"
  | .notBool => "Input should be a valid boolean"
  | .notInt => "Input should be a valid integer"
  | .notNumber => "Input should be a valid number"
  | .notBytes => "Input should be a valid bytes"
  | .notType => "Input should be " ++ tokenChoice
  | .notRecord name => "Input should be a valid dictionary or instance of " ++ name
  | .nested => "Recursion error - cyclic reference detected"
  | .notEntry => "Input should be a valid dictionary or object to extract fields from"
  | .noTag => "Unable to extract tag using discriminator 'kind'"
  | .unknownTag shown =>
    "Input tag '" ++ shown ++
      "' found using 'kind' does not match any of the expected tags: 'scalar', 'array'"
  | .rule text => "Value error, " ++ text

end Fault

/-- A fault of an input. -/
structure Issue where
  path : List Step
  fault : Fault
  /-- Whether the input can be quoted. -/
  quotable : Bool
  deriving DecidableEq

def Issue.allUnder (s : Step) (is : List Issue) : List Issue :=
  is.map fun i => { i with path := s :: i.path }

/-- The result of a validated reading: a value, or every issue found, in field order. -/
abbrev Checked (α : Type) := Except (List Issue) α

namespace Checked

def fail (f : Fault) (quotable : Bool) : Checked α := .error [⟨[], f, quotable⟩]

/-- Issues found below a step. -/
def under (s : Step) (c : Checked α) : Checked α := c.mapError (Issue.allUnder s)

/-- Both parts, or the issues of both. -/
def both : Checked α → Checked β → Checked (α × β)
  | .ok a, .ok b => .ok (a, b)
  | .error is, .ok _ => .error is
  | .ok _, .error js => .error js
  | .error is, .error js => .error (is ++ js)

/-- All items, or the issues of all, each under its index. -/
def allFrom : Nat → List (Checked α) → Checked (List α)
  | _, [] => .ok []
  | i, c :: cs => (both (c.under (.index i)) (allFrom (i + 1) cs)).map fun p => p.1 :: p.2

def all (cs : List (Checked α)) : Checked (List α) := allFrom 0 cs

/-- A rule over what has been read. -/
def ensure (c : Checked α) (quotable : Bool) (broken : α → Option String) : Checked α :=
  c.bind fun a =>
    match broken a with
    | none => .ok a
    | some text => fail (.rule text) quotable

end Checked
end TypedParams

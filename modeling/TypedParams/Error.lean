import TypedParams.Temporal.Basic
import TypedParams.Text.Identifier
import TypedParams.Text.Quoted
import TypedParams.Wire.Issue

/-! Why an operation refuses its input, with the wording of each refusal. -/
namespace TypedParams

/-- The families of refusals. The first six are the library's own. -/
inductive ErrorKind where
  | invalidParameter
  | unsupportedType
  | typeMismatch
  | malformedLiteral
  | unknownType
  | encoderRegistry
  | validation
  | wrongType
  | wrongValue
  | missingKey
  | missingAttribute
  | overflow
  | spentToken
  | frozen
  deriving DecidableEq

/-- Families the library promises for inputs of any form. -/
def ErrorKind.isOwn : ErrorKind → Bool
  | .invalidParameter | .unsupportedType | .typeMismatch | .malformedLiteral | .unknownType
  | .encoderRegistry => true
  | _ => false

inductive Error where
  -- types and scalars
  | unknownType (quoted : String)
  | unsupportedClass (name : String)
  | compositeScalar (t : LogicalType)
  | mismatch (t : LogicalType) (cls : String)
  | intOutOfRange (shown : String) (least greatest : Int)
  | timestampOutOfRange (shown : String) (least greatest : Int)
  | malformedLiteral (t : TemporalType) (literal : String)
  -- encoders
  | compositeEncoder (t : LogicalType)
  | encoderTaken (t : LogicalType) (holder : String)
  | noEncoder (t : LogicalType)
  -- construction of a typed value
  | typeNotSet
  | elementsWithoutArray (t : LogicalType)
  | elementTypeNotSet
  | valueBesideElements
  | arrayWithoutElements
  | elementTypeWithoutElements (t : LogicalType)
  | valueNotSet
  | valueNotString (cls : String)
  | structValue
  | compositeElements (t : LogicalType)
  | elementNotTyped (index : Nat) (cls : String)
  | elementTypeDiffers (index : Nat) (found declared : LogicalType)
  -- arrays of host values
  | singleAsArray (cls : String)
  | untypedEmptyArray
  -- the wire
  | malformedDescriptor (issues : List Issue)
  | elementTypeOnScalar (t : LogicalType)
  | elementTypeMissing
  | nestedElementType (token : String)
  | payloadNotList (cls : String)
  | malformedDocument (issues : List Issue)
  -- names
  | badName (quoted : String)
  | duplicateName (name : String)
  -- inputs outside the contract of an operation
  | invalidRecord (record : Option String) (issues : List Issue)
  | notIterable
  | notMapping
  | notSequenceOfPairs
  | wrongPairLength
  | unhashable
  | notComparable
  | unknownField
  | noFormat
  | noParameter
  | notTextual
  | noMethod
  | badLevel
  | levelNotNumber
  | outsideCalendar
  | instantOverflow
  /-- A message would have to show an integer that is too long to be written. -/
  | unwritableNumber
  /-- A descriptor is nested too deep to be written. -/
  | unwritableNesting
  | spentToken
  | frozen
  deriving DecidableEq

/-- A detail added to a refusal's reason. -/
inductive Detail where
  | text (s : String)
  | number (n : Int)
  | names (ss : List String)

def Detail.quoted : Detail → String
  | .text s => Text.quoted s
  | .number n => toString n
  | .names ss => "[" ++ String.intercalate ", " (ss.map Text.quoted) ++ "]"

namespace Error

def kind : Error → ErrorKind
  | .unknownType _ => .unknownType
  | .unsupportedClass _ | .compositeScalar _ => .unsupportedType
  | .mismatch _ _ | .intOutOfRange _ _ _ | .timestampOutOfRange _ _ _ => .typeMismatch
  | .malformedLiteral _ _ => .malformedLiteral
  | .compositeEncoder _ | .encoderTaken _ _ | .noEncoder _ => .encoderRegistry
  | .typeNotSet | .elementsWithoutArray _ | .elementTypeNotSet | .valueBesideElements
  | .arrayWithoutElements | .elementTypeWithoutElements _ | .valueNotSet | .valueNotString _
  | .structValue | .compositeElements _ | .elementNotTyped _ _ | .elementTypeDiffers _ _ _
  | .singleAsArray _ | .untypedEmptyArray | .malformedDescriptor _ | .elementTypeOnScalar _
  | .elementTypeMissing | .nestedElementType _ | .payloadNotList _ | .malformedDocument _
  | .badName _ | .duplicateName _ => .invalidParameter
  | .invalidRecord _ _ => .validation
  | .notIterable | .notMapping | .notSequenceOfPairs | .unhashable | .notComparable
  | .unknownField | .levelNotNumber => .wrongType
  | .wrongPairLength | .badLevel | .outsideCalendar | .unwritableNumber | .unwritableNesting =>
    .wrongValue
  | .noFormat | .noParameter => .missingKey
  | .notTextual | .noMethod => .missingAttribute
  | .instantOverflow => .overflow
  | .spentToken => .spentToken
  | .frozen => .frozen

/-- A refusal with issues among its details quotes the inputs at fault. -/
def withIssues (refusal : List Issue → Error) (is : List Issue) : Error :=
  if is.all (·.quotable) then refusal is else .unwritableNumber

/-- What was found wrong inside a document, descriptor or configuration. -/
def issues : Error → List Issue
  | .malformedDescriptor is | .malformedDocument is | .invalidRecord _ is => is
  | _ => []

def reason : Error → String
  | .unknownType quoted => "Unknown logical type: " ++ quoted
  | .unsupportedClass name => "Unsupported object type for query parameter: " ++ name
  | .compositeScalar _ => "cannot encode a composite type as a scalar"
  | .mismatch t cls => "Type " ++ t.token ++ " incompatible with " ++ cls
  | .intOutOfRange shown _ _ => "Integer " ++ shown ++ " does not fit in INT64"
  | .timestampOutOfRange shown _ _ =>
    "TIMESTAMP microseconds " ++ shown ++ " outside the representable range"
  | .malformedLiteral t literal =>
    "Invalid " ++ t.scalar.token ++ " literal " ++ Text.quoted literal ++ ", expected format " ++
      Text.quoted t.pattern
  | .compositeEncoder t => "Cannot register a scalar encoder for composite type " ++ t.token
  | .encoderTaken t holder => "Encoder already registered for type=" ++ t.token ++ ": " ++ holder
  | .noEncoder t => "No encoder registered for type=" ++ t.token
  | .typeNotSet => "type must be set"
  | .elementsWithoutArray _ => "type must be ARRAY if elements is set"
  | .elementTypeNotSet => "elementType required when elements is set"
  | .valueBesideElements => "value can't be set if elements is set"
  | .arrayWithoutElements => "type can't be ARRAY if elements is not set"
  | .elementTypeWithoutElements _ => "elementType can't be set if elements is not set"
  | .valueNotSet => "value must be set if elements is not set"
  | .valueNotString _ => "value must be a string"
  | .structValue => "STRUCT parameters are not supported"
  | .compositeElements t => "ARRAY of " ++ t.token ++ " parameters are not supported"
  | .elementNotTyped _ _ => "array elements must be TypedValue instances"
  | .elementTypeDiffers _ found declared =>
    "array element type " ++ found.token ++ " does not match elementType " ++ declared.token
  | .singleAsArray _ =>
    "ARRAY values must be a sequence of elements, not a single string or bytes value"
  | .untypedEmptyArray => "elementType required for an empty array"
  | .malformedDescriptor _ => "malformed type descriptor"
  | .elementTypeOnScalar _ => "elementType can't be set if type is not ARRAY"
  | .elementTypeMissing => "elementType required when type is ARRAY"
  | .nestedElementType _ => "ARRAY element descriptors can't carry an elementType"
  | .payloadNotList _ => "ARRAY payload must be a list of element payloads"
  | .malformedDocument _ => "malformed parameter document"
  | .badName quoted => "Invalid parameter name " ++ quoted
  | .duplicateName name => "Duplicate parameter name " ++ Text.quoted name
  | .invalidRecord record _ => record.getD ""
  | _ => ""

def details : Error → List (String × Detail)
  | .unknownType _ => [("known", .names (LogicalType.all.map (·.token)))]
  | .unsupportedClass name => [("native_type", .text name)]
  | .compositeScalar t => [("type", .text t.token)]
  | .mismatch t cls => [("type", .text t.token), ("native", .text cls)]
  | .intOutOfRange _ least greatest | .timestampOutOfRange _ least greatest =>
    [("min", .number least), ("max", .number greatest)]
  | .malformedLiteral t _ => [("type", .text t.scalar.token), ("pattern", .text t.pattern)]
  | .elementsWithoutArray t | .elementTypeOnScalar t => [("type", .text t.token)]
  | .elementTypeWithoutElements t | .compositeElements t => [("element_type", .text t.token)]
  | .valueNotString cls => [("value_type", .text cls)]
  | .elementNotTyped index cls => [("index", .number index), ("element_type", .text cls)]
  | .elementTypeDiffers index _ _ => [("index", .number index)]
  | .singleAsArray cls => [("values_type", .text cls)]
  | .nestedElementType token => [("element_type", .text token)]
  | .payloadNotList cls => [("payload_type", .text cls)]
  | .badName _ => [("pattern", .text Text.identifierPattern)]
  | .duplicateName name => [("name", .text name)]
  | _ => []

/-- The reason, and behind a dash the details, if there are any. -/
def message (e : Error) : String :=
  match e.details with
  | [] => e.reason
  | ds =>
    let items := ds.map fun d => Text.quoted d.1 ++ ": " ++ d.2.quoted
    e.reason ++ " - \x7b" ++ String.intercalate ", " items ++ "\x7d"

end Error
end TypedParams

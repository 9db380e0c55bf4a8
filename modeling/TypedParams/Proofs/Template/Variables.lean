import TypedParams.Proofs.Value.Entries
import TypedParams.Template.Variables

/-! Bindings of a run over default ones. Main statement: whether a run is refused does not depend on
the defaults, and one that is not has its entries put over them. -/
namespace TypedParams.Template.Bindings

theorem overriddenBy_eq (defaults : Bindings) (run : Value) :
    defaults.overriddenBy run =
      if run.isTruthy = true ∧ run.entries? = none then .error .notMapping
      else .ok (Value.putAll (run.entries?.getD []) defaults) := by
  unfold overriddenBy
  cases htruthy : run.isTruthy with
  | false =>
    rw [Value.entries?_of_not_truthy htruthy]
    rfl
  | true => cases run.entries? <;> rfl

theorem field?_ofTexts_eq_none {vs : List (String × String)} {name : String}
    (h : name ∉ vs.map (·.1)) : Value.field? (ofTexts vs) name = none := by
  induction vs with
  | nil => rfl
  | cons v vs ih =>
    rw [List.map_cons, List.mem_cons, not_or] at h
    have hv : v.1 ≠ name := fun hv => h.1 hv.symm
    change Value.field? ((.str v.1, .str v.2) :: ofTexts vs) name = none
    rw [Value.field?_cons_str, if_neg hv, ih h.2]

end TypedParams.Template.Bindings

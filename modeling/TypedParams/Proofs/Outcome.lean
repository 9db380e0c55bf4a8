import TypedParams.Error
import TypedParams.Proofs.Success

/-! Results up to the wording of refusals. -/
namespace TypedParams

/-- A result, of a refusal only the family. -/
def outcome (x : Except Error α) : Except ErrorKind α := x.mapError Error.kind

theorem outcome_bind (x : Except Error α) (f : α → Except Error β) :
    outcome (x.bind f) = (outcome x).bind fun a => outcome (f a) := by
  cases x <;> rfl

theorem outcome_map (x : Except Error α) (f : α → β) : outcome (x.map f) = (outcome x).map f := by
  cases x <;> rfl

theorem outcome_bind_congr {x y : Except Error α} {f g : α → Except Error β}
    (hx : outcome x = outcome y) (hf : ∀ a, outcome (f a) = outcome (g a)) :
    outcome (x.bind f) = outcome (y.bind g) := by
  rw [outcome_bind, outcome_bind, hx]
  exact congrArg _ (funext hf)

theorem outcome_mapM_congr {f : α → Except Error γ} {g : β → Except Error γ} {xs : List α}
    {ys : List β} (h : List.Forall₂ (fun x y => outcome (f x) = outcome (g y)) xs ys) :
    outcome (xs.mapM f) = outcome (ys.mapM g) := by
  induction h with
  | nil => rfl
  | cons hxy _ ih =>
    rw [List.mapM_cons, List.mapM_cons]
    exact outcome_bind_congr hxy fun z => outcome_bind_congr ih fun zs => rfl

end TypedParams

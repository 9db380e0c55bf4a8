import Mathlib.Data.List.Basic
import TypedParams.Template.Resolve

/-! Names that are mentioned. Main statement: resolving reads the bindings of the placeholders in a
value and no others. -/
namespace TypedParams.Template

theorem mem_namesAll {n : List Char} {vs : List Value} :
    n ∈ namesAll vs ↔ ∃ v ∈ vs, n ∈ names v := by
  induction vs with
  | nil => simp [namesAll]
  | cons v vs ih => simp [namesAll, ih]

variable {V W : Bindings}

theorem renderPiece_congr {p : Piece} (h : ∀ n ∈ p.name?, insertion? V n = insertion? W n) :
    renderPiece V p = renderPiece W p := by
  cases p with
  | char c => rfl
  | placeholder name spelling => rw [renderPiece, renderPiece, h name rfl]

theorem substituteChars_congr {cs : List Char}
    (h : ∀ n ∈ placeholderNames cs, insertion? V n = insertion? W n) :
    substituteChars V cs = substituteChars W cs := by
  apply List.flatMap_congr
  intro p hp
  apply renderPiece_congr
  intro n hn
  exact h n (List.mem_filterMap.2 ⟨p, hp, hn⟩)

theorem substituteText_congr {t : Text}
    (h : ∀ n ∈ placeholderNames t.content.toList, insertion? V n = insertion? W n) :
    substituteText V t = substituteText W t := by
  rw [substituteText, substituteText, substitute, substitute, substituteChars_congr h]

mutual

theorem resolve_congr (v : Value) (h : ∀ n ∈ names v, insertion? V n = insertion? W n) :
    resolve V v = resolve W v := by
  cases v with
  | text t => exact congrArg Value.text (substituteText_congr h)
  | list xs g => exact congrArg (Value.list · none) (resolveAll_congr xs h)
  | tuple xs g => exact congrArg (Value.tuple · none) (resolveAll_congr xs h)
  | _ => rfl

theorem resolveAll_congr (vs : List Value)
    (h : ∀ n ∈ namesAll vs, insertion? V n = insertion? W n) :
    resolveAll V vs = resolveAll W vs := by
  cases vs with
  | nil => rfl
  | cons v vs =>
    have hfirst := resolve_congr v fun n hn => h n (List.mem_append_left _ hn)
    have hrest := resolveAll_congr vs fun n hn => h n (List.mem_append_right _ hn)
    rw [resolveAll, resolveAll, hfirst, hrest]

end

end TypedParams.Template

import TypedParams.Proofs.Success
import TypedParams.TypedValue.Fields

/-! What each check of a typed value's fields lets pass, and how it refuses the rest. -/
namespace TypedParams.Fields

theorem checkScalar_eq_ok_iff {value : Value} {type : LogicalType}
    {elementType : Option LogicalType} {tv : TypedValue} :
    checkScalar value type elementType = .ok tv ↔
      elementType = none ∧ ∃ t s, type = .scalar t ∧ value = .text s ∧ tv = .scalar t s := by
  constructor
  · intro h
    unfold checkScalar at h
    split_ifs at h with ha
    rcases elementType with _ | u
    · refine ⟨rfl, ?_⟩
      cases value <;> simp only [reduceCtorEq] at h
      case text s =>
        cases type with
        | scalar t => exact ⟨t, s, rfl, rfl, (Except.ok.inj h).symm⟩
        | array => exact absurd rfl ha
        | struct => cases h
    · cases h
  · intro h
    obtain ⟨rfl, t, s, rfl, rfl, rfl⟩ := h
    rfl

theorem kind_of_checkScalar {value : Value} {type : LogicalType}
    {elementType : Option LogicalType} {e : Error}
    (h : checkScalar value type elementType = .error e) : e.kind = .invalidParameter := by
  unfold checkScalar at h
  split_ifs at h with ha
  · cases h; rfl
  rcases elementType with _ | u
  · cases value <;> simp only [Except.error.injEq] at h
    case text s =>
      cases type with
      | scalar t => cases h
      | array => cases h; rfl
      | struct => cases h; rfl
    all_goals subst h; rfl
  · cases h; rfl

/-- The elements that pass are the scalars of the declared type, wherever the count starts. -/
theorem checkElements_eq_ok_iff {t : ScalarType} {i : Nat} {xs : List Value} {items : List Text} :
    checkElements t i xs = .ok items ↔ xs = items.map fun s => .typed (.scalar t s) := by
  induction xs generalizing i items with
  | nil =>
    rw [checkElements, Except.ok.injEq, @eq_comm _ [] (List.map _ _), List.map_eq_nil_iff, eq_comm]
  | cons x xs ih =>
    constructor
    · intro h
      unfold checkElements at h
      split at h
      case h_1 => contradiction
      case h_2 heq =>
        obtain ⟨rfl, rfl⟩ := List.cons.inj heq
        split_ifs at h with ht
        obtain ⟨rest, hrest, rfl⟩ := map_eq_ok_iff.1 h
        subst ht
        rw [List.map_cons, ih.1 hrest]
      case h_3 => cases h
      case h_4 => cases h
    · intro h
      cases items with
      | nil => simp at h
      | cons s items =>
        obtain ⟨rfl, hxs⟩ := List.cons.inj h
        rw [checkElements, if_pos rfl, ih.2 hxs]
        rfl

theorem kind_of_checkElements {t : ScalarType} {i : Nat} {xs : List Value} {e : Error}
    (h : checkElements t i xs = .error e) : e.kind = .invalidParameter := by
  induction xs generalizing i with
  | nil => cases h
  | cons x xs ih =>
    unfold checkElements at h
    split at h
    case h_1 => contradiction
    case h_2 heq =>
      obtain ⟨rfl, rfl⟩ := List.cons.inj heq
      split_ifs at h with ht
      · exact ih (map_eq_error_iff.1 h)
      · cases h; rfl
    case h_3 => cases h; rfl
    case h_4 => cases h; rfl

theorem checkArray_eq_ok_iff {value : Value} {xs : List Value} {type : LogicalType}
    {elementType : Option LogicalType} {tv : TypedValue} :
    checkArray value xs type elementType = .ok tv ↔
      type = .array ∧ value.isNull = true ∧ ∃ t items, elementType = some (.scalar t) ∧
        xs = items.map (fun s => .typed (.scalar t s)) ∧ tv = .array t items := by
  constructor
  · intro h
    unfold checkArray at h
    rcases elementType with _ | u
    · split_ifs at h
    · split_ifs at h with ha hv
      cases u with
      | scalar t =>
        obtain ⟨items, hitems, rfl⟩ := map_eq_ok_iff.1 h
        have hxs := checkElements_eq_ok_iff.1 hitems
        exact ⟨not_not.1 ha, by simpa using hv, t, items, rfl, hxs, rfl⟩
      | array => cases h
      | struct => cases h
  · intro h
    obtain ⟨rfl, hv, t, items, rfl, hxs, rfl⟩ := h
    have helements : checkElements t 0 xs = .ok items := checkElements_eq_ok_iff.2 hxs
    unfold checkArray
    simp only [ne_eq, not_true_eq_false, if_false, hv, Bool.not_true, Bool.false_eq_true]
    rw [helements]
    rfl

theorem checkArray_of_isComposite {t : LogicalType} (h : t.isComposite = true) (xs : List Value) :
    checkArray .null xs .array (some t) = .error (.compositeElements t) := by
  cases t with
  | scalar t => cases h
  | array => rfl
  | struct => rfl

theorem kind_of_checkArray {value : Value} {xs : List Value} {type : LogicalType}
    {elementType : Option LogicalType} {e : Error}
    (h : checkArray value xs type elementType = .error e) : e.kind = .invalidParameter := by
  unfold checkArray at h
  rcases elementType with _ | u
  · split_ifs at h <;> cases h <;> rfl
  · split_ifs at h with ha hv
    · cases h; rfl
    · cases h; rfl
    cases u with
    | scalar t => exact kind_of_checkElements (map_eq_error_iff.1 h)
    | array => cases h; rfl
    | struct => cases h; rfl

end TypedParams.Fields

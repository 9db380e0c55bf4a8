import TypedParams.Proofs.Success
import TypedParams.Value.Access

/-! Host values that name a type. -/
namespace TypedParams

namespace Value

/-- A value names a type as the type itself, or as a string that says its token. -/
def Names (v : Value) (t : LogicalType) : Prop := ∃ s, v = .text s ∧ s.content = t.token

/-- A null leaves the type out. -/
def NamesOrNull (v : Value) : Prop := v = .null ∨ ∃ t, v.Names t

theorem text?_eq_some_iff {v : Value} {s : Text} : v.text? = some s ↔ v = .text s := by
  cases v <;> simp [text?]

theorem isNull_iff {v : Value} : v.isNull = true ↔ v = .null := by
  cases v <;> simp [isNull]

/-- A refusal that quotes a value is the one that is meant, unless the value cannot be quoted. -/
theorem eq_quoting_iff {v : Value} {refusal : String → Error} {e : Error} :
    e = v.quoting refusal ↔ v.isQuotable = true ∧ e = refusal v.quoted ∨
      v.isQuotable = false ∧ e = .unwritableNumber := by
  cases hv : v.isQuotable <;> simp [quoting, hv]

theorem eq_showing_iff {v : Value} {refusal : String → Error} {e : Error} :
    e = v.showing refusal ↔ v.isShowable = true ∧ e = refusal v.shown ∨
      v.isShowable = false ∧ e = .unwritableNumber := by
  cases hv : v.isShowable <;> simp [showing, hv]

theorem isQuotable_int (n : Int) : (Value.int n none).isQuotable = Text.isWritable n := by
  simp [isQuotable]

theorem isShowable_int (n : Int) : (Value.int n none).isShowable = Text.isWritable n := by
  simp [isShowable, isQuotable]

theorem names_ofType (t : LogicalType) : (ofType t).Names t := ⟨.token t, rfl, rfl⟩

theorem Names.ne_null {v : Value} {t : LogicalType} (h : v.Names t) : v ≠ .null := by
  obtain ⟨s, rfl, -⟩ := h
  exact Value.noConfusion

end Value

namespace LogicalType

theorem ofValue_eq_ok_iff {v : Value} {t : LogicalType} : ofValue v = .ok t ↔ v.Names t := by
  have hread : ofValue v = .ok t ↔ v.text?.bind (fun s => ofToken? s.content) = some t := by
    unfold ofValue
    split
    next u hu => rw [hu, Except.ok.injEq, Option.some.injEq]
    next hnone => simp [hnone]
  rw [hread, Option.bind_eq_some_iff]
  simp only [Value.text?_eq_some_iff, ofToken?_eq_some_iff, Value.Names]

theorem error_of_ofValue {v : Value} {e : Error} (h : ofValue v = .error e) :
    e = v.quoting .unknownType ∧ ∀ t, ¬v.Names t := by
  constructor
  · unfold ofValue at h
    split at h
    · cases h
    · exact (Except.error.inj h).symm
  · intro t ht
    rw [ofValue_eq_ok_iff.2 ht] at h
    cases h

theorem ofValue?_eq_ok_iff {v : Value} {o : Option LogicalType} :
    ofValue? v = .ok o ↔ v = .null ∧ o = none ∨ ∃ t, v.Names t ∧ o = some t := by
  unfold ofValue?
  by_cases hv : v = .null
  · subst hv
    have hnames : ∀ t, ¬Value.null.Names t := fun t ht => ht.ne_null rfl
    simp [Value.isNull, hnames, eq_comm]
  · have hnull : ¬v.isNull = true := fun h => hv (Value.isNull_iff.1 h)
    rw [if_neg hnull, map_eq_ok_iff]
    simp only [hv, false_and, false_or, ofValue_eq_ok_iff, @eq_comm _ o]

theorem namesOrNull_of_ofValue? {v : Value} {o : Option LogicalType} (h : ofValue? v = .ok o) :
    v.NamesOrNull := by
  rcases ofValue?_eq_ok_iff.1 h with ⟨hv, -⟩ | ⟨t, ht, -⟩
  · exact .inl hv
  · exact .inr ⟨t, ht⟩

theorem error_of_ofValue? {v : Value} {e : Error} (h : ofValue? v = .error e) :
    e = v.quoting .unknownType ∧ ¬v.NamesOrNull := by
  unfold ofValue? at h
  split_ifs at h with hnull
  obtain ⟨he, hnames⟩ := error_of_ofValue (map_eq_error_iff.1 h)
  refine ⟨he, ?_⟩
  intro hv
  rcases hv with rfl | ⟨t, ht⟩
  · exact hnull rfl
  · exact hnames t ht

end LogicalType
end TypedParams

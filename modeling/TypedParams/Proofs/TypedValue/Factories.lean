import TypedParams.Proofs.Encoding.Plain
import TypedParams.Proofs.TypedValue.Fields

/-! Typed values made from host values by the built-in encoders. Main statement: they consist of the
literals that their host values have in one scalar type. -/
namespace TypedParams.TypedValue

theorem ne_null_of_hasLiteral {u : ScalarType} {v : Value} {s : String}
    (h : Encoder.HasLiteral u v s) : v.isNull = false := by
  cases h <;> rfl

/-- Scalar types take their literals from the encoders. -/
theorem encodeAs_builtIn_scalar {v : Value} (hv : v.isNull = false) (u : ScalarType) :
    encodeAs .builtIn v (.scalar u) =
      ((Encoder.builtIn u).run v).map fun s => .scalar u (.plain s) := by
  rw [encodeAs_eq_bind, hv, Registry.encode_builtIn_scalar]
  cases (Encoder.builtIn u).run v <;> rfl

theorem encodeAs_builtIn_eq_ok_iff {v : Value} {t : LogicalType} {tv : TypedValue} :
    encodeAs .builtIn v t = .ok tv ↔
      ∃ u s, t = .scalar u ∧ Encoder.HasLiteral u v s ∧ tv = .scalar u (.plain s) := by
  constructor
  · intro h
    have hbind := h
    rw [encodeAs_eq_bind] at hbind
    obtain ⟨literal, hliteral, hcheck⟩ := bind_eq_ok_iff.1 hbind
    obtain ⟨-, u, s, rfl, rfl, -⟩ := Fields.checkScalar_eq_ok_iff.1 hcheck
    have hv : v.isNull = false := by
      by_contra hnull
      rw [if_pos (by simpa using hnull)] at hliteral
      cases hliteral
    rw [encodeAs_builtIn_scalar hv] at h
    obtain ⟨s', hs', rfl⟩ := map_eq_ok_iff.1 h
    exact ⟨u, s', rfl, Encoder.run_builtIn_eq_ok_iff.1 hs', rfl⟩
  · intro h
    obtain ⟨u, s, rfl, hs, rfl⟩ := h
    rw [encodeAs_builtIn_scalar (ne_null_of_hasLiteral hs), hs.run]
    rfl

theorem exists_scalar_of_encodeAs {r : Registry} {v : Value} {t : LogicalType} {tv : TypedValue}
    (h : encodeAs r v t = .ok tv) : ∃ u s, t = .scalar u ∧ tv = .scalar u s := by
  rw [encodeAs_eq_bind] at h
  obtain ⟨literal, -, hcheck⟩ := bind_eq_ok_iff.1 h
  obtain ⟨-, u, s, rfl, -, rfl⟩ := Fields.checkScalar_eq_ok_iff.1 hcheck
  exact ⟨u, s, rfl, rfl⟩

/-- Elements that were encoded in one type are the scalars of it. -/
theorem exists_scalars_of_encoded {r : Registry} {vs : List Value} {u : ScalarType}
    {elements : List TypedValue}
    (h : vs.mapM (fun v => encodeAs r v (.scalar u)) = .ok elements) :
    ∃ items : List Text, elements = items.map (TypedValue.scalar u) := by
  rw [exists_map_iff]
  intro tv htv
  obtain ⟨v, -, hv⟩ := exists_of_mem_right (mapM_eq_ok_iff.1 h) htv
  obtain ⟨u', s, hu, rfl⟩ := exists_scalar_of_encodeAs hv
  cases hu
  exact ⟨s, rfl⟩

/-- The scalars of a type pass the checks of an array of it, and no other elements do. -/
theorem checkArray_typed_eq_ok_iff {elements : List TypedValue} {t : LogicalType}
    {tv : TypedValue} :
    Fields.checkArray .null (elements.map .typed) .array (some t) = .ok tv ↔
      ∃ (u : ScalarType) (items : List Text), t = .scalar u ∧
        elements = items.map (TypedValue.scalar u) ∧ tv = .array u items := by
  have htyped : Function.Injective (List.map Value.typed) :=
    List.map_injective_iff.2 fun _ _ => Value.typed.inj
  rw [Fields.checkArray_eq_ok_iff]
  constructor
  · intro h
    obtain ⟨-, -, u, items, hu, helements, rfl⟩ := h
    have hmap : elements.map Value.typed = (items.map (TypedValue.scalar u)).map .typed :=
      helements.trans List.map_map.symm
    exact ⟨u, items, Option.some.inj hu, htyped hmap, rfl⟩
  · intro h
    obtain ⟨u, items, rfl, rfl, rfl⟩ := h
    exact ⟨rfl, rfl, u, items, rfl, List.map_map, rfl⟩

/-- Typed values whose texts are literals of host values. -/
inductive OfLiterals : TypedValue → Prop
  | scalar {u : ScalarType} {v : Value} {s : String} (h : Encoder.HasLiteral u v s) :
      OfLiterals (.scalar u (.plain s))
  | array {u : ScalarType} {items : List Text}
      (h : ∀ s ∈ items, ∃ v, Encoder.HasLiteral u v s.content) : OfLiterals (.array u items)

theorem ofLiterals_of_scalarOf {v type : Value} {tv : TypedValue}
    (h : scalarOf .builtIn v type = .ok tv) : tv.OfLiterals := by
  rw [scalarOf_eq_bind] at h
  obtain ⟨t, -, hencode⟩ := bind_eq_ok_iff.1 h
  obtain ⟨u, s, -, hs, rfl⟩ := encodeAs_builtIn_eq_ok_iff.1 hencode
  exact .scalar hs

/-- Arrays are made of the items of whatever can be gone through. -/
theorem exists_list_of_arrayOf {r : Registry} {values type : Value} {tv : TypedValue}
    (h : arrayOf r values type = .ok tv) : ∃ vs, arrayOf r (.list vs none) type = .ok tv := by
  unfold arrayOf at h
  split at h
  · cases h
  · cases h
  · cases h
  · cases hitems : values.items? with
    | none =>
      rw [hitems] at h
      cases h
    | some vs =>
      rw [hitems] at h
      exact ⟨vs, h⟩

theorem ofLiterals_of_arrayOf {values type : Value} {tv : TypedValue}
    (h : arrayOf .builtIn values type = .ok tv) : tv.OfLiterals := by
  obtain ⟨vs, hlist⟩ := exists_list_of_arrayOf h
  rw [arrayOf_list_eq_bind] at hlist
  obtain ⟨t, -, hrest⟩ := bind_eq_ok_iff.1 hlist
  obtain ⟨elements, helements, hcheck⟩ := bind_eq_ok_iff.1 hrest
  obtain ⟨u, items, rfl, rfl, rfl⟩ := checkArray_typed_eq_ok_iff.1 hcheck
  refine .array ?_
  intro s hs
  obtain ⟨v, -, hv⟩ := exists_of_mem_right (mapM_eq_ok_iff.1 helements) (List.mem_map_of_mem hs)
  obtain ⟨u', s', hu, hliteral, hsame⟩ := encodeAs_builtIn_eq_ok_iff.1 hv
  cases hu
  cases hsame
  exact ⟨v, hliteral⟩

end TypedParams.TypedValue

import TypedParams.Proofs.Encoding.Inference
import TypedParams.Proofs.TypedValue.Factories

/-! Arrays from host values. Main statement: an array is made element by element, each as the scalar
of the element type, and is refused as its first refused element is. -/
namespace TypedParams

/-- Values that can be gone through, strings and bytes apart. -/
structure Value.HoldsItems (v : Value) (vs : List Value) : Prop where
  items : v.items? = some vs
  not_str : v.kind? ≠ some .str
  not_bytes : v.kind? ≠ some .bytes

namespace TypedValue
variable {r : Registry} {values type : Value} {vs : List Value} {t : LogicalType}

/-- It does not matter what holds the items. -/
theorem arrayOf_eq_list (h : values.HoldsItems vs) :
    arrayOf r values type = arrayOf r (.list vs none) type := by
  obtain ⟨hitems, hstr, hbytes⟩ := h
  unfold arrayOf
  split
  · exact absurd rfl hstr
  · exact absurd rfl hbytes
  · exact absurd rfl hbytes
  · rw [hitems]
    rfl

theorem typeOr_of_standsFor (h : type.StandsFor t) (inferred : Except Error LogicalType) :
    typeOr type inferred = .ok t := by
  unfold typeOr
  rw [h.ne_null]
  exact LogicalType.resolve_eq_ok_iff.2 h

theorem scalarOf_of_standsFor (h : type.StandsFor t) (v : Value) :
    scalarOf r v type = encodeAs r v t := by
  rw [scalarOf_eq_bind, typeOr_of_standsFor h]
  rfl

theorem scalarOf_ofType (r : Registry) (v : Value) (t : LogicalType) :
    scalarOf r v (.ofType t) = encodeAs r v t :=
  scalarOf_of_standsFor (.name (Value.names_ofType t)) v

theorem arrayOf_of_standsFor (h : values.HoldsItems vs) (htype : type.StandsFor t) :
    arrayOf r values type = (vs.mapM fun v => encodeAs r v t).bind fun elements =>
      Fields.checkArray .null (elements.map .typed) .array (some t) := by
  rw [arrayOf_eq_list h, arrayOf_list_eq_bind, typeOr_of_standsFor htype]
  rfl

theorem arrayOf_eq_ok_iff (h : values.HoldsItems vs) (htype : type.StandsFor t) {tv : TypedValue} :
    arrayOf r values type = .ok tv ↔ ∃ (u : ScalarType) (items : List Text), t = .scalar u ∧
      tv = .array u items ∧ vs.mapM (fun v => encodeAs r v t) = .ok (items.map (.scalar u)) := by
  rw [arrayOf_of_standsFor h htype, bind_eq_ok_iff]
  simp only [checkArray_typed_eq_ok_iff]
  constructor
  · intro hx
    obtain ⟨elements, helements, u, items, rfl, rfl, rfl⟩ := hx
    exact ⟨u, items, rfl, rfl, helements⟩
  · intro hx
    obtain ⟨u, items, rfl, rfl, helements⟩ := hx
    exact ⟨_, helements, u, items, rfl, rfl, rfl⟩

theorem exists_arrayOf_iff (h : values.HoldsItems vs) (htype : type.StandsFor t) :
    (∃ tv, arrayOf r values type = .ok tv) ↔
      (∃ u, t = .scalar u) ∧ ∀ v ∈ vs, ∃ tv, encodeAs r v t = .ok tv := by
  simp only [arrayOf_eq_ok_iff h htype, ← exists_mapM_eq_ok_iff]
  constructor
  · intro hx
    obtain ⟨-, u, items, rfl, -, helements⟩ := hx
    exact ⟨⟨u, rfl⟩, _, helements⟩
  · intro hx
    obtain ⟨⟨u, rfl⟩, elements, helements⟩ := hx
    obtain ⟨items, rfl⟩ := exists_scalars_of_encoded helements
    exact ⟨_, u, items, rfl, rfl, helements⟩

/-- No type but the scalar ones has elements, so that a composite type is refused at its first
element, or where there is none in the end. -/
theorem arrayOf_eq_error_iff (h : values.HoldsItems vs) (htype : type.StandsFor t) {e : Error} :
    arrayOf r values type = .error e ↔
      (∃ before v after, vs = before ++ v :: after ∧
        (∀ w ∈ before, ∃ tv, encodeAs r w t = .ok tv) ∧ encodeAs r v t = .error e) ∨
      vs = [] ∧ t.isComposite = true ∧ e = .compositeElements t := by
  rw [arrayOf_of_standsFor h htype, bind_eq_error_iff, mapM_eq_error_iff]
  refine or_congr_right ?_
  constructor
  · intro hx
    obtain ⟨elements, helements, hcheck⟩ := hx
    rcases t.isComposite_or_scalar with hc | ⟨u, rfl⟩
    · cases vs with
      | nil =>
        rw [Fields.checkArray_of_isComposite hc] at hcheck
        cases hcheck
        exact ⟨rfl, hc, rfl⟩
      | cons v vs =>
        -- no element is a scalar of a composite type
        obtain ⟨tv, -, hv⟩ := exists_of_mem_left (mapM_eq_ok_iff.1 helements) List.mem_cons_self
        obtain ⟨u, -, rfl, -⟩ := exists_scalar_of_encodeAs hv
        cases hc
    · obtain ⟨items, hitems⟩ := exists_scalars_of_encoded helements
      rw [checkArray_typed_eq_ok_iff.2 ⟨u, items, rfl, hitems, rfl⟩] at hcheck
      cases hcheck
  · intro hx
    obtain ⟨rfl, hc, rfl⟩ := hx
    exact ⟨[], rfl, Fields.checkArray_of_isComposite hc []⟩

/-! ### Without an element type -/

theorem arrayOf_null_of_nil (h : values.HoldsItems []) :
    arrayOf r values .null = .error .untypedEmptyArray := by
  rw [arrayOf_eq_list h]
  rfl

theorem arrayOf_null_of_cons {v : Value} (h : values.HoldsItems (v :: vs)) (members : List Text) :
    arrayOf r values .null = arrayOf r values (.classRef v.cls members) := by
  rw [arrayOf_eq_list h, arrayOf_eq_list h, arrayOf_list_eq_bind, arrayOf_list_eq_bind]
  rfl

theorem exists_scalarType?_of_arrayOf {c : Class} {members : List Text} {tv : TypedValue}
    (h : values.HoldsItems vs) (harray : arrayOf r values (.classRef c members) = .ok tv) :
    ∃ u, c.scalarType? = some u := by
  rw [arrayOf_eq_list h, arrayOf_list_eq_bind] at harray
  obtain ⟨t, ht, -⟩ := bind_eq_ok_iff.1 harray
  obtain ⟨u, hu, -⟩ := Class.inferType_eq_ok_iff.1 ht
  exact ⟨u, hu⟩

theorem exists_encodeAs_builtIn_iff {k : NativeKind} {u : ScalarType}
    (hk : k.scalarType? = some u) {v : Value} :
    (∃ tv, encodeAs .builtIn v (.scalar u) = .ok tv) ↔ v.kind? = some k ∧ v.FitsInt64 := by
  rw [← Encoder.exists_hasLiteral_iff hk]
  constructor
  · intro h
    obtain ⟨tv, htv⟩ := h
    obtain ⟨u', s, hu, hs, -⟩ := encodeAs_builtIn_eq_ok_iff.1 htv
    cases hu
    exact ⟨s, hs⟩
  · intro h
    obtain ⟨s, hs⟩ := h
    exact ⟨_, encodeAs_builtIn_eq_ok_iff.2 ⟨u, s, rfl, hs, rfl⟩⟩

/-- The class of the first element decides, so that all elements are of its kind. -/
theorem exists_arrayOf_null_iff (h : values.HoldsItems vs) :
    (∃ tv, arrayOf .builtIn values .null = .ok tv) ↔
      vs ≠ [] ∧ ∃ k ∈ [NativeKind.bool, .int, .float, .str],
        ∀ v ∈ vs, v.kind? = some k ∧ v.FitsInt64 := by
  cases vs with
  | nil => simp [arrayOf_null_of_nil h]
  | cons v vs =>
    have hcls := v.scalarType?_cls
    rw [arrayOf_null_of_cons h []]
    constructor
    · intro hx
      obtain ⟨tv, htv⟩ := hx
      obtain ⟨u, hu⟩ := exists_scalarType?_of_arrayOf h htv
      obtain ⟨k, -, hk⟩ := Option.bind_eq_some_iff.1 (hcls.symm.trans hu)
      have helements := ((exists_arrayOf_iff h (.cls [] hu)).1 ⟨tv, htv⟩).2
      simp only [exists_encodeAs_builtIn_iff hk] at helements
      exact ⟨List.cons_ne_nil _ _, k, NativeKind.exists_scalarType?_iff.1 ⟨u, hk⟩, helements⟩
    · intro hx
      obtain ⟨-, k, hmem, helements⟩ := hx
      obtain ⟨u, hk⟩ := NativeKind.exists_scalarType?_iff.2 hmem
      have hu : v.cls.scalarType? = some u := by
        rw [hcls, (helements v List.mem_cons_self).1]
        exact hk
      refine (exists_arrayOf_iff h (.cls [] hu)).2 ⟨⟨u, rfl⟩, ?_⟩
      simp only [exists_encodeAs_builtIn_iff hk]
      exact helements

/-- Arrays are made element by element. Whatever stands for the element type and whatever holds the
items, the outcome is that of making each item a scalar of the type in turn: the scalars in their
places, or else the first refusal; a composite type has no arrays, even empty ones. Where no type is
given, the class of the first item stands for it, and the items that pass are those of one kind that
has a type of its own. -/
theorem arrayOf_elementwise (r : Registry) {values : Value} {vs : List Value}
    (h : values.HoldsItems vs) :
    (∀ {type : Value} {t : LogicalType}, type.StandsFor t →
      ((∃ tv, arrayOf r values type = .ok tv) ↔
        (∃ u, t = .scalar u) ∧ ∀ v ∈ vs, ∃ tv, scalarOf r v type = .ok tv) ∧
      (∀ tv, arrayOf r values type = .ok tv → tv.type = .array ∧ tv.elementType? = some t ∧
        ∃ elements, tv.elements? = some elements ∧
          List.Forall₂ (fun v x => scalarOf r v type = .ok x) vs elements) ∧
      (∀ e, arrayOf r values type = .error e ↔
        (∃ before v after, vs = before ++ v :: after ∧
          (∀ w ∈ before, ∃ tv, scalarOf r w type = .ok tv) ∧ scalarOf r v type = .error e) ∨
        vs = [] ∧ t.isComposite = true ∧ e = .compositeElements t) ∧
      ∀ {type' : Value}, type'.StandsFor t → arrayOf r values type' = arrayOf r values type ∧
        ∀ v, scalarOf r v type' = scalarOf r v type) ∧
    (vs = [] → arrayOf r values .null = .error .untypedEmptyArray) ∧
    (∀ v ∈ vs.head?, ∀ members,
      arrayOf r values .null = arrayOf r values (.classRef v.cls members)) ∧
    ((∃ tv, arrayOf .builtIn values .null = .ok tv) ↔
      vs ≠ [] ∧ ∃ k ∈ [NativeKind.bool, .int, .float, .str],
        ∀ v ∈ vs, v.kind? = some k ∧ v.FitsInt64) := by
  refine ⟨?typed, ?empty, ?inferred, exists_arrayOf_null_iff h⟩
  case typed =>
    intro type t htype
    simp only [scalarOf_of_standsFor htype]
    refine ⟨exists_arrayOf_iff h htype, ?elements, fun e => arrayOf_eq_error_iff h htype, ?spelling⟩
    case elements =>
      intro tv htv
      obtain ⟨u, items, rfl, rfl, helements⟩ := (arrayOf_eq_ok_iff h htype).1 htv
      exact ⟨rfl, rfl, _, rfl, mapM_eq_ok_iff.1 helements⟩
    case spelling =>
      intro type' htype'
      refine ⟨?_, scalarOf_of_standsFor htype'⟩
      rw [arrayOf_of_standsFor h htype', arrayOf_of_standsFor h htype]
  case empty =>
    intro hnil
    subst hnil
    exact arrayOf_null_of_nil h
  case inferred =>
    intro v hv members
    obtain ⟨rest, rfl⟩ := List.head?_eq_some_iff.1 hv
    exact arrayOf_null_of_cons h members

/-- An integer that does not fit is refused behind one that does; a truth value is no integer. -/
theorem arrayOf_elementwise_int64 :
    (∃ e, scalarOf .builtIn (.int (2 ^ 63) none) (.str "INT64") = .error e ∧
      arrayOf .builtIn (.stream [.int 1 none, .int (2 ^ 63) none])
        (.classRef ⟨.builtin "int", [.int]⟩ []) = .error e) ∧
    ¬∃ tv, arrayOf .builtIn (.stream [.int 1 none, .bool true]) .null = .ok tv := by
  have hname : (Value.str "INT64").StandsFor (.scalar .int64) := .name ⟨_, rfl, rfl⟩
  have hclass : (Value.classRef ⟨.builtin "int", [.int]⟩ []).StandsFor (.scalar .int64) :=
    .cls [] rfl
  constructor
  · have h : (Value.stream [.int 1 none, .int (2 ^ 63) none]).HoldsItems
        [.int 1 none, .int (2 ^ 63) none] := ⟨rfl, nofun, nofun⟩
    obtain ⟨-, -, herror, hspelling⟩ := (arrayOf_elementwise .builtIn h).1 hname
    refine ⟨_, rfl, (hspelling hclass).1.trans ((herror _).2 (.inl ?_))⟩
    exact ⟨[.int 1 none], _, [], rfl, List.forall_mem_singleton.2 ⟨_, rfl⟩, rfl⟩
  · have h : (Value.stream [.int 1 none, .bool true]).HoldsItems [.int 1 none, .bool true] :=
      ⟨rfl, nofun, nofun⟩
    intro hx
    obtain ⟨-, k, -, hkind⟩ := (arrayOf_elementwise .builtIn h).2.2.2.1 hx
    have hint : some NativeKind.int = some k := (hkind (.int 1 none) (by simp)).1
    have hbool : some NativeKind.bool = some k := (hkind (.bool true) (by simp)).1
    cases hint.trans hbool.symm

end TypedValue
end TypedParams

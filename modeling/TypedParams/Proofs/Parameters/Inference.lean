import TypedParams.Proofs.Parameters.Entries
import TypedParams.Proofs.TypedValue.Arrays

/-! Parameters from host values. Main statement: types by class and encoders by kind sort the host
values alike, so that parameters are those of the typed values made with the inferred types written
out. -/
namespace TypedParams

namespace TypedValue
variable {r : Registry} {v : Value}

theorem scalarOf_null (r : Registry) (v : Value) :
    scalarOf r v .null = v.cls.inferType.bind (encodeAs r v) := scalarOf_eq_bind r v .null

theorem encodeAs_builtIn_eq_error_iff {k : NativeKind} {u : ScalarType} {e : Error}
    (hk : k.scalarType? = some u) (hkind : v.kind? = some k) :
    encodeAs .builtIn v (.scalar u) = .error e ↔
      ¬v.FitsInt64 ∧
        e = v.showing (.intOutOfRange · Encoder.leastInt64 Encoder.greatestInt64) := by
  have hnull : v.isNull = false := by
    cases v with
    | null => cases hkind
    | _ => rfl
  rw [encodeAs_builtIn_scalar hnull, map_eq_error_iff]
  exact Encoder.run_builtIn_eq_error_iff hk hkind

theorem exists_scalarOf_null_iff :
    (∃ tv, scalarOf .builtIn v .null = .ok tv) ↔ v.HasMappedKind ∧ v.FitsInt64 := by
  rw [scalarOf_null]
  simp only [bind_eq_ok_iff, Value.inferType_cls_eq_ok_iff]
  constructor
  · intro h
    obtain ⟨tv, t, ⟨k, u, hkind, hk, rfl⟩, htv⟩ := h
    have hfits := ((exists_encodeAs_builtIn_iff hk).1 ⟨tv, htv⟩).2
    exact ⟨⟨k, NativeKind.exists_scalarType?_iff.1 ⟨u, hk⟩, hkind⟩, hfits⟩
  · intro h
    obtain ⟨⟨k, hmem, hkind⟩, hfits⟩ := h
    obtain ⟨u, hk⟩ := NativeKind.exists_scalarType?_iff.2 hmem
    obtain ⟨tv, htv⟩ := (exists_encodeAs_builtIn_iff hk).2 ⟨hkind, hfits⟩
    exact ⟨tv, .scalar u, ⟨k, u, hkind, hk, rfl⟩, htv⟩

/-- Without a type a scalar is refused for its class, or as an integer that is too wide. -/
theorem scalarOf_null_eq_error_iff {e : Error} :
    scalarOf .builtIn v .null = .error e ↔
      ¬v.HasMappedKind ∧ e = .unsupportedClass v.cls.name.qualified ∨
      ¬v.FitsInt64 ∧
        e = v.showing (.intOutOfRange · Encoder.leastInt64 Encoder.greatestInt64) := by
  rw [scalarOf_null, bind_eq_error_iff]
  apply or_congr
  · rw [← Value.exists_inferType_cls_iff]
    cases hclass : v.cls.inferType with
    | ok t => simp
    | error e' =>
      have he' : e' = .unsupportedClass v.cls.name.qualified := Class.error_of_inferType hclass
      simp [he', eq_comm]
  · constructor
    · intro h
      obtain ⟨t, ht, he⟩ := h
      obtain ⟨k, u, hkind, hk, rfl⟩ := Value.inferType_cls_eq_ok_iff.1 ht
      exact (encodeAs_builtIn_eq_error_iff hk hkind).1 he
    · intro h
      cases v with
      | int n g =>
        have hk : NativeKind.int.scalarType? = some .int64 := rfl
        exact ⟨.scalar .int64, rfl, (encodeAs_builtIn_eq_error_iff hk rfl).2 h⟩
      | _ => exact absurd nofun h.1

/-! ### Types written out -/

/-- A typed value as it is, anything else made with the type that is inferred from its class, or
from that of its first element. -/
def explicit (r : Registry) : Value → Except Error TypedValue
  | .typed tv => .ok tv
  | .list vs g => (firstType vs).bind fun t => arrayOf r (.list vs g) (.ofType t)
  | .tuple vs g => (firstType vs).bind fun t => arrayOf r (.tuple vs g) (.ofType t)
  | v => v.cls.inferType.bind fun t => scalarOf r v (.ofType t)

theorem arrayOf_null_eq_bind {values : Value} {vs : List Value} (h : values.HoldsItems vs) :
    arrayOf r values .null = (firstType vs).bind fun t => arrayOf r values (.ofType t) := by
  have htype : ∀ t, arrayOf r values (.ofType t) =
      (vs.mapM fun v => encodeAs r v t).bind fun elements =>
        Fields.checkArray .null (elements.map .typed) .array (some t) :=
    fun t => arrayOf_of_standsFor h (.name (Value.names_ofType t))
  rw [arrayOf_eq_list h, arrayOf_list_eq_bind]
  simp only [htype]
  rfl

theorem scalarOf_null_eq_bind :
    scalarOf r v .null = v.cls.inferType.bind fun t => scalarOf r v (.ofType t) := by
  rw [scalarOf_null]
  simp only [scalarOf_ofType]

theorem ofValue_eq_explicit (r : Registry) (v : Value) : ofValue r v = explicit r v := by
  cases v with
  | typed tv => rfl
  | list vs g =>
    have hitems : (Value.list vs g).HoldsItems vs := ⟨rfl, nofun, nofun⟩
    exact arrayOf_null_eq_bind hitems
  | tuple vs g =>
    have hitems : (Value.tuple vs g).HoldsItems vs := ⟨rfl, nofun, nofun⟩
    exact arrayOf_null_eq_bind hitems
  | _ => exact scalarOf_null_eq_bind

end TypedValue

namespace Parameters

/-- The entry with its value typed, the types written out. -/
def explicitEntry (r : Registry) (e : Value × Value) : Except Error (Value × Value) :=
  (TypedValue.explicit r e.2).map fun tv => (e.1, .typed tv)

/-- A name that parameters may have. -/
def IsName (v : Value) : Prop := ∃ s, v = .text s ∧ Text.isIdentifier s.content = true

theorem exists_add_of_isName {name : Value} (h : IsName name) (p : Parameters) (tv : TypedValue) :
    ∃ q, p.add name tv = .ok q := by
  obtain ⟨s, rfl, hs⟩ := h
  exact ⟨p.insert s tv hs, dif_pos hs⟩

theorem addAll_cons (r : Registry) (p : Parameters) (e : Value × Value)
    (es : List (Value × Value)) :
    addAll r p (e :: es) = (TypedValue.ofValue r e.2).bind fun tv =>
      (p.add e.1 tv).bind fun q => addAll r q es := rfl

/-- No name is refused, so that it does not matter whether all values are typed before the first
name is looked at. -/
theorem addAll_eq_bind {r : Registry} {p : Parameters} {es : List (Value × Value)}
    (h : ∀ e ∈ es, IsName e.1) :
    addAll r p es = (es.mapM (explicitEntry r)).bind (addAll r p) := by
  induction es generalizing p with
  | nil => rfl
  | cons e es ih =>
    obtain ⟨hname, hnames⟩ := List.forall_mem_cons.1 h
    have hstep : ((e :: es).mapM (explicitEntry r)).bind (addAll r p) =
        (explicitEntry r e).bind fun e' => (es.mapM (explicitEntry r)).bind fun es' =>
          addAll r p (e' :: es') := by
      rw [List.mapM_cons]
      cases explicitEntry r e with
      | error err => rfl
      | ok e' => cases es.mapM (explicitEntry r) <;> rfl
    rw [hstep, addAll_cons, TypedValue.ofValue_eq_explicit, explicitEntry]
    cases TypedValue.explicit r e.2 with
    | error err => rfl
    | ok tv =>
      -- the typed value is passed as it is, so both sides go on with the same parameters
      obtain ⟨q, hq⟩ := exists_add_of_isName hname p tv
      have hfirst : ∀ es', addAll r p ((e.1, .typed tv) :: es') = addAll r q es' := by
        intro es'
        have hadd : addAll r p ((e.1, .typed tv) :: es') =
            (p.add e.1 tv).bind fun q => addAll r q es' := rfl
        rw [hadd, hq]
        rfl
      change (p.add e.1 tv).bind (fun q => addAll r q es) =
        (es.mapM (explicitEntry r)).bind fun es' => addAll r p ((e.1, .typed tv) :: es')
      simp only [hfirst]
      rw [hq]
      exact ih hnames

/-- The class of a host value has a type exactly when its kind has one. The encoder of that type
takes the value then, an integer that is too wide excepted, so that scalars without a type are
refused for nothing else; an integer too long to be shown is refused in other words. Under names
that are identifiers the parameters of host values are those of the typed values with the inferred
types written out, whatever the encoders in force, refusals included. -/
theorem ofValue_infers (v : Value) (r : Registry) :
    (∀ members : List Text,
      ((∃ t, LogicalType.infer (.classRef v.cls members) = .ok t) ↔ v.HasMappedKind) ∧
      ∀ t, LogicalType.infer (.classRef v.cls members) = .ok t →
        ∃ u, t = .scalar u ∧ ((∃ s, (Encoder.builtIn u).run v = .ok s) ↔ v.FitsInt64)) ∧
    ((∃ tv, TypedValue.scalarOf .builtIn v .null = .ok tv) ↔ v.HasMappedKind ∧ v.FitsInt64) ∧
    (∀ e, TypedValue.scalarOf .builtIn v .null = .error e ↔
      ¬v.HasMappedKind ∧ e = .unsupportedClass v.cls.name.qualified ∨
      ¬v.FitsInt64 ∧
        (v.isShowable = true ∧
            e = .intOutOfRange v.shown Encoder.leastInt64 Encoder.greatestInt64 ∨
          v.isShowable = false ∧ e = .unwritableNumber)) ∧
    ∀ (given : Value) (es : List (Value × Value)), given.entries? = some es →
      (∀ e ∈ es, IsName e.1) →
      ofValue r given = (es.mapM (explicitEntry r)).bind fun es' => ofValue r (.mapping es') := by
  refine ⟨?infers, TypedValue.exists_scalarOf_null_iff, ?refuses, ?agrees⟩
  case infers =>
    intro members
    refine ⟨Value.exists_inferType_cls_iff, ?_⟩
    intro t ht
    obtain ⟨k, u, hkind, hk, rfl⟩ := Value.inferType_cls_eq_ok_iff.1 ht
    refine ⟨u, rfl, ?_⟩
    simp only [Encoder.run_builtIn_eq_ok_iff, Encoder.exists_hasLiteral_iff hk]
    exact and_iff_right hkind
  case refuses =>
    intro e
    rw [TypedValue.scalarOf_null_eq_error_iff, Value.eq_showing_iff]
  case agrees =>
    intro given es hes hnames
    have hmapping : ∀ es', ofValue r (.mapping es') = addAll r .empty es' :=
      fun es' => ofValue_of_entries? rfl
    rw [ofValue_of_entries? hes, ofEntries, addAll_eq_bind hnames]
    simp only [hmapping]

/-- An integer of one digit more than can be written is not refused as out of range. -/
theorem scalarOf_longest :
    (Value.int (10 ^ Text.digitLimit) none).HasMappedKind ∧
      ∃ e, TypedValue.scalarOf .builtIn (.int (10 ^ Text.digitLimit) none) .null = .error e ∧
        e.kind ≠ .unsupportedType ∧ e.kind ≠ .typeMismatch := by
  have hwide : ¬(Value.int (10 ^ Text.digitLimit) none).FitsInt64 := by
    intro hfits
    have hwritable := hfits.isWritable
    rw [Text.isWritable_pow_digitLimit] at hwritable
    cases hwritable
  have hlong : (Value.int (10 ^ Text.digitLimit) none).isShowable = false := by
    rw [Value.isShowable_int, Text.isWritable_pow_digitLimit]
  refine ⟨⟨.int, by simp, rfl⟩, .unwritableNumber, ?_, by decide, by decide⟩
  rw [TypedValue.scalarOf_null_eq_error_iff, Value.eq_showing_iff]
  exact .inr ⟨hwide, .inr ⟨hlong, rfl⟩⟩

/-- A truth value, integers and a typed value, and the same with each of them typed. -/
theorem ofValue_infers_mixed :
    ofValue .builtIn (.mapping [(.str "flag", .bool true),
        (.str "ids", .tuple [.int 1 none, .int 2 none] none),
        (.str "ds", .typed (.scalar .date (.plain "2014-08-19")))]) =
      ofValue .builtIn (.mapping [(.str "flag", .typed (.scalar .bool (.plain "true"))),
        (.str "ids", .typed (.array .int64 [.plain "1", .plain "2"])),
        (.str "ds", .typed (.scalar .date (.plain "2014-08-19")))]) := by
  have hname : ∀ s ∈ ["flag", "ids", "ds"], Text.isIdentifier s = true := by decide
  refine ((ofValue_infers (.bool true) .builtIn).2.2.2 _ _ rfl ?_).trans rfl
  intro e he
  simp only [List.mem_cons, List.not_mem_nil, or_false] at he
  rcases he with rfl | rfl | rfl
  · exact ⟨_, rfl, hname "flag" (by simp)⟩
  · exact ⟨_, rfl, hname "ids" (by simp)⟩
  · exact ⟨_, rfl, hname "ds" (by simp)⟩

end Parameters
end TypedParams

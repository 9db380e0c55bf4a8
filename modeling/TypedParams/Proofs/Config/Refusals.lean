import TypedParams.Proofs.Config.Agreement
import TypedParams.Proofs.TypedValue.Factories

/-! How configurations are refused. Main statement: a validated one fails to build only for a
literal that does not fit its type, an untyped byte string, an integer too long to be shown, or a
name. -/
namespace TypedParams

/-! ### Literals under a type -/

namespace Value

theorem IsLiteral.isNull_eq {v : Value} (h : v.IsLiteral) : v.isNull = false := by
  cases h <;> rfl

theorem IsLiteral.resolve {v : Value} (h : v.IsLiteral) (vars : Template.Bindings) :
    (Template.resolve vars v).IsLiteral := by
  cases h with
  | str s =>
    rw [Value.str, Template.resolve, Template.substituteText_plain]
    exact .str _
  | bool b => exact .bool b
  | int n => exact .int n
  | float x => exact .float x
  | bytes bs g => exact .bytes bs g

/-- No substitution makes a byte string. -/
theorem IsLiteral.eq_bytes_of_resolve {v : Value} (h : v.IsLiteral) {vars : Template.Bindings}
    {bs : List UInt8} {g : Option Guise} (hv : Template.resolve vars v = .bytes bs g) :
    v = .bytes bs g := by
  cases h <;> cases hv
  rfl

/-- No substitution makes an integer. -/
theorem IsLiteral.isTooLong_of_resolve {v : Value} (h : v.IsLiteral) {vars : Template.Bindings}
    (hlong : (Template.resolve vars v).IsTooLong) : v.IsTooLong := by
  obtain ⟨n, g, hv, hn⟩ := hlong
  cases h <;> cases hv
  exact ⟨n, none, rfl, hn⟩

end Value

/-- Classes of literals stand for a type that is not temporal, those of byte strings for none. -/
theorem Class.inferType_of_isLiteral {v : Value} (h : v.IsLiteral) :
    (∃ u : ScalarType, v.cls.inferType = .ok (.scalar u) ∧ ∀ w : TemporalType, u ≠ w.scalar) ∨
      (∃ bs g, v = .bytes bs g) ∧ ∃ name, v.cls.inferType = .error (.unsupportedClass name) := by
  cases h with
  | bool b => exact .inl ⟨.bool, rfl, by rintro ⟨⟩ <;> decide⟩
  | int n => exact .inl ⟨.int64, rfl, by rintro ⟨⟩ <;> decide⟩
  | float x => exact .inl ⟨.float64, rfl, by rintro ⟨⟩ <;> decide⟩
  | str s => exact .inl ⟨.string, rfl, by rintro ⟨⟩ <;> decide⟩
  | bytes bs g => exact .inr ⟨⟨bs, g, rfl⟩, _, rfl⟩

namespace TypedValue

theorem typeOr_optional (o : Option LogicalType) (inferred : Except Error LogicalType) :
    typeOr (Value.optional .ofType o) inferred = o.elim inferred .ok := by
  cases o with
  | none => rfl
  | some t => exact LogicalType.ofValue_eq_ok_iff.2 (Value.names_ofType t)

end TypedValue

namespace Declaration
open Parameters (keys)

def type? : Declaration → Option LogicalType
  | .scalar _ t _ | .array _ t _ => t

/-- The ways in which the literals of a declaration are refused. -/
inductive RefusedAs (d : Declaration) : ErrorKind → Prop
  | mismatch : RefusedAs d .typeMismatch
  | malformed {u : TemporalType} (h : d.type? = some (.scalar u.scalar)) :
      RefusedAs d .malformedLiteral
  | untyped {bs : List UInt8} {g : Option Guise} {rest : List Value} (htype : d.type? = none)
      (hfirst : d.literals = .bytes bs g :: rest) : RefusedAs d .unsupportedType
  /-- The refusal would have to show an integer of too many digits. -/
  | unshown {v : Value} (hv : v ∈ d.literals) (h : v.IsTooLong) : RefusedAs d .wrongValue

/-- What the validation of an entry sees to. -/
structure IsSound (d : Declaration) : Prop where
  scalars : ∀ t, d.type? = some t → ∃ u, t = .scalar u
  literals : ∀ v ∈ d.literals, v.IsLiteral
  nonempty : d.type? = none → d.literals ≠ []

/-- The type in which the literals are encoded: the declared one, or that of the first of them. -/
def encodingType (vars : Template.Bindings) (d : Declaration) : Except Error LogicalType :=
  TypedValue.typeOr (Value.optional .ofType d.type?)
    (TypedValue.firstType (d.literals.map (Template.resolve vars)))

theorem typedValue_scalar_eq_bind (r : Registry) (vars : Template.Bindings) (n : String)
    (o : Option LogicalType) (v : Value) :
    typedValue r vars (.scalar n o v) =
      (encodingType vars (.scalar n o v)).bind
        (TypedValue.encodeAs r (Template.resolve vars v)) := by
  rw [typedValue, TypedValue.scalarOf_eq_bind]
  rfl

theorem typedValue_array_eq_bind (r : Registry) (vars : Template.Bindings) (n : String)
    (o : Option LogicalType) (vs : List Value) :
    typedValue r vars (.array n o vs) =
      (encodingType vars (.array n o vs)).bind fun t =>
        ((vs.map (Template.resolve vars)).mapM fun v => TypedValue.encodeAs r v t).bind fun tvs =>
          Fields.checkArray .null (tvs.map .typed) .array (some t) := by
  rw [typedValue, Template.resolveAll_eq_map, TypedValue.arrayOf_list_eq_bind]
  rfl

/-- The type is a scalar one, temporal only where it is declared so; only an untyped byte string
leaves a declaration without a type. -/
theorem encodingType_cases {d : Declaration} (hd : d.IsSound) (vars : Template.Bindings) :
    (∃ u, encodingType vars d = .ok (.scalar u) ∧
      ∀ w : TemporalType, u = w.scalar → d.type? = some (.scalar w.scalar)) ∨
    ∃ e, encodingType vars d = .error e ∧ d.RefusedAs e.kind := by
  rw [encodingType, TypedValue.typeOr_optional]
  cases htype : d.type? with
  | some t =>
    obtain ⟨u, rfl⟩ := hd.scalars t htype
    refine .inl ⟨u, rfl, ?_⟩
    rintro w rfl
    rfl
  | none =>
    cases hliterals : d.literals with
    | nil => exact absurd hliterals (hd.nonempty htype)
    | cons v vs =>
      have hv : v.IsLiteral := hd.literals v (by simp [hliterals])
      change (∃ u, (Template.resolve vars v).cls.inferType = .ok (.scalar u) ∧ _) ∨
        ∃ e, (Template.resolve vars v).cls.inferType = .error e ∧ _
      rcases Class.inferType_of_isLiteral (hv.resolve vars) with
        ⟨u, hu, htemporal⟩ | ⟨⟨bs, g, hbs⟩, name, hname⟩
      · refine .inl ⟨u, hu, ?_⟩
        intro w hw
        exact absurd hw (htemporal w)
      · rw [hv.eq_bytes_of_resolve hbs] at hliterals
        exact .inr ⟨_, hname, .untyped htype hliterals⟩

theorem refusedAs_of_encodeAs {d : Declaration} {v : Value} (hv : v.IsLiteral)
    (hmem : v ∈ d.literals) {vars : Template.Bindings} {u : ScalarType}
    (hu : ∀ w : TemporalType, u = w.scalar → d.type? = some (.scalar w.scalar)) {e : Error}
    (h : TypedValue.encodeAs .builtIn (Template.resolve vars v) (.scalar u) = .error e) :
    d.RefusedAs e.kind := by
  rw [TypedValue.encodeAs_builtIn_scalar (hv.resolve vars).isNull_eq, map_eq_error_iff] at h
  rcases Encoder.refusedFor_of_run h with ⟨hkind, w, -, hw, -⟩ | ⟨hkind, -⟩ | ⟨rfl, hlong⟩
  · rw [hkind]
    exact .malformed (hu w hw)
  · rw [hkind]
    exact .mismatch
  · exact .unshown hmem (hv.isTooLong_of_resolve hlong)

/-- A declaration that is refused has literals that do not fit its type, have none, or are too long.
-/
theorem refusedAs_of_typedValue {d : Declaration} (hd : d.IsSound) {vars : Template.Bindings}
    {e : Error} (h : typedValue .builtIn vars d = .error e) : d.RefusedAs e.kind := by
  rcases encodingType_cases hd vars with ⟨u, htype, hu⟩ | ⟨e', htype, he'⟩
  · cases d with
    | scalar n o v =>
      rw [typedValue_scalar_eq_bind, htype] at h
      exact refusedAs_of_encodeAs (hd.literals v List.mem_cons_self) List.mem_cons_self hu h
    | array n o vs =>
      rw [typedValue_array_eq_bind, htype] at h
      change Except.bind (List.mapM _ _) _ = _ at h
      rcases bind_eq_error_iff.1 h with helements | ⟨elements, helements, hcheck⟩
      · obtain ⟨v', hv', hencode⟩ := exists_of_mapM_eq_error helements
        obtain ⟨v, hv, rfl⟩ := List.mem_map.1 hv'
        have hmem : v ∈ (Declaration.array n o vs).literals := hv
        exact refusedAs_of_encodeAs (hd.literals v hv) hmem hu hencode
      · obtain ⟨items, hitems⟩ := TypedValue.exists_scalars_of_encoded helements
        rw [TypedValue.checkArray_typed_eq_ok_iff.2 ⟨u, items, rfl, hitems, rfl⟩] at hcheck
        cases hcheck
  · have hrefused : typedValue .builtIn vars d = .error e' := by
      cases d with
      | scalar n o v =>
        rw [typedValue_scalar_eq_bind, htype]
        rfl
      | array n o vs =>
        rw [typedValue_array_eq_bind, htype]
        rfl
    rw [hrefused, Except.error.injEq] at h
    rwa [← h]

theorem RefusedAs.ne_invalidParameter {d : Declaration} {k : ErrorKind} (h : d.RefusedAs k) :
    k ≠ .invalidParameter := by
  rintro rfl
  cases h

/-! ### Validated declarations -/

/-- The declarations that entries are read as, each by the rules of one kind. -/
def IsValidated (d : Declaration) : Prop := ∃ es, readScalar es = .ok d ∨ readArray es = .ok d

theorem isValidated_of_readConfig {v : Value} {ds : List Declaration} (h : readConfig v = .ok ds) :
    ∀ d ∈ ds, d.IsValidated := by
  intro d hd
  obtain ⟨item, -, hread⟩ := exists_of_mem_right (entries_of_readConfig h).1 hd
  obtain ⟨es, -, hes⟩ := entries_of_read hread
  exact ⟨es, hes⟩

theorem scalar_of_not_isComposite {o : Option LogicalType} (h : ¬isComposite o = true) :
    ∀ t, o = some t → ∃ u, t = .scalar u := by
  rintro t rfl
  exact t.isComposite_or_scalar.resolve_left h

theorem IsValidated.isLiteral {d : Declaration} (h : d.IsValidated) :
    ∀ v ∈ d.literals, v.IsLiteral := by
  obtain ⟨es, hread⟩ := h
  have hes : (Value.mapping es).entries? = some es := rfl
  rcases hread with hscalar | harray
  · exact (readAs_of_readScalar hes hscalar).isLiteral
  · exact (readAs_of_readArray hes harray).isLiteral

/-- The rules of both kinds keep composite types out, and arrays of no known type. -/
theorem IsValidated.isSound {d : Declaration} (h : d.IsValidated) : d.IsSound := by
  have hliteral := h.isLiteral
  obtain ⟨es, hscalar | harray⟩ := h
  · obtain ⟨hdeclared, hrule⟩ := Checked.ensure_eq_ok_iff.1 hscalar
    obtain ⟨⟨n, o, v⟩, -, rfl⟩ := map_eq_ok_iff.1 hdeclared
    simp only [scalarRule] at hrule
    split_ifs at hrule with hcomposite
    exact ⟨scalar_of_not_isComposite hcomposite, hliteral, fun _ => List.cons_ne_nil _ _⟩
  · obtain ⟨hdeclared, hrule⟩ := Checked.ensure_eq_ok_iff.1 harray
    obtain ⟨⟨n, o, vs⟩, -, rfl⟩ := map_eq_ok_iff.1 hdeclared
    simp only [arrayRule] at hrule
    split_ifs at hrule with hcomposite hempty
    refine ⟨scalar_of_not_isComposite hcomposite, hliteral, ?_⟩
    rintro rfl rfl
    exact hempty rfl

/-! ### Building -/

/-- Typed values under the declared names are refused for a name that is no identifier. -/
theorem ofEntries_of_named {make : Declaration → Except Error TypedValue} {r : Registry}
    {ds : List Declaration} {es : List (Value × Value)} (h : ds.mapM (named make) = .ok es) :
    (∀ e, Parameters.ofEntries r (Value.putAll es []) = .error e →
      ∃ d ∈ ds, Text.isIdentifier d.name = false ∧ e = .badName (Value.str d.name).quoted) ∧
    ∀ p, Parameters.ofEntries r (Value.putAll es []) = .ok p →
      ∀ d ∈ ds, Text.isIdentifier d.name = true := by
  obtain ⟨new, rfl, hnew⟩ := typedEntries_of_mapM h
  rw [Parameters.putAll_typedEntry_nil]
  constructor
  · intro e he
    obtain ⟨x, hx, hid, rfl⟩ := Parameters.addAll_typedEntry_eq_error he
    have hname : x.1 ∈ new.map (·.1) := (Parameters.mem_names_upsertAll hx).resolve_right (by simp)
    rw [hnew] at hname
    obtain ⟨d, hd, hdx⟩ := List.mem_map.1 hname
    rw [← hdx] at hid ⊢
    exact ⟨d, hd, hid, rfl⟩
  · intro p hp d hd
    obtain ⟨hid, -⟩ := Parameters.addAll_typedEntry_eq_ok_iff.1 hp
    have hname : d.name ∈ keys (Parameters.upsertAll new []) := by
      rw [Parameters.keys_upsertAll_nil, keys_of_map_eq hnew, List.mem_eraseDups]
      exact List.mem_map_of_mem hd
    obtain ⟨x, hx, hxd⟩ := List.mem_map.1 hname
    rw [← hxd]
    exact hid x hx

/-- The variables of a run are defaults with the given ones put over them. -/
theorem exists_vars (defaults : Template.Bindings) {run : Value}
    (hrun : run = .null ∨ ∃ es, run = .mapping es) :
    ∃ vars, defaults.overriddenBy run = .ok vars := by
  rcases hrun with rfl | ⟨_ | ⟨e, es⟩, rfl⟩
  · exact ⟨_, rfl⟩
  · exact ⟨_, rfl⟩
  · exact ⟨_, rfl⟩

theorem refusals_of_build {vars : Template.Bindings} {ds : List Declaration}
    (hds : ∀ d ∈ ds, d.IsSound) {e : Error} (h : build .builtIn vars ds = .error e) :
    (∃ d ∈ ds, typedValue .builtIn vars d = .error e ∧ d.RefusedAs e.kind) ∨
      (∀ d ∈ ds, ∃ tv, typedValue .builtIn vars d = .ok tv) ∧
        ∃ d ∈ ds, Text.isIdentifier d.name = false ∧ e = .badName (Value.str d.name).quoted := by
  rw [build_eq_bind] at h
  rcases bind_eq_error_iff.1 h with hencode | ⟨es, hes, hentries⟩
  · left
    obtain ⟨d, hd, hnamed⟩ := exists_of_mapM_eq_error hencode
    have he : typedValue .builtIn vars d = .error e := map_eq_error_iff.1 hnamed
    exact ⟨d, hd, he, refusedAs_of_typedValue (hds d hd) he⟩
  · right
    refine ⟨?_, (ofEntries_of_named hes).1 e hentries⟩
    intro d hd
    obtain ⟨x, -, hx⟩ := exists_of_mem_left (mapM_eq_ok_iff.1 hes) hd
    obtain ⟨tv, htv, -⟩ := map_eq_ok_iff.1 hx
    exact ⟨tv, htv⟩

/-- A validated configuration, or a list of validated entries, fails to build in four ways: with a
mismatch, with a malformed literal of an entry that declares a temporal type, with a byte string
that nothing gives a type to, or with a name; an integer too long to be shown is refused in a fifth.
A name is refused exactly when all entries encode and some name is no identifier. No type is
unknown, no empty array untyped, no value missing. -/
theorem buildOver_refuses_foreseen {defaults : Template.Bindings} {run : Value}
    {ds : List Declaration} (hds : (∃ v, readConfig v = .ok ds) ∨ ∀ d ∈ ds, d.IsValidated)
    (hrun : run = .null ∨ ∃ es, run = .mapping es) :
    ∃ vars, defaults.overriddenBy run = .ok vars ∧
      (∀ e, buildOver .builtIn defaults run ds = .error e →
        ((∃ d ∈ ds, typedValue .builtIn vars d = .error e ∧ d.RefusedAs e.kind) ∨
          ∃ d ∈ ds, Text.isIdentifier d.name = false ∧ e = .badName (Value.str d.name).quoted) ∧
        e.kind ≠ .unknownType ∧ e ≠ .untypedEmptyArray ∧ e ≠ .valueNotSet) ∧
      ((∃ e, buildOver .builtIn defaults run ds = .error e ∧ e.kind = .invalidParameter) ↔
        (∀ d ∈ ds, ∃ tv, typedValue .builtIn vars d = .ok tv) ∧
          ∃ d ∈ ds, Text.isIdentifier d.name = false) := by
  have hsound : ∀ d ∈ ds, d.IsSound := by
    intro d hd
    rcases hds with ⟨v, hv⟩ | hvalidated
    · exact (isValidated_of_readConfig hv d hd).isSound
    · exact (hvalidated d hd).isSound
  obtain ⟨vars, hvars⟩ := exists_vars defaults hrun
  have hbuild : buildOver .builtIn defaults run ds = build .builtIn vars ds := by
    rw [buildOver, hvars]
    rfl
  rw [hbuild]
  refine ⟨vars, hvars, ?_, ?_, ?_⟩
  · intro e h
    rcases refusals_of_build hsound h with ⟨d, hd, htyped, hrefused⟩ | ⟨-, d, hd, hid, rfl⟩
    · refine ⟨.inl ⟨d, hd, htyped, hrefused⟩, ?_, ?_, ?_⟩
      · intro hkind
        rw [hkind] at hrefused
        cases hrefused
      · rintro rfl
        exact hrefused.ne_invalidParameter rfl
      · rintro rfl
        exact hrefused.ne_invalidParameter rfl
    · exact ⟨.inr ⟨d, hd, hid, rfl⟩, by simp [Error.kind], by simp, by simp⟩
  · intro h
    obtain ⟨e, he, hkind⟩ := h
    rcases refusals_of_build hsound he with ⟨d, hd, -, hrefused⟩ | ⟨hencode, d, hd, hid, -⟩
    · exact absurd hkind hrefused.ne_invalidParameter
    · exact ⟨hencode, d, hd, hid⟩
  · intro h
    obtain ⟨hencode, d, hd, hid⟩ := h
    cases hresult : build .builtIn vars ds with
    | ok p =>
      obtain ⟨es, hes, hentries⟩ := bind_eq_ok_iff.1 hresult
      rw [(ofEntries_of_named hes).2 p hentries d hd] at hid
      cases hid
    | error e =>
      refine ⟨e, rfl, ?_⟩
      rcases refusals_of_build hsound hresult with ⟨d', hd', htyped, -⟩ | ⟨-, -, -, -, rfl⟩
      · obtain ⟨tv, htv⟩ := hencode d' hd'
        rw [htv] at htyped
        cases htyped
      · rfl

/-- A day that a run fills in, and a name with a hyphen. -/
def hyphenated : Value :=
  .mapping [(.str "parameters", .list
    [.mapping [(.str "kind", .str "scalar"), (.str "name", .str "day"), (.str "type", .str "DATE"),
        (.str "value", .str "\x7b\x7bday\x7d\x7d")],
      .mapping [(.str "kind", .str "array"), (.str "name", .str "user-ids"),
        (.str "values", .list [.int 7 none] none)]] none)]

def hyphenatedRead : List Declaration :=
  [.scalar "day" (some (.scalar .date)) (.str "\x7b\x7bday\x7d\x7d"),
    .array "user-ids" none [.int 7 none]]

theorem buildOver_refuses_hyphenated :
    readConfig hyphenated = .ok hyphenatedRead ∧
      ∃ e, buildOver .builtIn [] (.mapping [(.str "day", .str "2024-01-31")]) hyphenatedRead =
        .error e ∧ e.kind = .invalidParameter := by
  have hread : readConfig hyphenated = .ok hyphenatedRead := rfl
  have hnames : ∃ d ∈ hyphenatedRead, Text.isIdentifier d.name = false := by decide
  have hencode : ∀ d ∈ hyphenatedRead,
      (typedValue .builtIn [(.str "day", .str "2024-01-31")] d).isOk = true := by decide +kernel
  obtain ⟨vars, hvars, -, hrefused⟩ :=
    @buildOver_refuses_foreseen [] (.mapping [(.str "day", .str "2024-01-31")]) _
      (.inl ⟨_, hread⟩) (.inr ⟨_, rfl⟩)
  cases hvars
  refine ⟨hread, hrefused.2 ⟨?_, hnames⟩⟩
  intro d hd
  have hok := hencode d hd
  cases htyped : typedValue .builtIn [(.str "day", .str "2024-01-31")] d with
  | ok tv => exact ⟨tv, htyped⟩
  | error e =>
    rw [htyped] at hok
    cases hok

end Declaration
end TypedParams

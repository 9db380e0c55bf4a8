import TypedParams.Proofs.Text.Decimal
import TypedParams.Proofs.Token
import TypedParams.Proofs.TypedValue.Fields

/-! Construction of typed values. Main statement: fields make a value exactly when they describe a
scalar or a flat array, and what they make holds no more than they describe. -/
namespace TypedParams

namespace Fields

/-- The typed values that fields describe. -/
inductive Describes (f : Fields) : TypedValue → Prop
  | scalar {t : ScalarType} {s : Text} (elements : f.elements = .null)
      (type : f.type.Names (.scalar t)) (elementType : f.elementType = .null)
      (value : f.value = .text s) : Describes f (.scalar t s)
  | array {t : ScalarType} {items : List Text}
      (elements : f.elements.items? = some (items.map fun s => .typed (.scalar t s)))
      (type : f.type.Names .array) (elementType : f.elementType.Names (.scalar t))
      (value : f.value = .null) : Describes f (.array t items)

theorem readElements_eq_ok_iff {f : Fields} {o : Option (List Value)} :
    f.readElements = .ok o ↔
      f.elements = .null ∧ o = none ∨ ∃ xs, f.elements.items? = some xs ∧ o = some xs := by
  unfold readElements
  by_cases hnull : f.elements = .null
  · have hitems : Value.null.items? = none := rfl
    simp [hnull, hitems, Value.isNull, eq_comm]
  · have hisNull : ¬f.elements.isNull = true := fun h => hnull (Value.isNull_iff.1 h)
    rw [if_neg hisNull]
    cases hitems : f.elements.items? with
    | none => simp [hnull]
    | some xs => simp [hnull, eq_comm]

theorem exists_readElements {f : Fields} (hf : f.elements = .null ∨ f.elements.items?.isSome) :
    ∃ o, f.readElements = .ok o := by
  simp only [readElements_eq_ok_iff]
  rcases hf with hnull | hsome
  · exact ⟨none, .inl ⟨hnull, rfl⟩⟩
  · obtain ⟨xs, hxs⟩ := Option.isSome_iff_exists.1 hsome
    exact ⟨some xs, .inr ⟨xs, hxs, rfl⟩⟩

theorem check_eq_bind (f : Fields) : f.check =
    f.readElements.bind fun elements => (LogicalType.ofValue? f.type).bind fun type =>
      (LogicalType.ofValue? f.elementType).bind fun elementType =>
        match type, elements with
        | none, _ => .error .typeNotSet
        | some type, some xs => checkArray f.value xs type elementType
        | some type, none => checkScalar f.value type elementType := rfl

theorem describes_of_check {f : Fields} {tv : TypedValue} (h : f.check = .ok tv) :
    f.Describes tv := by
  rw [check_eq_bind] at h
  obtain ⟨elements, helements, h⟩ := bind_eq_ok_iff.1 h
  obtain ⟨type, htype, h⟩ := bind_eq_ok_iff.1 h
  obtain ⟨elementType, helementType, h⟩ := bind_eq_ok_iff.1 h
  rw [LogicalType.ofValue?_eq_ok_iff] at htype helementType
  rcases htype with ⟨-, rfl⟩ | ⟨u, hu, rfl⟩
  · cases h
  rcases readElements_eq_ok_iff.1 helements with ⟨hnull, rfl⟩ | ⟨xs, hxs, rfl⟩
  · obtain ⟨rfl, t, s, rfl, hvalue, rfl⟩ := checkScalar_eq_ok_iff.1 h
    rcases helementType with ⟨helementType, -⟩ | ⟨_, _, hsome⟩
    · exact .scalar hnull hu helementType hvalue
    · cases hsome
  · obtain ⟨rfl, hvalue, t, items, rfl, rfl, rfl⟩ := checkArray_eq_ok_iff.1 h
    rcases helementType with ⟨-, hnone⟩ | ⟨u', hu', hsome⟩
    · cases hnone
    · cases hsome
      exact .array hxs hu hu' (Value.isNull_iff.1 hvalue)

theorem Describes.check {f : Fields} {tv : TypedValue} (h : f.Describes tv) : f.check = .ok tv := by
  rw [check_eq_bind]
  cases h with
  | @scalar t s elements type elementType value =>
    have helements : f.readElements = .ok none := readElements_eq_ok_iff.2 (.inl ⟨elements, rfl⟩)
    have htype : LogicalType.ofValue? f.type = .ok (some (.scalar t)) :=
      LogicalType.ofValue?_eq_ok_iff.2 (.inr ⟨_, type, rfl⟩)
    have helementType : LogicalType.ofValue? f.elementType = .ok none :=
      LogicalType.ofValue?_eq_ok_iff.2 (.inl ⟨elementType, rfl⟩)
    rw [helements, htype, helementType]
    exact checkScalar_eq_ok_iff.2 ⟨rfl, t, s, rfl, value, rfl⟩
  | @array t items elements type elementType value =>
    have helements : f.readElements = .ok (some (items.map fun s => .typed (.scalar t s))) :=
      readElements_eq_ok_iff.2 (.inr ⟨_, elements, rfl⟩)
    have htype : LogicalType.ofValue? f.type = .ok (some .array) :=
      LogicalType.ofValue?_eq_ok_iff.2 (.inr ⟨_, type, rfl⟩)
    have helementType : LogicalType.ofValue? f.elementType = .ok (some (.scalar t)) :=
      LogicalType.ofValue?_eq_ok_iff.2 (.inr ⟨_, elementType, rfl⟩)
    rw [helements, htype, helementType]
    exact checkArray_eq_ok_iff.2 ⟨rfl, Value.isNull_iff.2 value, t, items, rfl, rfl, rfl⟩

theorem check_eq_ok_iff {f : Fields} {tv : TypedValue} : f.check = .ok tv ↔ f.Describes tv :=
  ⟨describes_of_check, Describes.check⟩

/-- The first of the two types, in their order, that is set to what is no type. -/
inductive FirstUnknown (f : Fields) : Value → Prop
  | type (h : ¬f.type.NamesOrNull) : FirstUnknown f f.type
  | elementType (type : f.type.NamesOrNull) (h : ¬f.elementType.NamesOrNull) :
      FirstUnknown f f.elementType

/-- Fields whose elements can be gone through are refused for a type that is none, which the refusal
has to quote, or else as an invalid parameter. -/
theorem error_of_check {f : Fields} (hf : f.elements = .null ∨ f.elements.items?.isSome) {e : Error}
    (h : f.check = .error e) :
    (∃ v, f.FirstUnknown v ∧ e = v.quoting .unknownType) ∨
      e.kind = .invalidParameter ∧ f.type.NamesOrNull ∧ f.elementType.NamesOrNull := by
  rw [check_eq_bind] at h
  rcases bind_eq_error_iff.1 h with helements | ⟨elements, -, h⟩
  · obtain ⟨o, ho⟩ := exists_readElements hf
    rw [ho] at helements
    cases helements
  rcases bind_eq_error_iff.1 h with htype | ⟨type, htype, h⟩
  · obtain ⟨he, hnames⟩ := LogicalType.error_of_ofValue? htype
    exact .inl ⟨_, .type hnames, he⟩
  rcases bind_eq_error_iff.1 h with helementType | ⟨elementType, helementType, h⟩
  · obtain ⟨he, hnames⟩ := LogicalType.error_of_ofValue? helementType
    exact .inl ⟨_, .elementType (LogicalType.namesOrNull_of_ofValue? htype) hnames, he⟩
  refine .inr ⟨?_, LogicalType.namesOrNull_of_ofValue? htype,
    LogicalType.namesOrNull_of_ofValue? helementType⟩
  rcases type with _ | u
  · cases h; rfl
  · rcases elements with _ | xs
    · exact kind_of_checkScalar h
    · exact kind_of_checkArray h

/-- A string under the name of a scalar type, and nothing else. -/
def IsScalar (f : Fields) : Prop :=
  f.elements = .null ∧ (∃ t : ScalarType, f.type.Names (.scalar t)) ∧ f.elementType = .null ∧
    ∃ s, f.value = .text s

/-- Typed values of one scalar type under the array type, and no value beside them. -/
def IsArray (f : Fields) : Prop :=
  f.type.Names .array ∧ f.value = .null ∧ ∃ (t : ScalarType) (xs : List Value),
    f.elementType.Names (.scalar t) ∧ f.elements.items? = some xs ∧
      ∀ x ∈ xs, ∃ tv, x = .typed tv ∧ tv.type = .scalar t

theorem exists_scalars_iff {t : ScalarType} {xs : List Value} :
    (∃ items : List Text, xs = items.map fun s => .typed (.scalar t s)) ↔
      ∀ x ∈ xs, ∃ tv, x = .typed tv ∧ tv.type = .scalar t := by
  rw [exists_map_iff]
  refine forall₂_congr fun x _ => ?_
  constructor
  · intro h
    obtain ⟨s, rfl⟩ := h
    exact ⟨_, rfl, rfl⟩
  · intro h
    obtain ⟨tv, rfl, htv⟩ := h
    cases tv with
    | scalar u s =>
      cases htv
      exact ⟨s, rfl⟩
    | array u items => cases htv

theorem namesOrNull_of_described {f : Fields} (h : f.IsScalar ∨ f.IsArray) :
    f.type.NamesOrNull ∧ f.elementType.NamesOrNull := by
  rcases h with ⟨-, ⟨t, ht⟩, hnull, -⟩ | ⟨htype, -, t, xs, ht, -⟩
  · exact ⟨.inr ⟨_, ht⟩, .inl hnull⟩
  · exact ⟨.inr ⟨_, htype⟩, .inr ⟨_, ht⟩⟩

theorem exists_describes_iff {f : Fields} : (∃ tv, f.Describes tv) ↔ f.IsScalar ∨ f.IsArray := by
  constructor
  · intro h
    obtain ⟨tv, h⟩ := h
    cases h with
    | scalar elements type elementType value =>
      exact .inl ⟨elements, ⟨_, type⟩, elementType, _, value⟩
    | array elements type elementType value =>
      exact .inr ⟨type, value, _, _, elementType, elements, exists_scalars_iff.1 ⟨_, rfl⟩⟩
  · intro h
    rcases h with ⟨elements, ⟨t, type⟩, elementType, s, value⟩ |
      ⟨type, value, t, xs, elementType, elements, hxs⟩
    · exact ⟨_, .scalar elements type elementType value⟩
    · obtain ⟨items, rfl⟩ := exists_scalars_iff.2 hxs
      exact ⟨_, .array elements type elementType value⟩

end Fields

/-- One literal and no elements, or no literal and elements that are scalars of the declared type.
-/
def TypedValue.IsFlat (tv : TypedValue) : Prop :=
  tv.value?.isSome ∧ tv.elements? = none ∧ tv.elementType? = none ∧
      (∃ t : ScalarType, tv.type = .scalar t) ∨
    tv.value? = none ∧ tv.type = .array ∧ ∃ (t : ScalarType) (xs : List TypedValue),
      tv.elementType? = some (.scalar t) ∧ tv.elements? = some xs ∧
        ∀ x ∈ xs, x.type = .scalar t ∧ x.value?.isSome ∧ x.elements? = none

theorem TypedValue.isFlat (tv : TypedValue) : tv.IsFlat := by
  cases tv with
  | scalar t s => exact .inl ⟨rfl, rfl, rfl, t, rfl⟩
  | array t items =>
    refine .inr ⟨rfl, rfl, t, _, rfl, rfl, ?_⟩
    intro x hx
    obtain ⟨s, -, rfl⟩ := List.mem_map.1 hx
    exact ⟨rfl, rfl, rfl⟩

namespace Fields

/-- Fields make a value exactly when both types are known or left out and the fields describe a
scalar or a flat array. An unknown type is refused as such whatever else is wrong, if it can be
quoted, all other fields as an invalid parameter. -/
theorem check_accepts_descriptions {f : Fields}
    (hf : f.elements = .null ∨ f.elements.items?.isSome) :
    ((∃ tv, f.check = .ok tv) ↔
      (f.type.NamesOrNull ∧ f.elementType.NamesOrNull) ∧ (f.IsScalar ∨ f.IsArray)) ∧
    (∀ e, f.check = .error e →
      (∃ v, f.FirstUnknown v ∧ (v.isQuotable = true ∧ e.kind = .unknownType ∨
          v.isQuotable = false ∧ e = .unwritableNumber)) ∨
        e.kind = .invalidParameter ∧ f.type.NamesOrNull ∧ f.elementType.NamesOrNull) ∧
    ∀ tv, f.check = .ok tv → f.Describes tv ∧ tv.IsFlat := by
  refine ⟨?accepts, ?refuses, fun tv h => ⟨describes_of_check h, tv.isFlat⟩⟩
  case accepts =>
    simp only [check_eq_ok_iff, exists_describes_iff]
    exact ⟨fun h => ⟨namesOrNull_of_described h, h⟩, fun h => h.2⟩
  case refuses =>
    intro e h
    rcases error_of_check hf h with ⟨v, hv, he⟩ | hinvalid
    · refine .inl ⟨v, hv, ?_⟩
      rcases Value.eq_quoting_iff.1 he with ⟨hquotable, rfl⟩ | hlong
      · exact .inl ⟨hquotable, rfl⟩
      · exact .inr hlong
    · exact .inr hinvalid

/-- A type of more digits than can be written is not refused as unknown. -/
theorem check_longest :
    ∃ f : Fields, f.elements = .null ∧ (∀ t, ¬f.type.Names t) ∧ f.type ≠ .null ∧
      ∃ e, f.check = .error e ∧ e.kind ≠ .unknownType := by
  have hlong : (Value.int (10 ^ Text.digitLimit) none).isQuotable = false := by
    rw [Value.isQuotable_int, Text.isWritable_pow_digitLimit]
  refine ⟨⟨.str "x", .null, .int (10 ^ Text.digitLimit) none, .null⟩, rfl, ?_, by simp,
    .unwritableNumber, ?_, by decide⟩
  · intro t ht
    obtain ⟨s, hs, -⟩ := ht
    cases hs
  · simp [check_eq_bind, readElements, LogicalType.ofValue?, LogicalType.ofValue, Value.isNull,
      Value.text?, Value.quoting, hlong, Except.bind, Except.map]

/-- Two elements read from a stream, with the types given as a token and as a type. -/
def streamed : Fields where
  value := .null
  elements := .stream [.typed (.scalar .int64 (.plain "1")), .typed (.scalar .int64 (.plain ""))]
  type := .str "ARRAY"
  elementType := .ofType (.scalar .int64)

theorem check_accepts_streamed :
    streamed.elements.items?.isSome ∧ ∃ tv, streamed.check = .ok tv := by
  have hitems : streamed.elements.items?.isSome := rfl
  have hmem : ∀ x ∈ [Value.typed (.scalar .int64 (.plain "1")),
      .typed (.scalar .int64 (.plain ""))],
      ∃ tv, x = .typed tv ∧ tv.type = .scalar .int64 := by
    intro x hx
    rcases List.mem_pair.1 hx with rfl | rfl
    · exact ⟨_, rfl, rfl⟩
    · exact ⟨_, rfl, rfl⟩
  have htype : streamed.type.Names .array := ⟨.plain "ARRAY", rfl, rfl⟩
  have helementType : streamed.elementType.Names (.scalar .int64) := Value.names_ofType _
  have harray : streamed.IsArray := ⟨htype, rfl, .int64, _, helementType, rfl, hmem⟩
  exact ⟨hitems, (check_accepts_descriptions (.inr hitems)).1.2
    ⟨⟨.inr ⟨_, htype⟩, .inr ⟨_, helementType⟩⟩, .inr harray⟩⟩

example : (Fields.mk .null (.list [] none) (.str "ARRAY") (.str "list")).check =
    .error (.unknownType "'list'") := rfl

end Fields
end TypedParams

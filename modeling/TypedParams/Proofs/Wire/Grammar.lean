import TypedParams.Proofs.Token
import TypedParams.Proofs.TypedValue.Fields
import TypedParams.Wire.Decode

/-! The wire grammar: which pairs of payload and descriptor stand for which typed value. Main
statement: decoding reads this grammar. -/
namespace TypedParams

@[simp] theorem Traced.result_liftM (x : Except Error α) : (liftM x : Traced α).result = x := rfl

namespace LogicalType

/-- Strings that name a type. -/
def IsToken (s : String) : Prop := ∃ t : LogicalType, s = t.token

@[simp] theorem ofValue_token (t : LogicalType) : ofValue (.str t.token) = .ok t :=
  ofValue_eq_ok_iff.2 ⟨.plain t.token, rfl, rfl⟩

theorem ofToken?_eq_none_iff {s : String} : ofToken? s = none ↔ ¬IsToken s := by
  rw [Option.eq_none_iff_forall_ne_some, IsToken, not_exists]
  simp only [ne_eq, ofToken?_eq_some_iff]

theorem ofValue_str_of_not_isToken {s : String} (h : ¬IsToken s) :
    ofValue (.str s) = .error (.unknownType (Value.str s).quoted) := by
  have hs : ofToken? s = none := ofToken?_eq_none_iff.2 h
  simp [ofValue, Value.str, Value.text?, hs, Value.quoting, Value.isQuotable]

theorem eq_token_of_ofValue_str {s : String} {t : LogicalType} (h : ofValue (.str s) = .ok t) :
    s = t.token := by
  obtain ⟨text, htext, htoken⟩ := ofValue_eq_ok_iff.1 h
  cases htext
  exact htoken

end LogicalType

namespace Value

/-- The items of a list or a tuple. -/
def sequence? : Value → Option (List Value)
  | .list xs _ | .tuple xs _ => some xs
  | _ => none

/-- Lists and tuples of any class as plain lists. -/
def asList (v : Value) : Value := v.sequence?.elim v (.list · none)

end Value

/-- The shapes of a descriptor that decoding tells apart. -/
inductive Descriptor.Shape : Descriptor → Prop
  | unknown {d : Descriptor} (h : ¬LogicalType.IsToken d.type) : Shape d
  | leaf (t : LogicalType) : Shape ⟨t.token, []⟩
  | around {t : LogicalType} (h : t ≠ .array) (e : String) (es : List String) :
      Shape ⟨t.token, e :: es⟩
  | array (e : String) : Shape ⟨LogicalType.array.token, [e]⟩
  | nested (e e' : String) (es : List String) : Shape ⟨LogicalType.array.token, e :: e' :: es⟩

theorem Descriptor.shape (d : Descriptor) : d.Shape := by
  obtain ⟨type, inner⟩ := d
  by_cases htype : LogicalType.IsToken type
  · obtain ⟨t, rfl⟩ := htype
    match inner with
    | [] => exact .leaf t
    | e :: es =>
      by_cases ht : t = .array
      · subst ht
        cases es with
        | nil => exact .array e
        | cons e' es => exact .nested e e' es
      · exact .around ht e es
  · exact .unknown htype

namespace TypedValue

/-- The payloads and descriptors that stand for a typed value. -/
inductive WrittenAs : TypedValue → Value → Descriptor → Prop
  | scalar (t : ScalarType) (s : Text) : WrittenAs (.scalar t s) (.text s) ⟨t.token, []⟩
  | array (t : ScalarType) (items : List Text) {payload : Value}
      (h : payload.sequence? = some (items.map .text)) :
      WrittenAs (.array t items) payload ⟨LogicalType.array.token, [t.token]⟩

/-- A value is written as its own payload and descriptor. -/
theorem writtenAs_payload (tv : TypedValue) : tv.WrittenAs tv.payload tv.descriptor := by
  cases tv with
  | scalar t s => exact .scalar t s
  | array t items => exact .array t items rfl

/-- Nothing but the class of an array's sequence is lost in reading a pair. -/
theorem WrittenAs.unread {tv : TypedValue} {payload : Value} {d : Descriptor}
    (h : tv.WrittenAs payload d) : tv.payload = payload.asList ∧ tv.descriptor = d := by
  cases h with
  | scalar t s => exact ⟨rfl, rfl⟩
  | array t items h =>
    refine ⟨?_, rfl⟩
    rw [Value.asList, h]
    rfl

theorem decodeLeaf_eq_ok_iff {payload : Value} {t : LogicalType} {tv : TypedValue} :
    decodeLeaf payload t = .ok tv ↔
      ∃ u s, t = .scalar u ∧ payload = .text s ∧ tv = .scalar u s := by
  unfold decodeLeaf
  split_ifs with ht
  · subst ht
    simp
  · simp [Fields.checkScalar_eq_ok_iff]

theorem kind_of_decodeLeaf {payload : Value} {t : LogicalType} {e : Error}
    (h : decodeLeaf payload t = .error e) : e.kind = .invalidParameter := by
  unfold decodeLeaf at h
  split_ifs at h with ht
  · cases h; rfl
  · exact Fields.kind_of_checkScalar h

theorem arrayItems_eq_ok_iff {payload : Value} {xs : List Value} :
    arrayItems payload = .ok xs ↔ payload.sequence? = some xs := by
  cases payload <;> simp [arrayItems, Value.sequence?]

theorem kind_of_arrayItems {payload : Value} {e : Error} (h : arrayItems payload = .error e) :
    e.kind = .invalidParameter := by
  cases payload <;> cases h <;> rfl

/-- An array from its items, the element type known. -/
def decodeItems (xs : List Value) (t : LogicalType) : Except Error TypedValue :=
  (xs.mapM fun v => decodeLeaf v t).bind fun tvs =>
    Fields.checkArray .null (tvs.map .typed) .array (some t)

theorem decodeItems_eq_ok_iff {xs : List Value} {t : LogicalType} {tv : TypedValue} :
    decodeItems xs t = .ok tv ↔
      ∃ u items, t = .scalar u ∧ xs = items.map .text ∧ tv = .array u items := by
  have hleaf : ∀ (u : ScalarType) (v : Value) (s : Text),
      decodeLeaf v (.scalar u) = .ok (.scalar u s) ↔ v = .text s := by
    intro u v s
    simp [decodeLeaf_eq_ok_iff]
  have hitems : ∀ (u : ScalarType) (items : List Text),
      (xs.mapM fun v => decodeLeaf v (.scalar u)) = .ok (items.map (.scalar u)) ↔
        xs = items.map .text := by
    intro u items
    rw [mapM_eq_ok_iff, List.forall₂_map_right_iff]
    simp only [hleaf]
    rw [← List.forall₂_map_right_iff, List.forall₂_eq_eq_eq]
  rw [decodeItems, bind_eq_ok_iff]
  constructor
  · intro h
    obtain ⟨tvs, htvs, h⟩ := h
    obtain ⟨-, -, u, items, ht, htyped, rfl⟩ := Fields.checkArray_eq_ok_iff.1 h
    have htu : t = .scalar u := Option.some.inj ht
    have hscalars : tvs = items.map (.scalar u) := by
      apply List.map_injective_iff.2 (fun _ _ => Value.typed.inj)
      rw [htyped, List.map_map]
      rfl
    subst htu hscalars
    exact ⟨u, items, rfl, (hitems u items).1 htvs, rfl⟩
  · intro h
    obtain ⟨u, items, rfl, hxs, rfl⟩ := h
    have htyped : (items.map (TypedValue.scalar u)).map Value.typed =
        items.map fun s => .typed (.scalar u s) := by rw [List.map_map]; rfl
    exact ⟨_, (hitems u items).2 hxs,
      Fields.checkArray_eq_ok_iff.2 ⟨rfl, rfl, u, items, rfl, htyped, rfl⟩⟩

theorem kind_of_decodeItems {xs : List Value} {t : LogicalType} {e : Error}
    (h : decodeItems xs t = .error e) : e.kind = .invalidParameter := by
  rcases bind_eq_error_iff.1 h with hitems | harray
  · obtain ⟨v, -, hv⟩ := exists_of_mapM_eq_error hitems
    exact kind_of_decodeLeaf hv
  · obtain ⟨tvs, -, htvs⟩ := harray
    exact Fields.kind_of_checkArray htvs

/-! ### Decoding by the shape of the descriptor -/

theorem result_decode_of_not_isToken {payload : Value} {d : Descriptor}
    (h : ¬LogicalType.IsToken d.type) :
    (decode payload d).result = .error (.unknownType (Value.str d.type).quoted) := by
  simp only [decode, Traced.result_bind, Traced.result_liftM,
    LogicalType.ofValue_str_of_not_isToken h]
  rfl

theorem result_decode_leaf (payload : Value) (t : LogicalType) :
    (decode payload ⟨t.token, []⟩).result = decodeLeaf payload t := by
  simp only [decode, Traced.result_bind, Traced.result_liftM, LogicalType.ofValue_token]
  cases t <;> rfl

theorem result_decode_around (payload : Value) {t : LogicalType} (ht : t ≠ .array) (e : String)
    (es : List String) :
    (decode payload ⟨t.token, e :: es⟩).result = .error (.elementTypeOnScalar t) := by
  simp only [decode, Traced.result_bind, Traced.result_liftM, LogicalType.ofValue_token]
  cases t with
  | scalar t => rfl
  | array => exact absurd rfl ht
  | struct => rfl

theorem result_decode_array (payload : Value) (e : String) :
    (decode payload ⟨LogicalType.array.token, [e]⟩).result =
      (arrayItems payload).bind fun xs => (LogicalType.ofValue (.str e)).bind (decodeItems xs) := by
  simp only [decode, Traced.result_bind, Traced.result_liftM, LogicalType.ofValue_token]
  change Traced.result (liftM (arrayItems payload) >>= _) = _
  simp only [Traced.result_bind, Traced.result_liftM]
  rfl

theorem result_decode_nested (payload : Value) (e e' : String) (es : List String) :
    (decode payload ⟨LogicalType.array.token, e :: e' :: es⟩).result =
      .error (.nestedElementType e) := by
  simp only [decode, Traced.result_bind, Traced.result_liftM, LogicalType.ofValue_token]
  rfl

theorem writtenAs_of_decode {payload : Value} {d : Descriptor} {tv : TypedValue}
    (h : (decode payload d).result = .ok tv) : tv.WrittenAs payload d := by
  cases d.shape with
  | unknown htype =>
    rw [result_decode_of_not_isToken htype] at h
    cases h
  | leaf t =>
    rw [result_decode_leaf] at h
    obtain ⟨u, s, rfl, rfl, rfl⟩ := decodeLeaf_eq_ok_iff.1 h
    exact .scalar u s
  | around ht e es =>
    rw [result_decode_around payload ht] at h
    cases h
  | array e =>
    rw [result_decode_array] at h
    obtain ⟨xs, hxs, h⟩ := bind_eq_ok_iff.1 h
    obtain ⟨t, ht, h⟩ := bind_eq_ok_iff.1 h
    have he : e = t.token := LogicalType.eq_token_of_ofValue_str ht
    have hseq : payload.sequence? = some xs := arrayItems_eq_ok_iff.1 hxs
    obtain ⟨u, items, rfl, rfl, rfl⟩ := decodeItems_eq_ok_iff.1 h
    rw [he]
    exact .array u items hseq
  | nested e e' es =>
    rw [result_decode_nested] at h
    cases h

theorem WrittenAs.decode {payload : Value} {d : Descriptor} {tv : TypedValue}
    (h : tv.WrittenAs payload d) : (decode payload d).result = .ok tv := by
  cases h with
  | scalar t s =>
    have hleaf := result_decode_leaf (.text s) (.scalar t)
    rw [decodeLeaf_eq_ok_iff.2 ⟨t, s, rfl, rfl, rfl⟩] at hleaf
    exact hleaf
  | array t items hseq =>
    have htoken : LogicalType.ofValue (.str t.token) = .ok (.scalar t) :=
      LogicalType.ofValue_token (.scalar t)
    rw [result_decode_array, arrayItems_eq_ok_iff.2 hseq, htoken]
    exact decodeItems_eq_ok_iff.2 ⟨t, items, rfl, rfl, rfl⟩

/-- Decoding reads the grammar. -/
theorem result_decode_eq_ok_iff {payload : Value} {d : Descriptor} {tv : TypedValue} :
    (decode payload d).result = .ok tv ↔ tv.WrittenAs payload d :=
  ⟨writtenAs_of_decode, WrittenAs.decode⟩

end TypedValue
end TypedParams

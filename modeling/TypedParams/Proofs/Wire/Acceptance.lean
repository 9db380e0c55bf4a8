import TypedParams.Proofs.Text.Decimal
import TypedParams.Proofs.Wire.Grammar
import TypedParams.Proofs.Wire.Reading

/-! Which wire pairs are accepted, what becomes of them, and how the others are refused. -/
namespace TypedParams.TypedValue

/-- The reading comes to a token that names no type: the outer one, or the element's, which is
looked at only where the descriptor nests once and the payload is a sequence. -/
def MeetsUnknownToken (payload : Value) (d : Descriptor) : Prop :=
  ¬LogicalType.IsToken d.type ∨
    d.type = LogicalType.array.token ∧ ∃ e, d.elementType? = some e ∧ e.elementType? = none ∧
      payload.sequence?.isSome ∧ ¬LogicalType.IsToken e.type

theorem meetsUnknownToken_token_iff {payload : Value} {t : LogicalType} {inner : List String} :
    MeetsUnknownToken payload ⟨t.token, inner⟩ ↔
      t = .array ∧ ∃ e, inner = [e] ∧ payload.sequence?.isSome ∧ ¬LogicalType.IsToken e := by
  have htype : LogicalType.IsToken t.token := ⟨t, rfl⟩
  constructor
  · intro h
    obtain ⟨ht, e, he, hnone, hseq, htoken⟩ := h.resolve_left (not_not.2 htype)
    refine ⟨LogicalType.token_injective ht, e.type, ?_, hseq, htoken⟩
    match inner with
    | [] => cases he
    | [e'] => cases he; rfl
    | e' :: e'' :: es => cases he; cases hnone
  · intro h
    obtain ⟨rfl, e, rfl, hseq, htoken⟩ := h
    exact .inr ⟨rfl, ⟨e, []⟩, rfl, rfl, hseq, htoken⟩

/-- Once the items are there, only the element's token can be unknown. -/
theorem kind_of_decodeElements {xs : List Value} {s : String} {e : Error}
    (h : (LogicalType.ofValue (.str s)).bind (decodeItems xs) = .error e) :
    e.kind = .unknownType ∧ ¬LogicalType.IsToken s ∨
      e.kind = .invalidParameter ∧ LogicalType.IsToken s := by
  by_cases htoken : LogicalType.IsToken s
  · right
    obtain ⟨t, rfl⟩ := htoken
    rw [LogicalType.ofValue_token] at h
    exact ⟨kind_of_decodeItems h, t, rfl⟩
  · left
    rw [LogicalType.ofValue_str_of_not_isToken htoken] at h
    have he : .unknownType (Value.str s).quoted = e := Except.error.inj h
    exact ⟨by rw [← he]; rfl, htoken⟩

/-- A refused pair is refused for an unknown token, or else as an invalid parameter. -/
theorem kind_of_decode {payload : Value} {d : Descriptor} {e : Error}
    (h : (decode payload d).result = .error e) :
    e.kind = .unknownType ∧ MeetsUnknownToken payload d ∨
      e.kind = .invalidParameter ∧ ¬MeetsUnknownToken payload d := by
  cases d.shape with
  | unknown htype =>
    rw [result_decode_of_not_isToken htype] at h
    cases h
    exact .inl ⟨rfl, .inl htype⟩
  | leaf t =>
    rw [result_decode_leaf] at h
    have hmeets : ¬MeetsUnknownToken payload ⟨t.token, []⟩ := by
      simp [meetsUnknownToken_token_iff]
    exact .inr ⟨kind_of_decodeLeaf h, hmeets⟩
  | @around t ht e' es =>
    rw [result_decode_around payload ht] at h
    have hmeets : ¬MeetsUnknownToken payload ⟨t.token, e' :: es⟩ := by
      simp [meetsUnknownToken_token_iff, ht]
    cases h
    exact .inr ⟨rfl, hmeets⟩
  | array e' =>
    rw [result_decode_array] at h
    have hmeets : MeetsUnknownToken payload ⟨LogicalType.array.token, [e']⟩ ↔
        payload.sequence?.isSome ∧ ¬LogicalType.IsToken e' := by
      simp [meetsUnknownToken_token_iff]
    rw [hmeets]
    rcases bind_eq_error_iff.1 h with hitems | hrest
    · have hseq : ¬payload.sequence?.isSome := by
        intro hsome
        obtain ⟨xs, hxs⟩ := Option.isSome_iff_exists.1 hsome
        rw [arrayItems_eq_ok_iff.2 hxs] at hitems
        cases hitems
      exact .inr ⟨kind_of_arrayItems hitems, fun hc => hseq hc.1⟩
    · obtain ⟨xs, hxs, hrest⟩ := hrest
      have hseq : payload.sequence?.isSome := by
        rw [arrayItems_eq_ok_iff.1 hxs]
        rfl
      rcases kind_of_decodeElements hrest with hunknown | hknown
      · exact .inl ⟨hunknown.1, hseq, hunknown.2⟩
      · exact .inr ⟨hknown.1, fun hc => hc.2 hknown.2⟩
  | nested e' e'' es =>
    rw [result_decode_nested] at h
    have hmeets : ¬MeetsUnknownToken payload ⟨LogicalType.array.token, e' :: e'' :: es⟩ := by
      simp [meetsUnknownToken_token_iff]
    cases h
    exact .inr ⟨rfl, hmeets⟩

/-! ### Accepted pairs -/

/-- A string under the token of a scalar type. -/
def IsScalarPair (payload : Value) (d : Descriptor) : Prop :=
  (∃ t : ScalarType, d.type = t.token) ∧ d.elementType? = none ∧ ∃ s, payload = .text s

/-- A sequence of strings under the array token around the token of a scalar type. -/
def IsArrayPair (payload : Value) (d : Descriptor) : Prop :=
  d.type = LogicalType.array.token ∧ ∃ e xs, d.elementType? = some e ∧
    (∃ t : ScalarType, e.type = t.token) ∧ e.elementType? = none ∧
    payload.sequence? = some xs ∧ ∀ x ∈ xs, ∃ s, x = .text s

theorem exists_texts_iff {xs : List Value} :
    (∃ items : List Text, xs = items.map .text) ↔ ∀ x ∈ xs, ∃ s, x = .text s := exists_map_iff

theorem exists_writtenAs_iff {payload : Value} {d : Descriptor} :
    (∃ tv : TypedValue, tv.WrittenAs payload d) ↔
      IsScalarPair payload d ∨ IsArrayPair payload d := by
  constructor
  · intro h
    obtain ⟨tv, h⟩ := h
    cases h with
    | scalar t s => exact .inl ⟨⟨t, rfl⟩, rfl, s, rfl⟩
    | array t items hseq =>
      have htexts := exists_texts_iff.1 ⟨items, rfl⟩
      exact .inr ⟨rfl, ⟨t.token, []⟩, _, rfl, ⟨t, rfl⟩, rfl, hseq, htexts⟩
  · intro h
    have hd := Descriptor.wrap_elementType? d
    rcases h with hscalar | harray
    · obtain ⟨⟨t, ht⟩, hnone, s, rfl⟩ := hscalar
      rw [ht, hnone] at hd
      rw [← hd]
      exact ⟨_, .scalar t s⟩
    · obtain ⟨ht, e, xs, he, ⟨u, hu⟩, hnone, hseq, hxs⟩ := harray
      obtain ⟨items, rfl⟩ := exists_texts_iff.2 hxs
      have hinner := Descriptor.wrap_elementType? e
      rw [hu, hnone] at hinner
      rw [ht, he, ← hinner] at hd
      rw [← hd]
      exact ⟨_, .array u items hseq⟩

theorem ofWire_descriptor (payload : Value) (d : Descriptor) :
    ofWire payload (.descriptor d) = (decode payload d).result := by
  simp only [ofWire, ofWireTraced, Traced.result_bind, Traced.result_liftM]
  rfl

/-- A descriptor given as a mapping is parsed first. -/
theorem ofWire_of_entries {v : Value} {es : List (Value × Value)} (h : v.entries? = some es)
    (payload : Value) :
    ofWire payload v =
      ((Descriptor.read (.mapping es)).mapError (Error.withIssues .malformedDescriptor)).bind
        fun d => ofWire payload (.descriptor d) := by
  have hread : readDescriptor v =
      (Descriptor.read (.mapping es)).mapError (Error.withIssues .malformedDescriptor) := by
    cases v <;> cases h <;> rfl
  simp only [ofWire_descriptor]
  simp only [ofWire, ofWireTraced, Traced.result_bind, Traced.result_liftM, hread]

/-- Reading a pair accepts exactly the grammar and loses nothing of it; a refusal is for an unknown
token where the reading meets one, and for an invalid parameter otherwise. A descriptor given as a
mapping is parsed first, and one that does not parse is refused as an invalid parameter, if all that
was found wrong with it can be quoted. -/
theorem ofWire_accepts_grammar (payload : Value) :
    (∀ d : Descriptor,
      ((∃ tv, ofWire payload (.descriptor d) = .ok tv) ↔
        IsScalarPair payload d ∨ IsArrayPair payload d) ∧
      (∀ tv, ofWire payload (.descriptor d) = .ok tv →
        tv.payload = payload.asList ∧ tv.descriptor = d) ∧
      ∀ e, ofWire payload (.descriptor d) = .error e →
        e.kind = .unknownType ∧ MeetsUnknownToken payload d ∨
          e.kind = .invalidParameter ∧ ¬MeetsUnknownToken payload d) ∧
    ∀ v es, v.entries? = some es →
      (∀ d, Descriptor.read (.mapping es) = .ok d →
        ofWire payload v = ofWire payload (.descriptor d)) ∧
      ∀ is, Descriptor.read (.mapping es) = .error is →
        ∃ e, ofWire payload v = .error e ∧
          (e.kind = .invalidParameter ∧ (∀ i ∈ is, i.quotable = true) ∨
            e = .unwritableNumber ∧ ∃ i ∈ is, i.quotable = false) ∧
          ((Value.mapping es).isQuotable = true → e.kind = .invalidParameter) := by
  constructor
  · intro d
    simp only [ofWire_descriptor, result_decode_eq_ok_iff]
    exact ⟨exists_writtenAs_iff, fun tv h => h.unread, fun e h => kind_of_decode h⟩
  · intro v es hv
    rw [ofWire_of_entries hv]
    constructor
    · intro d hd
      rw [hd]
      rfl
    · intro is his
      rw [his]
      refine ⟨_, rfl, ?_⟩
      rcases Error.withIssues_cases .malformedDescriptor is with ⟨hall, he⟩ | ⟨hsome, he⟩
      · rw [he]
        exact ⟨.inl ⟨rfl, hall⟩, fun _ => rfl⟩
      · rw [he]
        refine ⟨.inr ⟨rfl, hsome⟩, fun hquotable => ?_⟩
        obtain ⟨i, hi, hnot⟩ := hsome
        rw [Descriptor.quotes_readWithin hquotable is his i hi] at hnot
        cases hnot

/-- A mapping with a token of more digits than can be written does not parse, and is not refused as
an invalid parameter. -/
theorem ofWire_longest :
    ∃ es is e, Descriptor.read (.mapping es) = .error is ∧
      ofWire (.str "x") (.mapping es) = .error e ∧ e.kind ≠ .invalidParameter := by
  have hlong : (Value.int (10 ^ Text.digitLimit) none).isQuotable = false := by
    rw [Value.isQuotable_int, Text.isWritable_pow_digitLimit]
  have hread : ∀ n, Descriptor.read (.mapping [(.str "type", .int n none)]) =
      .error [⟨[.key "type"], .notString, (Value.int n none).isQuotable⟩] := fun _ => rfl
  refine ⟨_, _, .unwritableNumber, hread (10 ^ Text.digitLimit), ?_, by decide⟩
  rw [ofWire_of_entries rfl, hread, hlong]
  rfl

example : ofWire (.list [] none) (.descriptor ⟨"ARRAY", ["int"]⟩) =
    .error (.unknownType "'int'") := rfl

example : ofWire (.str "1,2") (.descriptor ⟨"ARRAY", ["int"]⟩) =
    .error (.payloadNotList "str") := rfl

end TypedParams.TypedValue

import TypedParams.Proofs.Checked
import TypedParams.Proofs.Value.Entries
import TypedParams.Wire.Mapping

/-! Written records read back: which mappings are read as which descriptor and which document. Main
statement: a descriptor that is not nested too deep, and a document of strings with such a type, are
read from their mappings. -/
namespace TypedParams

@[simp] theorem Checked.string_str (s : String) : string (.str s) = .ok s := rfl

namespace Value

/-- What a field with two names is given as: under the preferred one where that is there. -/
def eitherField? (es : List (Value × α)) (preferred name : String) : Option α :=
  (field? es preferred).or (field? es name)

theorem field?_nameInUse (es : List (Value × Value)) (preferred name : String) :
    field? es (Checked.nameInUse es preferred name) = eitherField? es preferred name := by
  unfold Checked.nameInUse eitherField?
  cases hpreferred : field? es preferred <;> cases hname : field? es name <;>
    simp [hpreferred, hname]

end Value

namespace Descriptor

theorem wrap_eq_iff {type : String} {e? : Option Descriptor} {d : Descriptor} :
    wrap type e? = d ↔ type = d.type ∧ e? = d.elementType? := by
  constructor
  · rintro rfl
    rw [type_wrap, elementType?_wrap]
    exact ⟨rfl, rfl⟩
  · rintro ⟨rfl, rfl⟩
    exact wrap_elementType? d

/-- An element descriptor where one may be given: none, and a null, stand for none. -/
def readElement (n : Nat) : Option Value → Checked (Option Descriptor)
  | none => .ok none
  | some v => orNull (readWithin n) v

/-- A mapping is read as a descriptor by its type token and its element type, each field apart. -/
theorem readWithin_mapping_eq_ok_iff {n : Nat} {es : List (Value × Value)} {d : Descriptor} :
    readWithin (n + 1) (.mapping es) = .ok d ↔
      (∃ a, Value.field? es "type" = some a ∧ Checked.string a = .ok d.type) ∧
        readElement n (Value.eitherField? es "elementType" "element_type") =
          .ok d.elementType? := by
  have hwrap : ∀ p : String × Option Descriptor,
      wrap p.1 p.2 = d ↔ p = (d.type, d.elementType?) := by
    intro p
    rw [wrap_eq_iff, Prod.ext_iff]
  have helement : ∀ key e?, Checked.optional es key none (orNull (readWithin n)) = .ok e? ↔
      readElement n (Value.field? es key) = .ok e? := by
    intro key e?
    rw [Checked.optional_eq_ok_iff]
    cases Value.field? es key <;> simp [readElement, eq_comm]
  simp only [readWithin, Value.entries?, Option.elim_some, map_eq_ok_iff, hwrap, exists_eq_right,
    Checked.both_eq_ok_iff, Checked.required_eq_ok_iff, helement, Value.field?_nameInUse]

theorem isNull_mapping (d : Descriptor) : d.mapping.isNull = false := by
  rcases d with ⟨t, _ | ⟨e, es⟩⟩ <;> rfl

theorem mapping_cons (type e : String) (es : List String) :
    mapping ⟨type, e :: es⟩ =
      .mapping [(.str "type", .str type), (.str "elementType", mapping ⟨e, es⟩)] := rfl

theorem readWithin_zero (v : Value) (d : Descriptor) : readWithin 0 v ≠ .ok d := nofun

/-- A descriptor is what its mapping is read as, and it is read if it has no more levels than may
be. -/
theorem readWithin_mapping_self_iff {n : Nat} {d d' : Descriptor} :
    readWithin n d.mapping = .ok d' ↔ d.levels ≤ n ∧ d = d' := by
  rcases d with ⟨type, inner⟩
  induction inner generalizing type n d' with
  | nil =>
    cases n with
    | zero => simp [readWithin_zero, levels]
    | succ n =>
      have hleaf : (⟨type, []⟩ : Descriptor) = wrap type none := rfl
      rw [mapping, mappingChain, readWithin_mapping_eq_ok_iff, hleaf, wrap_eq_iff]
      simp [Value.eitherField?, readElement, levels, wrap, leaf]
  | cons e es ih =>
    cases n with
    | zero => simp [readWithin_zero, levels]
    | succ n =>
      have hwrap : (⟨type, e :: es⟩ : Descriptor) = wrap type (some ⟨e, es⟩) := rfl
      have hlevels : levels ⟨type, e :: es⟩ ≤ n + 1 ↔ levels ⟨e, es⟩ ≤ n := Nat.succ_le_succ_iff
      have hinner : ∀ e?, orNull (readWithin n) (mapping ⟨e, es⟩) = .ok e? ↔
          levels ⟨e, es⟩ ≤ n ∧ some ⟨e, es⟩ = e? := by
        intro e?
        rw [orNull, isNull_mapping, if_neg Bool.false_ne_true, map_eq_ok_iff]
        simp only [ih, and_assoc, exists_and_left, exists_eq_left']
      rw [mapping_cons, readWithin_mapping_eq_ok_iff, hlevels, hwrap, wrap_eq_iff]
      simp [Value.eitherField?, readElement, hinner]
      tauto

theorem toMapping_eq_ok_iff {d : Descriptor} {m : Value} :
    d.toMapping = .ok m ↔ d.levels ≤ levelLimit ∧ d.mapping = m := by
  unfold toMapping
  split_ifs with hlevels <;> simp [hlevels]

/-- A descriptor that can be written is read from what is written, whatever the depth. -/
theorem read_toMapping {d : Descriptor} {m : Value} (h : d.toMapping = .ok m) : read m = .ok d := by
  obtain ⟨hlevels, rfl⟩ := toMapping_eq_ok_iff.1 h
  exact readWithin_mapping_self_iff.2 ⟨hlevels, rfl⟩

/-- A value that can be quoted is refused for nothing that cannot, however deep it is read. -/
theorem quotes_readWithin {n : Nat} {v : Value} (h : v.isQuotable = true) :
    (readWithin n v).Quotes := by
  induction n generalizing v with
  | zero => exact Checked.quotes_refuse h _
  | succ n ih =>
    have helement : ∀ w : Value, w.isQuotable = true → (orNull (readWithin n) w).Quotes := by
      intro w hw
      unfold orNull
      split_ifs
      · exact nofun
      · exact (ih hw).map _
    by_cases hd : ∃ d, v = .descriptor d
    · obtain ⟨d, rfl⟩ := hd
      exact nofun
    rw [readWithin]
    · cases hes : v.entries? with
      | none => exact Checked.quotes_refuse h _
      | some es =>
        have hquotable := Value.isQuotable_of_entries? hes h
        have htype := Checked.quotes_required hquotable "type" fun _ hw => Checked.quotes_string hw
        exact (htype.both (Checked.quotes_optional hquotable _ none helement)).map _
    · intro d hv
      exact hd ⟨d, hv⟩

end Descriptor

namespace Payload

/-- Payloads of nothing but strings. -/
inductive OfTexts : Payload Value → Prop
  | text (s : String) : OfTexts (.text s)
  | items (ts : List Text) : OfTexts (.items (ts.map .text))

theorem read_writtenPayload {p : Payload Value} (h : p.OfTexts) :
    read (Value.writtenPayload p) = .ok p := by
  cases h with
  | text s => rfl
  | items ts =>
    rw [Value.writtenPayload, Value.writtenAll_text]
    rfl

theorem quotes_read {v : Value} (h : v.isQuotable = true) : (read v).Quotes := by
  have hstring := (Checked.quotes_string h).under (.key "str")
  have hlist := (Checked.quotes_list h).under (.key "list[any]")
  unfold read
  cases hs : Checked.string v with
  | ok s => exact nofun
  | error is =>
    cases hl : Checked.list v with
    | ok xs => exact nofun
    | error js =>
      rw [hs] at hstring
      rw [hl] at hlist
      intro ks hks
      cases hks
      exact hstring.both hlist _ rfl

end Payload

namespace Document

theorem nameRule_eq_none_iff {name : String} : nameRule name = none ↔ name ≠ "" := by
  unfold nameRule
  split_ifs with h <;> simp [h]

/-- A mapping is read as a document by its three fields, each apart, if there is a name. -/
theorem read_eq_ok_iff_of_entries? {v : Value} {es : List (Value × Value)} {d : Document Value}
    (h : v.entries? = some es) : read v = .ok d ↔
      (∃ a, Value.field? es "name" = some a ∧ Checked.string a = .ok d.name) ∧
      (∃ a, Value.eitherField? es "parameterType" "parameter_type" = some a ∧
        Descriptor.read a = .ok d.type) ∧
      (∃ a, Value.eitherField? es "parameterValue" "parameter_value" = some a ∧
        Payload.read a = .ok d.payload) ∧ d.name ≠ "" := by
  have hmk : ∀ p : String × Descriptor × Payload Value,
      (⟨p.1, p.2.1, p.2.2⟩ : Document Value) = d ↔ p = (d.name, d.type, d.payload) := by
    intro p
    constructor
    · rintro rfl
      rfl
    · rintro rfl
      rfl
  have hv : ∀ d, v ≠ .document d := by
    rintro d rfl
    cases h
  rw [read]
  · simp only [h, Option.elim_some, Checked.ensure_eq_ok_iff, map_eq_ok_iff, hmk, exists_eq_right,
      Checked.both_eq_ok_iff, Checked.required_eq_ok_iff, Value.field?_nameInUse,
      nameRule_eq_none_iff]
    rw [and_assoc, and_assoc]
  · exact hv

theorem read_mapping_eq_ok_iff {es : List (Value × Value)} {d : Document Value} :
    read (.mapping es) = .ok d ↔
      (∃ a, Value.field? es "name" = some a ∧ Checked.string a = .ok d.name) ∧
      (∃ a, Value.eitherField? es "parameterType" "parameter_type" = some a ∧
        Descriptor.read a = .ok d.type) ∧
      (∃ a, Value.eitherField? es "parameterValue" "parameter_value" = some a ∧
        Payload.read a = .ok d.payload) ∧ d.name ≠ "" :=
  read_eq_ok_iff_of_entries? rfl

theorem toMapping_eq_ok_iff {d : Document Value} {m : Value} :
    d.toMapping = .ok m ↔ (∃ t, d.type.toMapping = .ok t) ∧ d.mapping = m := by
  rw [toMapping, map_eq_ok_iff, exists_and_right]

theorem quotes_read_mapping {es : List (Value × Value)} (h : (Value.mapping es).isQuotable = true) :
    (read (.mapping es)).Quotes := by
  have hname := Checked.quotes_required h "name" fun _ hv => Checked.quotes_string hv
  have htype := fun key => Checked.quotes_required h key fun _ hv =>
    Descriptor.quotes_readWithin (n := Descriptor.levelLimit) hv
  have hpayload := fun key => Checked.quotes_required h key fun _ hv => Payload.quotes_read hv
  simp only [read, Value.entries?, Option.elim_some, h]
  exact ((hname.both ((htype _).both (hpayload _))).map _).ensure _

/-- A document of strings is read from the mapping it is written as, if it has a name. -/
theorem read_toMapping {d : Document Value} (hname : d.name ≠ "") (hpayload : d.payload.OfTexts)
    {m : Value} (h : d.toMapping = .ok m) : read m = .ok d := by
  obtain ⟨⟨t, ht⟩, rfl⟩ := toMapping_eq_ok_iff.1 h
  have htype : d.type.mapping = t := (Descriptor.toMapping_eq_ok_iff.1 ht).2
  rw [mapping, Value.documentMapping, htype, read_mapping_eq_ok_iff]
  refine ⟨⟨.str d.name, ?_, rfl⟩, ⟨t, ?_, Descriptor.read_toMapping ht⟩,
    ⟨d.writtenPayload, ?_, Payload.read_writtenPayload hpayload⟩, hname⟩
  · simp
  · simp [Value.eitherField?]
  · simp [Value.eitherField?]

end Document
end TypedParams

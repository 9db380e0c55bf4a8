import TypedParams.Parameters.Wire
import TypedParams.Proofs.Wire.RoundTrip

/-! Parameter sets as documents. Main statement: encoding succeeds, with one document for each
parameter, where no lone surrogates stand in a literal. -/
namespace TypedParams

theorem Text.ne_empty_of_isIdentifier {s : String} (h : isIdentifier s = true) : s ≠ "" := by
  intro hs
  rw [hs] at h
  exact absurd h (by decide)

/-- Identifiers hold no surrogates. -/
theorem Text.isTorn_of_isIdentifier {t : Text} (h : isIdentifier t.content = true) :
    t.isTorn = false := by
  cases t with
  | torn s g =>
    have hparts : ∀ c ∈ s.toList, isIdentifierPart c = true := isIdentifierPart_of_mem h
    rw [isTorn, List.any_eq_false]
    intro c hc hsurrogate
    have hleast : 0x10F800 ≤ c.toNat := of_decide_eq_true hsurrogate
    have hgreatest := (isIdentifierPart_bounds (hparts c hc)).2
    omega
  | _ => rfl

namespace Parameters

/-- A parameter has a document when its literal can be stored in one. -/
theorem document_eq_ok_iff {name : Text} (h : Text.isIdentifier name.content = true)
    {tv : TypedValue} {d : Document Value} :
    document name tv = .ok d ↔ tv.IsEncodable ∧ d = .ofTyped name.content tv := by
  have hname : ∀ s, Checked.string (.text name) = .ok s ↔ name.content = s := by
    intro s
    simp [Checked.string, Text.isTorn_of_isIdentifier h]
  have htype : ∀ t, Descriptor.read (.descriptor tv.descriptor) = .ok t ↔ tv.descriptor = t := by
    intro t
    rw [Descriptor.read, Descriptor.levelLimit, Descriptor.readWithin, Except.ok.injEq]
  rw [document, mapError_eq_ok_iff, Document.read_mapping_eq_ok_iff]
  simp only [Value.eitherField?, Value.field?_cons_str, Value.field?_nil, String.reduceEq, if_true,
    if_false, Option.none_or, Option.some.injEq, exists_eq_left', hname, htype,
    TypedValue.read_payload_eq_ok_iff]
  constructor
  · intro hd
    obtain ⟨hdname, hdtype, ⟨hencodable, hdpayload⟩, -⟩ := hd
    refine ⟨hencodable, ?_⟩
    rw [Document.ofTyped, hdname, hdtype, ← hdpayload]
  · intro hd
    obtain ⟨hencodable, rfl⟩ := hd
    exact ⟨rfl, rfl, ⟨hencodable, rfl⟩, Text.ne_empty_of_isIdentifier h⟩

/-- The literals of all scalars can be stored in documents. -/
def IsEncodable (p : Parameters) : Prop := ∀ e ∈ p.entries, e.2.IsEncodable

/-- A parameter set is encoded one document after the other, if each can store its literal. -/
theorem toWire_eq_ok_iff {p : Parameters} {ds : List (Document Value)} :
    p.toWire = .ok ds ↔
      p.IsEncodable ∧ ds = p.entries.map fun e => .ofTyped e.1.content e.2 := by
  have hwire : p.toWire = p.entries.mapM fun e => document e.1 e.2 := by
    simp only [toWire, toWireTraced, Traced.result_bind, Traced.result_lift]
    cases p.entries.mapM fun e => document e.1 e.2 <;> rfl
  rw [hwire]
  constructor
  · intro h
    have hencodable : p.IsEncodable := by
      intro e he
      obtain ⟨d, -, hd⟩ := exists_of_mem_left (mapM_eq_ok_iff.1 h) he
      exact ((document_eq_ok_iff (p.identifiers e he)).1 hd).1
    refine ⟨hencodable, ?_⟩
    rw [mapM_eq_ok_map fun e he =>
      (document_eq_ok_iff (p.identifiers e he)).2 ⟨hencodable e he, rfl⟩] at h
    exact (Except.ok.inj h).symm
  · intro h
    obtain ⟨hencodable, rfl⟩ := h
    exact mapM_eq_ok_map fun e he =>
      (document_eq_ok_iff (p.identifiers e he)).2 ⟨hencodable e he, rfl⟩

end Parameters
end TypedParams

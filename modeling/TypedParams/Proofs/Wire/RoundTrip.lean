import TypedParams.Proofs.Wire.Acceptance
import TypedParams.Proofs.Wire.Reading

/-! Typed values and their documents survive the way over the wire. -/
namespace TypedParams

namespace TypedValue

/-- A descriptor and the mapping it is written as are one to the reader. -/
theorem ofWire_toMapping (payload : Value) {d : Descriptor} {m : Value} (h : d.toMapping = .ok m) :
    ofWire payload m = ofWire payload (.descriptor d) := by
  obtain ⟨es, rfl⟩ : ∃ es, m = .mapping es := by
    obtain ⟨-, rfl⟩ := Descriptor.toMapping_eq_ok_iff.1 h
    rcases d with ⟨t, _ | ⟨e, es⟩⟩ <;> exact ⟨_, rfl⟩
  rw [ofWire_of_entries rfl, Descriptor.read_toMapping h]
  rfl

/-- The descriptor of a value nests at most once. -/
theorem toMapping_descriptor (tv : TypedValue) :
    tv.descriptor.toMapping = .ok tv.descriptor.mapping := by
  have hlevels : tv.descriptor.levels ≤ 2 := by
    cases tv with
    | scalar t v => exact Nat.le_succ 1
    | array t items => exact Nat.le_refl 2
  exact Descriptor.toMapping_eq_ok_iff.2 ⟨hlevels.trans (by decide), rfl⟩

/-- A value read from its own wire pair is the same value, in whichever form the descriptor comes.
-/
theorem ofWire_payload_descriptor (tv : TypedValue) :
    ofWire tv.payload (.descriptor tv.descriptor) = .ok tv ∧
      ∃ m, tv.descriptor.toMapping = .ok m ∧ ofWire tv.payload m = .ok tv := by
  have h : ofWire tv.payload (.descriptor tv.descriptor) = .ok tv := by
    rw [ofWire_descriptor]
    exact result_decode_eq_ok_iff.2 tv.writtenAs_payload
  refine ⟨h, _, tv.toMapping_descriptor, ?_⟩
  rw [ofWire_toMapping tv.payload tv.toMapping_descriptor, h]

/-- The payload as a document stores it. -/
def stored : TypedValue → Payload Value
  | .scalar _ v => .text v.content
  | .array _ items => .items (items.map .text)

/-- No lone surrogates stand in a scalar's literal, so that a document can hold it. The items of an
array are not looked at. -/
def IsEncodable (tv : TypedValue) : Prop := ∀ s, tv.value? = some s → s.isTorn = false

theorem read_payload_eq_ok_iff {tv : TypedValue} {p : Payload Value} :
    Payload.read tv.payload = .ok p ↔ tv.IsEncodable ∧ p = tv.stored := by
  cases tv with
  | scalar t v =>
    have hencodable : (TypedValue.scalar t v).IsEncodable ↔ v.isTorn = false := by
      simp [IsEncodable, value?]
    rw [hencodable, payload, stored]
    cases hv : v.isTorn <;>
      simp [Payload.read, Checked.string, Checked.list, Checked.refuse, Checked.fail, hv, eq_comm]
  | array t items =>
    have hencodable : (TypedValue.array t items).IsEncodable := nofun
    have hread : Payload.read (array t items).payload = .ok (array t items).stored := rfl
    simp [hencodable, hread, eq_comm]

/-- Documents hold their literals as plain strings. -/
theorem WrittenAs.isEncodable {tv : TypedValue} {p : Payload Value} {d : Descriptor}
    (h : tv.WrittenAs (.ofPayload p) d) : tv.IsEncodable := by
  rcases p with s | xs
  · cases h with
    | scalar t =>
      intro s' hs'
      cases hs'
      rfl
    | array t items h => cases h
  · cases h with
    | array t items h => exact nofun

end TypedValue

namespace Document

/-- The document of a typed value under a name. -/
def ofTyped (name : String) (tv : TypedValue) : Document Value := ⟨name, tv.descriptor, tv.stored⟩

/-- Reading the pair of a document and storing it again gives the document back. -/
theorem ofTyped_of_writtenAs {d : Document Value} {tv : TypedValue}
    (h : tv.WrittenAs (.ofPayload d.payload) d.type) : ofTyped d.name tv = d := by
  rcases d with ⟨name, type, s | xs⟩
  · cases h with
    | scalar t s => rfl
    | array t items h => cases h
  · cases h with
    | array t items h =>
      obtain rfl : xs = items.map .text := Option.some.inj h
      rfl

end Document
end TypedParams

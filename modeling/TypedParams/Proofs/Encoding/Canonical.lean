import TypedParams.Proofs.Base64
import TypedParams.Proofs.Calendar.Moment
import TypedParams.Proofs.Encoding.Acceptance
import TypedParams.Proofs.Temporal.Acceptance
import TypedParams.Proofs.Text.Decimal

/-! The languages of the scalar types. Main statement: every literal an encoder gives is in the
language of its type, timestamps of either origin in the same one. -/
namespace TypedParams

/-- The canonical literals of a type. -/
def ScalarType.IsCanonical (t : ScalarType) (s : String) : Prop :=
  match t with
  | .bool => s = "true" ∨ s = "false"
  | .int64 => ∃ n : Int, (-2 ^ 63 ≤ n ∧ n ≤ 2 ^ 63 - 1) ∧ Text.IsInteger s.toList n
  | .float64 => ∃ x : Binary64, s = x.text
  | .string => True
  | .bytes => ∃ bs, Base64.decode s.toList = some bs
  | .timestamp => TemporalType.timestamp.accepts s = true
  | .date => TemporalType.date.accepts s = true
  | .time => TemporalType.time.accepts s = true
  | .datetime => TemporalType.datetime.accepts s = true

theorem ScalarType.isCanonical_temporal {u : TemporalType} {s : String} :
    u.scalar.IsCanonical s ↔ u.accepts s = true := by
  cases u <;> rfl

theorem ScalarType.isCanonical_base64 (bs : List UInt8) :
    ScalarType.bytes.IsCanonical (String.ofList (Base64.encode bs)) := by
  refine ⟨bs, ?_⟩
  rw [String.toList_ofList, Base64.decode_encode]

/-- The literal of an instant is one that is accepted as a string. -/
theorem Timestamp.accepts_ofInstant {n : Int} (h : leastInstant ≤ n ∧ n ≤ greatestInstant) :
    TemporalType.timestamp.accepts (String.ofList (ofInstant n).literal) = true := by
  have hutc : Offset.utc.Valid := by decide
  have hvalid : (ofInstant n).Valid := ⟨(Moment.ofInstant_spec h).1, hutc⟩
  exact TemporalType.accepts_timestamp_iff.2 ⟨ofInstant n, hvalid, String.toList_ofList⟩

theorem Encoder.HasLiteral.isCanonical {t : ScalarType} {v : Value} {s : String}
    (h : HasLiteral t v s) : t.IsCanonical s := by
  cases h with
  | bool b =>
    cases b
    · exact .inr rfl
    · exact .inl rfl
  | int64 g h => exact ⟨_, h, Text.isInteger_toString _⟩
  | float64 x g => exact ⟨x, rfl⟩
  | string t => exact trivial
  | bytes bs g => exact ScalarType.isCanonical_base64 bs
  | buffer bs => exact ScalarType.isCanonical_base64 bs
  | instant g h => exact Timestamp.accepts_ofInstant h
  | temporal u h => exact ScalarType.isCanonical_temporal.2 h

end TypedParams

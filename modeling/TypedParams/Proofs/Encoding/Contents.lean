import TypedParams.Proofs.Base64
import TypedParams.Proofs.Encoding.Plain
import TypedParams.Proofs.Temporal.Instants
import TypedParams.Proofs.Text.Decimal

/-! What literals say. Main statement: the literal of a value in a type gives back the content of
the value, for every type but that of floats. -/
namespace TypedParams

/-- What a value says in its kind, whatever its class, and whether or not its bytes can change. -/
def Value.content : Value → Value
  | .bytes bs _ | .buffer bs => .bytes bs none
  | v => v.plain

/-- The content that a text gives as a literal: truth values by their names, integers in decimal,
bytes in base64, and strings as they stand. -/
def ScalarType.read? (t : ScalarType) (s : String) : Option Value :=
  match t with
  | .bool =>
    if s = "true" then some (.bool true) else if s = "false" then some (.bool false) else none
  | .int64 => (Text.integer? s.toList).map (.int · none)
  | .float64 => none
  | .bytes => (Base64.decode s.toList).map (.bytes · none)
  | .string | .timestamp | .date | .time | .datetime => some (.str s)

theorem ScalarType.read?_temporal (u : TemporalType) (s : String) :
    u.scalar.read? s = some (.str s) := by
  cases u <;> rfl

theorem ScalarType.read?_bytes (bs : List UInt8) :
    ScalarType.bytes.read? (String.ofList (Base64.encode bs)) = some (.bytes bs none) := by
  rw [read?, String.toList_ofList, Base64.decode_encode, Option.map_some]

theorem encodeScalar_builtIn {type : Value} {t : ScalarType} (h : type.Names (.scalar t))
    (v : Value) :
    encodeScalar .builtIn v type = (Encoder.builtIn t).run v := by
  rw [encodeScalar, LogicalType.ofValue_eq_ok_iff.2 h]
  exact Registry.encode_builtIn_scalar v t

theorem encodeScalar_builtIn_eq_ok_iff {v type : Value} {t : ScalarType} {s : String}
    (h : type.Names (.scalar t)) :
    encodeScalar .builtIn v type = .ok s ↔ Encoder.HasLiteral t v s := by
  rw [encodeScalar_builtIn h, Encoder.run_builtIn_eq_ok_iff]

namespace Encoder

/-- Instants apart, literals are read back. -/
theorem HasLiteral.read?_eq {t : ScalarType} {v : Value} {s : String} (h : HasLiteral t v s)
    (hfloat : t ≠ .float64) (hinstant : t = .timestamp → v.kind? = some .str) :
    t.read? s = some v.content := by
  cases h with
  | bool b => cases b <;> rfl
  | @int64 n g h =>
    rw [ScalarType.read?, Text.integer?_toString, Option.map_some]
    rfl
  | float64 x g => exact absurd rfl hfloat
  | string t => rfl
  | bytes bs g => exact ScalarType.read?_bytes bs
  | buffer bs => exact ScalarType.read?_bytes bs
  | instant g h => cases hinstant rfl
  | temporal u h => exact ScalarType.read?_temporal u _

theorem HasLiteral.denotes_iff {n : Int} {g : Option Guise} {s : String}
    (h : HasLiteral .timestamp (.int n g) s) {n' : Int} : Timestamp.Denotes s n' ↔ n' = n := by
  -- the index of the temporal literals is computed, which a case split does not see through
  generalize ht : ScalarType.timestamp = t at h
  cases h with
  | int64 _ _ => cases ht
  | instant _ h => exact Timestamp.denotes_ofInstant h

/-- A value with a timestamp is an instant or a string. -/
theorem HasLiteral.timestamp_cases {v : Value} {s : String} (h : HasLiteral .timestamp v s) :
    (∃ n g, v = .int n g) ∨ v.kind? = some .str := by
  generalize ht : ScalarType.timestamp = t at h
  cases h with
  | instant g _ => exact .inl ⟨_, g, rfl⟩
  | temporal u _ => exact .inr rfl
  | _ => cases ht

/-- Values of one kind with the same timestamp have the same content: an instant is the one that its
literal denotes. -/
theorem HasLiteral.content_eq_of_timestamp {v w : Value} {s : String}
    (hv : HasLiteral .timestamp v s) (hw : HasLiteral .timestamp w s) (hkind : v.kind? = w.kind?) :
    v.content = w.content := by
  rcases hv.timestamp_cases with ⟨n, g, rfl⟩ | hstr
  · rcases hw.timestamp_cases with ⟨n', g', rfl⟩ | hstr'
    · have hsame : n = n' := hw.denotes_iff.1 (hv.denotes_iff.2 rfl)
      rw [hsame]
      rfl
    · cases hkind.trans hstr'
  · have hread := hv.read?_eq (by decide) fun _ => hstr
    have hread' := hw.read?_eq (by decide) fun _ => hkind ▸ hstr
    exact Option.some.inj (hread.symm.trans hread')

end Encoder

/-- Literals lose nothing. Read as their type has it, they give back the content of the value they
were made from, of whatever class it is: a number, a truth value, the bytes, or the very characters
of a string. The timestamp of an instant denotes that instant only. So accepted values with one
literal have one content, where an instant and a string are told apart under the type of timestamps.
Bytes of any number have a literal, whether or not they can change. -/
theorem encodeScalar_determines_content {type : Value} {t : ScalarType}
    (htype : type.Names (.scalar t)) (hfloat : t ≠ .float64) :
    (∀ v s, encodeScalar .builtIn v type = .ok s → (t = .timestamp → v.kind? = some .str) →
      t.read? s = some v.content) ∧
    (t = .timestamp → ∀ n g s, encodeScalar .builtIn (.int n g) type = .ok s →
      ∀ n', Timestamp.Denotes s n' ↔ n' = n) ∧
    (∀ v w s, encodeScalar .builtIn v type = .ok s → encodeScalar .builtIn w type = .ok s →
      (t = .timestamp → v.kind? = w.kind?) → v.content = w.content) ∧
    (t = .bytes → ∀ bs g, ∃ s, encodeScalar .builtIn (.bytes bs g) type = .ok s ∧
      encodeScalar .builtIn (.buffer bs) type = .ok s ∧ Base64.decode s.toList = some bs ∧
      s.length = 4 * ((bs.length + 2) / 3)) := by
  simp only [encodeScalar_builtIn_eq_ok_iff htype]
  refine ⟨?reads, ?denotes, ?determines, ?bytes⟩
  case reads =>
    intro v s hs hinstant
    exact hs.read?_eq hfloat hinstant
  case denotes =>
    intro ht n g s hs n'
    obtain rfl := ht
    exact hs.denotes_iff
  case determines =>
    intro v w s hv hw hkind
    by_cases ht : t = .timestamp
    · obtain rfl := ht
      exact hv.content_eq_of_timestamp hw (hkind rfl)
    · have hread := hv.read?_eq hfloat fun h => absurd h ht
      have hread' := hw.read?_eq hfloat fun h => absurd h ht
      exact Option.some.inj (hread.symm.trans hread')
  case bytes =>
    intro ht bs g
    obtain rfl := ht
    refine ⟨_, .bytes bs g, .buffer bs, ?_, ?_⟩
    · rw [String.toList_ofList, Base64.decode_encode]
    · rw [String.length_ofList, Base64.length_encode]

/-- The least integer, read back from its literal. -/
theorem encodeScalar_determines_content_least :
    ∃ s, encodeScalar .builtIn (.int (-2 ^ 63) none) (.str "INT64") = .ok s ∧
      ScalarType.int64.read? s = some (.int (-2 ^ 63) none) := by
  have htype : (Value.str "INT64").Names (.scalar .int64) := ⟨_, rfl, rfl⟩
  have hs : encodeScalar .builtIn (.int (-2 ^ 63) none) (.str "INT64") =
      .ok (toString (-2 ^ 63 : Int)) := rfl
  exact ⟨_, hs, (encodeScalar_determines_content htype (by decide)).1 _ _ hs nofun⟩

end TypedParams

import Mathlib.Algebra.Ring.Int.Defs
import TypedParams.Encoding.Registry
import TypedParams.Proofs.Calendar.Moment
import TypedParams.Proofs.Token

/-! Which host values have a literal in which type. Main statement: encoding finds exactly these
literals, and the cause of a refusal follows from the type and the kind of the value. -/
namespace TypedParams

theorem TemporalType.validate_eq_ok_iff {u : TemporalType} {s s' : String} :
    u.validate s = .ok s' ↔ u.accepts s = true ∧ s' = s := by
  unfold validate
  split_ifs with h
  · simp [h, eq_comm]
  · simp [h]

/-- Instants of the calendar have a literal: none of them is too far from the epoch. -/
theorem Timestamp.ofMicros_eq (n : Int) :
    ofMicros n = if leastInstant ≤ n ∧ n ≤ greatestInstant then
      .ok (String.ofList (ofInstant n).literal)
    else if Text.isWritable n then
      .error (.timestampOutOfRange (toString n) leastInstant greatestInstant)
    else .error .unwritableNumber := by
  unfold ofMicros
  split_ifs with h
  · rw [Moment.plus?_epoch h]
    rfl
  · rfl
  · rfl

theorem Timestamp.ofMicros_eq_ok_iff {n : Int} {s : String} :
    ofMicros n = .ok s ↔ (leastInstant ≤ n ∧ n ≤ greatestInstant) ∧
      s = String.ofList (ofInstant n).literal := by
  rw [ofMicros_eq]
  split_ifs with h
  · simp [h, eq_comm]
  · simp [h]
  · simp [h]

/-- An integer of more digits than are written out. -/
def Value.IsTooLong (v : Value) : Prop := ∃ n g, v = .int n g ∧ Text.isWritable n = false

theorem Value.isTooLong_of_isShowable {n : Int} {g : Option Guise}
    (h : (Value.int n g).isShowable = false) : (Value.int n g).IsTooLong := by
  refine ⟨n, g, rfl, ?_⟩
  simp only [isShowable, isQuotable, Bool.or_eq_false_iff] at h
  exact h.2.2

namespace Encoder

/-- The literals of host values in a type. Whether a value has one depends on its kind and content
only, not on its class. -/
inductive HasLiteral : ScalarType → Value → String → Prop
  | bool (b : Bool) : HasLiteral .bool (.bool b) (if b then "true" else "false")
  | int64 {n : Int} (g : Option Guise) (h : -2 ^ 63 ≤ n ∧ n ≤ 2 ^ 63 - 1) :
      HasLiteral .int64 (.int n g) (toString n)
  | float64 (x : Binary64) (g : Option Guise) : HasLiteral .float64 (.float x g) x.text
  | string (t : Text) : HasLiteral .string (.text t) t.content
  | bytes (bs : List UInt8) (g : Option Guise) :
      HasLiteral .bytes (.bytes bs g) (String.ofList (Base64.encode bs))
  | buffer (bs : List UInt8) : HasLiteral .bytes (.buffer bs) (String.ofList (Base64.encode bs))
  | instant {n : Int} (g : Option Guise) (h : leastInstant ≤ n ∧ n ≤ greatestInstant) :
      HasLiteral .timestamp (.int n g) (String.ofList (Timestamp.ofInstant n).literal)
  | temporal (u : TemporalType) {t : Text} (h : u.accepts t.content = true) :
      HasLiteral u.scalar (.text t) t.content

/-- A string under a temporal type of whose literals it is none. -/
def IsRejected (t : ScalarType) (v : Value) : Prop :=
  ∃ (u : TemporalType) (s : Text), t = u.scalar ∧ v = .text s ∧ u.accepts s.content = false

theorem run_builtIn_temporal (u : TemporalType) (t : Text) :
    (builtIn u.scalar).run (.text t) = u.validate t.content := by
  cases u <;> rfl

theorem HasLiteral.run {t : ScalarType} {v : Value} {s : String} (h : HasLiteral t v s) :
    (builtIn t).run v = .ok s := by
  cases h with
  | bool b => rfl
  | int64 g h => exact if_pos h
  | float64 x g => rfl
  | string t => rfl
  | bytes bs g => rfl
  | buffer bs => rfl
  | instant g h => exact Timestamp.ofMicros_eq_ok_iff.2 ⟨h, rfl⟩
  | @temporal u t h =>
    rw [run_builtIn_temporal]
    exact TemporalType.validate_eq_ok_iff.2 ⟨h, rfl⟩

theorem hasLiteral_of_literal {name : String} {u : TemporalType} {v : Value} {s : String}
    (h : (literal name u).run v = .ok s) : HasLiteral u.scalar v s := by
  cases v <;> try cases h
  case text t =>
    obtain ⟨hu, rfl⟩ := TemporalType.validate_eq_ok_iff.1 h
    exact .temporal u hu

theorem hasLiteral_of_timestamp {v : Value} {s : String} (h : timestamp.run v = .ok s) :
    HasLiteral .timestamp v s := by
  cases v <;> try cases h
  case int n g =>
    obtain ⟨hn, rfl⟩ := Timestamp.ofMicros_eq_ok_iff.1 h
    exact .instant g hn
  case text t =>
    obtain ⟨hu, rfl⟩ := TemporalType.validate_eq_ok_iff.1 h
    exact .temporal .timestamp hu

theorem hasLiteral_of_int64 {v : Value} {s : String} (h : int64.run v = .ok s) :
    HasLiteral .int64 v s := by
  cases v <;> try cases h
  case int n g =>
    simp only [int64] at h
    split_ifs at h with hn
    cases h
    exact .int64 g hn

theorem hasLiteral_of_run {t : ScalarType} {v : Value} {s : String}
    (h : (builtIn t).run v = .ok s) : HasLiteral t v s := by
  cases t with
  | bool => cases v <;> cases h; exact .bool _
  | int64 => exact hasLiteral_of_int64 h
  | float64 => cases v <;> cases h; exact .float64 _ _
  | string => cases v <;> cases h; exact .string _
  | bytes =>
    cases v <;> cases h
    · exact .bytes _ _
    · exact .buffer _
  | timestamp => exact hasLiteral_of_timestamp h
  | date => exact hasLiteral_of_literal h
  | time => exact hasLiteral_of_literal h
  | datetime => exact hasLiteral_of_literal h

theorem run_builtIn_eq_ok_iff {t : ScalarType} {v : Value} {s : String} :
    (builtIn t).run v = .ok s ↔ HasLiteral t v s :=
  ⟨hasLiteral_of_run, HasLiteral.run⟩

/-! ### Refusals -/

/-- A refusal of a value as a type: its cause tells a rejected string from all else. An integer that
is too long to be shown has no refusal of its own. -/
def RefusedFor (t : ScalarType) (v : Value) (e : Error) : Prop :=
  e.kind = .malformedLiteral ∧ IsRejected t v ∨ e.kind = .typeMismatch ∧ ¬IsRejected t v ∨
    e = .unwritableNumber ∧ v.IsTooLong

theorem kind_of_mismatch {t : LogicalType} {v : Value} {e : Error} (h : mismatch t v = .error e) :
    e.kind = .typeMismatch := by
  cases h
  rfl

theorem not_isRejected_of_not_text {t : ScalarType} {v : Value} (h : ∀ s, v ≠ .text s) :
    ¬IsRejected t v := by
  intro hv
  obtain ⟨-, s, -, hs, -⟩ := hv
  exact h s hs

theorem not_isRejected_string (v : Value) : ¬IsRejected .string v := by
  intro h
  obtain ⟨u, s, hu, -, -⟩ := h
  cases u <;> cases hu

theorem isRejected_scalar_iff {u : TemporalType} {t : Text} :
    IsRejected u.scalar (.text t) ↔ u.accepts t.content = false := by
  constructor
  · intro h
    obtain ⟨u', s, hu, hs, hrejected⟩ := h
    have hsame : u = u' := by cases u <;> cases u' <;> first | rfl | cases hu
    rw [hsame, Value.text.inj hs]
    exact hrejected
  · intro h
    exact ⟨u, t, rfl, rfl, h⟩

theorem refusedFor_of_validate {u : TemporalType} {s : Text} {e : Error}
    (h : u.validate s.content = .error e) : RefusedFor u.scalar (.text s) e := by
  unfold TemporalType.validate at h
  split_ifs at h with hu
  cases h
  exact .inl ⟨rfl, u, s, rfl, rfl, by simpa using hu⟩

theorem refusedFor_of_literal {name : String} {u : TemporalType} {v : Value} {e : Error}
    (h : (literal name u).run v = .error e) : RefusedFor u.scalar v e := by
  cases v
  case text s => exact refusedFor_of_validate h
  all_goals exact .inr (.inl ⟨kind_of_mismatch h, not_isRejected_of_not_text (by simp)⟩)

theorem refusedFor_of_timestamp {v : Value} {e : Error} (h : timestamp.run v = .error e) :
    RefusedFor .timestamp v e := by
  cases v
  case text s => exact refusedFor_of_validate h
  case int n g =>
    simp only [timestamp, Timestamp.ofMicros_eq] at h
    split_ifs at h with _ hwritable
    · cases h
      exact .inr (.inl ⟨rfl, not_isRejected_of_not_text (by simp)⟩)
    · cases h
      exact .inr (.inr ⟨rfl, n, g, rfl, by simpa using hwritable⟩)
  all_goals exact .inr (.inl ⟨kind_of_mismatch h, not_isRejected_of_not_text (by simp)⟩)

theorem kind_of_int64 {v : Value} {e : Error} (h : int64.run v = .error e) :
    e.kind = .typeMismatch ∨ e = .unwritableNumber ∧ v.IsTooLong := by
  cases v
  case int n g =>
    simp only [int64] at h
    split_ifs at h
    rcases Value.eq_showing_iff.1 (Except.error.inj h).symm with ⟨-, rfl⟩ | ⟨hlong, rfl⟩
    · exact .inl rfl
    · exact .inr ⟨rfl, Value.isTooLong_of_isShowable hlong⟩
  all_goals exact .inl (kind_of_mismatch h)

/-- The types that have no temporal literals refuse by the kind or the range of the value. -/
theorem kind_of_run {t : ScalarType} (ht : ∀ u : TemporalType, t ≠ u.scalar) {v : Value} {e : Error}
    (h : (builtIn t).run v = .error e) :
    e.kind = .typeMismatch ∨ e = .unwritableNumber ∧ v.IsTooLong := by
  cases t with
  | bool => exact .inl (by cases v <;> first | exact kind_of_mismatch h | cases h)
  | int64 => exact kind_of_int64 h
  | float64 => exact .inl (by cases v <;> first | exact kind_of_mismatch h | cases h)
  | string => exact .inl (by cases v <;> first | exact kind_of_mismatch h | cases h)
  | bytes => exact .inl (by cases v <;> first | exact kind_of_mismatch h | cases h)
  | timestamp => exact absurd rfl (ht .timestamp)
  | date => exact absurd rfl (ht .date)
  | time => exact absurd rfl (ht .time)
  | datetime => exact absurd rfl (ht .datetime)

theorem refusedFor_of_run {t : ScalarType} {v : Value} {e : Error}
    (h : (builtIn t).run v = .error e) : RefusedFor t v e := by
  by_cases ht : ∃ u : TemporalType, t = u.scalar
  · obtain ⟨u, rfl⟩ := ht
    cases u with
    | timestamp => exact refusedFor_of_timestamp h
    | date => exact refusedFor_of_literal h
    | time => exact refusedFor_of_literal h
    | datetime => exact refusedFor_of_literal h
  · rcases kind_of_run (not_exists.1 ht) h with hkind | hlong
    · refine .inr (.inl ⟨hkind, ?_⟩)
      intro hv
      obtain ⟨u, -, hu, -⟩ := hv
      exact ht ⟨u, hu⟩
    · exact .inr (.inr hlong)

end Encoder

theorem Registry.get_builtIn (t : ScalarType) :
    builtIn.get (.scalar t) = .ok (Encoder.builtIn t) := by
  cases t <;> rfl

theorem Registry.encode_builtIn_scalar (v : Value) (t : ScalarType) :
    builtIn.encode v (.scalar t) = (Encoder.builtIn t).run v := by
  rw [encode, get_builtIn]
  rfl

theorem Registry.encode_of_isComposite (r : Registry) (v : Value) {t : LogicalType}
    (h : t.isComposite = true) : r.encode v t = .error (.compositeScalar t) := if_pos h

theorem LogicalType.isComposite_or_scalar (t : LogicalType) :
    t.isComposite = true ∨ ∃ s, t = .scalar s := by
  cases t with
  | scalar s => exact .inr ⟨s, rfl⟩
  | array => exact .inl rfl
  | struct => exact .inl rfl

/-- Encoding gives the literals of host values and no others. A refusal is for an unknown token, a
composite type, a string that is no literal of its temporal type, or a mismatch, in this order; it
can fail to be worded for a type that cannot be quoted or an integer that is too long. -/
theorem encodeScalar_gives_literals (v type : Value) :
    (∀ s, encodeScalar .builtIn v type = .ok s ↔
      ∃ t : ScalarType, type.Names (.scalar t) ∧ Encoder.HasLiteral t v s) ∧
    ∀ e, encodeScalar .builtIn v type = .error e →
      e.kind = .unknownType ∧ (∀ t, ¬type.Names t) ∨
      e.kind = .unsupportedType ∧ (∃ t, type.Names t ∧ t.isComposite = true) ∨
      e.kind = .malformedLiteral ∧
        (∃ t : ScalarType, type.Names (.scalar t) ∧ Encoder.IsRejected t v) ∨
      e.kind = .typeMismatch ∧
        (∃ t : ScalarType, type.Names (.scalar t) ∧ ¬Encoder.IsRejected t v) ∨
      e = .unwritableNumber ∧ (type.isQuotable = false ∨ v.IsTooLong) := by
  constructor
  · intro s
    rw [encodeScalar, bind_eq_ok_iff]
    constructor
    · intro h
      obtain ⟨t, ht, h⟩ := h
      rcases t.isComposite_or_scalar with hc | ⟨t, rfl⟩
      · rw [Registry.encode_of_isComposite _ _ hc] at h
        cases h
      · rw [Registry.encode_builtIn_scalar, Encoder.run_builtIn_eq_ok_iff] at h
        exact ⟨t, LogicalType.ofValue_eq_ok_iff.1 ht, h⟩
    · intro h
      obtain ⟨t, ht, h⟩ := h
      refine ⟨.scalar t, LogicalType.ofValue_eq_ok_iff.2 ht, ?_⟩
      rw [Registry.encode_builtIn_scalar]
      exact h.run
  · intro e h
    rcases bind_eq_error_iff.1 h with htype | ⟨t, ht, h⟩
    · obtain ⟨he, hnames⟩ := LogicalType.error_of_ofValue htype
      rcases Value.eq_quoting_iff.1 he with ⟨-, rfl⟩ | ⟨hlong, rfl⟩
      · exact .inl ⟨rfl, hnames⟩
      · exact .inr (.inr (.inr (.inr ⟨rfl, .inl hlong⟩)))
    rw [LogicalType.ofValue_eq_ok_iff] at ht
    rcases t.isComposite_or_scalar with hc | ⟨t, rfl⟩
    · rw [Registry.encode_of_isComposite _ _ hc] at h
      cases h
      exact .inr (.inl ⟨rfl, t, ht, hc⟩)
    · rw [Registry.encode_builtIn_scalar] at h
      rcases Encoder.refusedFor_of_run h with ⟨hkind, hv⟩ | ⟨hkind, hv⟩ | ⟨he, hlong⟩
      · exact .inr (.inr (.inl ⟨hkind, t, ht, hv⟩))
      · exact .inr (.inr (.inr (.inl ⟨hkind, t, ht, hv⟩)))
      · exact .inr (.inr (.inr (.inr ⟨he, .inr hlong⟩)))

example : encodeScalar .builtIn (.int (2 ^ 63) none) (.str "INT64") =
    .error (.intOutOfRange "9223372036854775808" (-2 ^ 63) (2 ^ 63 - 1)) := rfl

end TypedParams

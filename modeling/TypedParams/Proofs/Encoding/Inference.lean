import TypedParams.Proofs.Encoding.Plain
import TypedParams.Proofs.Text.Decimal

/-! Types by class. Main statement: the type of a value's class follows from the kind of the value,
and takes the values of that kind, of the integers those that fit. -/
namespace TypedParams

/-- The type that stands for a kind; bytes need a type given. -/
def NativeKind.scalarType? : NativeKind → Option ScalarType
  | .bool => some .bool
  | .int => some .int64
  | .float => some .float64
  | .str => some .string
  | .bytes => none

theorem NativeKind.exists_scalarType?_iff {k : NativeKind} :
    (∃ u, k.scalarType? = some u) ↔ k ∈ [NativeKind.bool, .int, .float, .str] := by
  cases k <;> simp [scalarType?]

namespace Value

/-- Integers have to fit in 64 bits, the sign included. -/
def FitsInt64 (v : Value) : Prop := ∀ n g, v = .int n g → -2 ^ 63 ≤ n ∧ n ≤ 2 ^ 63 - 1

/-- A kind that has a type of its own. -/
def HasMappedKind (v : Value) : Prop :=
  ∃ k ∈ [NativeKind.bool, .int, .float, .str], v.kind? = some k

/-- A value stands for a type by its name, or as a class for the type of its instances. -/
inductive StandsFor : Value → LogicalType → Prop
  | name {v : Value} {t : LogicalType} (h : v.Names t) : StandsFor v t
  | cls {c : Class} {u : ScalarType} (members : List Text) (h : c.scalarType? = some u) :
      StandsFor (.classRef c members) (.scalar u)

theorem fitsInt64_int_iff {n : Int} {g : Option Guise} :
    (Value.int n g).FitsInt64 ↔ -2 ^ 63 ≤ n ∧ n ≤ 2 ^ 63 - 1 := by
  constructor
  · intro h
    exact h n g rfl
  · intro h n' g' hv
    cases hv
    exact h

/-- An integer that fits has few digits. -/
theorem FitsInt64.isWritable {n : Int} {g : Option Guise} (h : (Value.int n g).FitsInt64) :
    Text.isWritable n = true := by
  rw [fitsInt64_int_iff] at h
  have hdigits : n.natAbs < 10 ^ 19 := by omega
  exact Text.isWritable_of_natAbs_lt hdigits (by decide)

theorem scalarType?_cls (v : Value) : v.cls.scalarType? = v.kind?.bind NativeKind.scalarType? := by
  cases v with
  | classRef c members => cases members <;> rfl
  | _ => rfl

end Value

theorem Class.inferType_eq_ok_iff {c : Class} {t : LogicalType} :
    c.inferType = .ok t ↔ ∃ u, c.scalarType? = some u ∧ t = .scalar u := by
  unfold inferType
  cases c.scalarType? with
  | none => simp
  | some u => simp [eq_comm]

theorem Class.error_of_inferType {c : Class} {e : Error} (h : c.inferType = .error e) :
    e = .unsupportedClass c.name.qualified := by
  unfold inferType at h
  split at h
  · cases h
  · exact (Except.error.inj h).symm

theorem Value.inferType_cls_eq_ok_iff {v : Value} {t : LogicalType} :
    v.cls.inferType = .ok t ↔
      ∃ k u, v.kind? = some k ∧ k.scalarType? = some u ∧ t = .scalar u := by
  rw [Class.inferType_eq_ok_iff]
  simp only [Value.scalarType?_cls, Option.bind_eq_some_iff]
  constructor
  · intro h
    obtain ⟨u, ⟨k, hkind, hk⟩, ht⟩ := h
    exact ⟨k, u, hkind, hk, ht⟩
  · intro h
    obtain ⟨k, u, hkind, hk, ht⟩ := h
    exact ⟨u, ⟨k, hkind, hk⟩, ht⟩

theorem Value.exists_inferType_cls_iff {v : Value} :
    (∃ t, v.cls.inferType = .ok t) ↔ v.HasMappedKind := by
  simp only [inferType_cls_eq_ok_iff, HasMappedKind]
  constructor
  · intro h
    obtain ⟨t, k, u, hkind, hk, -⟩ := h
    exact ⟨k, NativeKind.exists_scalarType?_iff.1 ⟨u, hk⟩, hkind⟩
  · intro h
    obtain ⟨k, hmem, hkind⟩ := h
    obtain ⟨u, hk⟩ := NativeKind.exists_scalarType?_iff.2 hmem
    exact ⟨.scalar u, k, u, hkind, hk, rfl⟩

theorem LogicalType.resolve_eq_ok_iff {v : Value} {t : LogicalType} :
    resolve v = .ok t ↔ v.StandsFor t := by
  constructor
  · intro h
    cases v with
    | text s => exact .name (ofValue_eq_ok_iff.1 h)
    | classRef c members =>
      obtain ⟨u, hu, rfl⟩ := Class.inferType_eq_ok_iff.1 h
      exact .cls members hu
    | _ => cases h
  · intro h
    cases h with
    | name h =>
      obtain ⟨s, rfl, hs⟩ := h
      exact ofValue_eq_ok_iff.2 ⟨s, rfl, hs⟩
    | cls members h => exact Class.inferType_eq_ok_iff.2 ⟨_, h, rfl⟩

theorem Value.StandsFor.ne_null {v : Value} {t : LogicalType} (h : v.StandsFor t) :
    v.isNull = false := by
  cases h with
  | name h =>
    obtain ⟨s, rfl, -⟩ := h
    rfl
  | cls members h => rfl

namespace Encoder

theorem kind?_of_hasLiteral {k : NativeKind} {u : ScalarType} {v : Value} {s : String}
    (hk : k.scalarType? = some u) (h : HasLiteral u v s) : v.kind? = some k ∧ v.FitsInt64 := by
  cases h with
  | bool b => cases k <;> cases hk; exact ⟨rfl, nofun⟩
  | int64 g hn =>
    cases k <;> cases hk
    refine ⟨rfl, ?_⟩
    intro n' g' hv
    cases hv
    exact hn
  | float64 x g => cases k <;> cases hk; exact ⟨rfl, nofun⟩
  | string t => cases k <;> cases hk; exact ⟨rfl, nofun⟩
  | bytes bs g => cases k <;> cases hk
  | buffer bs => cases k <;> cases hk
  | instant g hn => cases k <;> cases hk
  | temporal u' ht => cases k <;> cases u' <;> cases hk

theorem exists_hasLiteral_of_kind? {k : NativeKind} {u : ScalarType} {v : Value}
    (hk : k.scalarType? = some u) (hkind : v.kind? = some k) (hfits : v.FitsInt64) :
    ∃ s, HasLiteral u v s := by
  cases v <;> cases hkind <;> cases hk
  case bool b => exact ⟨_, .bool b⟩
  case int n g => exact ⟨_, .int64 g (hfits n g rfl)⟩
  case float x g => exact ⟨_, .float64 x g⟩
  case text t => exact ⟨_, .string t⟩

/-- The type of a kind has literals for the values of that kind, and for no others. -/
theorem exists_hasLiteral_iff {k : NativeKind} {u : ScalarType} (hk : k.scalarType? = some u)
    {v : Value} : (∃ s, HasLiteral u v s) ↔ v.kind? = some k ∧ v.FitsInt64 := by
  constructor
  · intro h
    obtain ⟨s, hs⟩ := h
    exact kind?_of_hasLiteral hk hs
  · intro h
    exact exists_hasLiteral_of_kind? hk h.1 h.2

/-- The encoder of the type of a kind refuses no value of the kind but an integer that is too wide.
-/
theorem run_builtIn_eq_error_iff {k : NativeKind} {u : ScalarType} {v : Value} {e : Error}
    (hk : k.scalarType? = some u) (hkind : v.kind? = some k) :
    (builtIn u).run v = .error e ↔
      ¬v.FitsInt64 ∧ e = v.showing (.intOutOfRange · leastInt64 greatestInt64) := by
  have hfits : (∀ n g, v ≠ .int n g) → v.FitsInt64 := fun hint n g hv => absurd hv (hint n g)
  cases v <;> cases hkind <;> cases hk
  case int n g =>
    have hrun : (builtIn .int64).run (.int n g) = if -2 ^ 63 ≤ n ∧ n ≤ 2 ^ 63 - 1 then
        .ok (toString n)
      else .error ((Value.int n g).showing (.intOutOfRange · leastInt64 greatestInt64)) := rfl
    rw [hrun, Value.fitsInt64_int_iff]
    split_ifs with hn
    · exact ⟨nofun, fun h => absurd hn h.1⟩
    · rw [Except.error.injEq, eq_comm]
      exact (and_iff_right hn).symm
  all_goals simp [builtIn, bool, float64, string, hfits]

end Encoder
end TypedParams

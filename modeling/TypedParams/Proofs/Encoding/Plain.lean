import TypedParams.Encoding.Inference
import TypedParams.Proofs.Encoding.Acceptance
import TypedParams.Proofs.Outcome

/-! Values of application classes. Main statement: typed values are made from the content of host
values, and their classes only word the refusals. -/
namespace TypedParams
namespace Value

/-- The value without its application class. -/
def plain : Value → Value
  | .int n _ => .int n none
  | .float x _ => .float x none
  | .text t => .str t.content
  | v => v

/-- Whether an integer is too long to be written out, so that only a text of its class can show it.
-/
def isAbridged : Value → Bool
  | .int n g => !Text.isWritable n && (Value.int n g).isShowable
  | _ => false

theorem isShowable_plain_int {n : Int} {g : Option Guise}
    (h : (Value.int n g).isAbridged = false) :
    (Value.int n none).isShowable = (Value.int n g).isShowable := by
  rw [isShowable_int]
  cases hwritable : Text.isWritable n with
  | true => simp [isShowable, isQuotable, hwritable]
  | false =>
    rw [isAbridged, hwritable] at h
    simpa using h.symm

theorem plain_isNull (v : Value) : v.plain.isNull = v.isNull := by
  cases v <;> rfl

theorem plain_kinds (v : Value) : v.plain.cls.kinds = v.cls.kinds := by
  cases v <;> rfl

end Value

theorem outcome_showing_congr {v w : Value} (h : v.isShowable = w.isShowable)
    {refusal : String → Error} {k : ErrorKind} (hkind : ∀ s, (refusal s).kind = k) :
    outcome (.error (v.showing refusal) : Except Error α) =
      outcome (.error (w.showing refusal)) := by
  unfold outcome Value.showing
  rw [h]
  split_ifs
  · simp [Except.mapError, hkind]
  · rfl

/-- Encoders look at the content of a value; its class only words a refusal, if it has words for an
integer that is too long. -/
theorem Encoder.outcome_run_plain (t : ScalarType) {v : Value} (h : v.isAbridged = false) :
    outcome ((builtIn t).run v.plain) = outcome ((builtIn t).run v) := by
  cases v with
  | int n g =>
    cases t with
    | int64 =>
      simp only [builtIn, int64, Value.plain]
      split_ifs
      · rfl
      · exact outcome_showing_congr (Value.isShowable_plain_int h) fun _ => rfl
    | _ => rfl
  | float x g => cases t <;> rfl
  | text s => cases t <;> rfl
  | _ => rfl

theorem Registry.outcome_encode_plain {v : Value} (h : v.isAbridged = false) (t : LogicalType) :
    outcome (builtIn.encode v.plain t) = outcome (builtIn.encode v t) := by
  rcases t.isComposite_or_scalar with hc | ⟨t, rfl⟩
  · rw [encode_of_isComposite _ _ hc, encode_of_isComposite _ _ hc]
  · rw [encode_builtIn_scalar, encode_builtIn_scalar, Encoder.outcome_run_plain t h]

theorem Class.outcome_inferType_congr {c d : Class} (h : c.kinds = d.kinds) :
    outcome c.inferType = outcome d.inferType := by
  unfold inferType scalarType?
  rw [h]
  split <;> rfl

namespace TypedValue

/-- A type as given; one that is left out is inferred. -/
def typeOr (type : Value) (inferred : Except Error LogicalType) : Except Error LogicalType :=
  if type.isNull then inferred else LogicalType.resolve type

def firstType : List Value → Except Error LogicalType
  | [] => .error .untypedEmptyArray
  | v :: _ => v.cls.inferType

theorem encodeAs_eq_bind (r : Registry) (v : Value) (t : LogicalType) :
    encodeAs r v t = (if v.isNull then .ok .null else (r.encode v t).map Value.str).bind
      fun literal => Fields.checkScalar literal t none := by
  unfold encodeAs
  split_ifs <;> rfl

theorem scalarOf_eq_bind (r : Registry) (v type : Value) :
    scalarOf r v type = (typeOr type v.cls.inferType).bind (encodeAs r v) := by
  unfold scalarOf typeOr
  split_ifs <;> rfl

theorem arrayOf_list_eq_bind (r : Registry) (vs : List Value) (type : Value) :
    arrayOf r (.list vs none) type = (typeOr type (firstType vs)).bind fun t =>
      (vs.mapM fun v => encodeAs r v t).bind fun elements =>
        Fields.checkArray .null (elements.map .typed) .array (some t) := by
  unfold arrayOf typeOr
  simp only [Value.items?]
  split_ifs
  · cases vs <;> rfl
  · rfl

theorem outcome_typeOr_congr (type : Value) {x y : Except Error LogicalType}
    (h : outcome x = outcome y) : outcome (typeOr type x) = outcome (typeOr type y) := by
  unfold typeOr
  split_ifs
  · exact h
  · rfl

theorem outcome_inferType_plain (v : Value) :
    outcome v.plain.cls.inferType = outcome v.cls.inferType :=
  Class.outcome_inferType_congr v.plain_kinds

theorem outcome_encodeAs_plain {v : Value} (h : v.isAbridged = false) (t : LogicalType) :
    outcome (encodeAs .builtIn v.plain t) = outcome (encodeAs .builtIn v t) := by
  rw [encodeAs_eq_bind, encodeAs_eq_bind, Value.plain_isNull]
  refine outcome_bind_congr ?_ fun _ => rfl
  split_ifs
  · rfl
  · rw [outcome_map, outcome_map, Registry.outcome_encode_plain h]

theorem outcome_scalarOf_plain {v : Value} (h : v.isAbridged = false) (type : Value) :
    outcome (scalarOf .builtIn v.plain type) = outcome (scalarOf .builtIn v type) := by
  have htype := outcome_typeOr_congr type (outcome_inferType_plain v)
  rw [scalarOf_eq_bind, scalarOf_eq_bind]
  exact outcome_bind_congr htype (outcome_encodeAs_plain h)

theorem outcome_arrayOf_plain {vs : List Value} (h : ∀ v ∈ vs, v.isAbridged = false)
    (type : Value) :
    outcome (arrayOf .builtIn (.list (vs.map Value.plain) none) type) =
      outcome (arrayOf .builtIn (.list vs none) type) := by
  have hfirst : outcome (firstType (vs.map Value.plain)) = outcome (firstType vs) := by
    cases vs with
    | nil => rfl
    | cons v vs => exact outcome_inferType_plain v
  have htype := outcome_typeOr_congr type hfirst
  have helements : ∀ t, outcome ((vs.map Value.plain).mapM fun v => encodeAs .builtIn v t) =
      outcome (vs.mapM fun v => encodeAs .builtIn v t) := by
    intro t
    apply outcome_mapM_congr
    rw [List.forall₂_map_left_iff, List.forall₂_same]
    intro v hv
    exact outcome_encodeAs_plain (h v hv) t
  rw [arrayOf_list_eq_bind, arrayOf_list_eq_bind]
  exact outcome_bind_congr htype fun t => outcome_bind_congr (helements t) fun _ => rfl

end TypedValue
end TypedParams

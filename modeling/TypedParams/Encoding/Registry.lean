import TypedParams.Encoding.Encoder
import TypedParams.Value.Access

/-! The table of encoders in force. -/
namespace TypedParams

/-- Encoders by scalar type, in the order of registration. -/
structure Registry where
  table : List (ScalarType × Encoder)

namespace Registry

def builtIn : Registry := ⟨ScalarType.all.map fun t => (t, Encoder.builtIn t)⟩

def clear : Registry := ⟨[]⟩

def find? (r : Registry) (t : ScalarType) : Option Encoder :=
  (r.table.find? fun e => e.1 = t).map (·.2)

def tryGet (r : Registry) (t : LogicalType) : Option Encoder := t.scalar?.bind r.find?

def get (r : Registry) (t : LogicalType) : Except Error Encoder :=
  match r.tryGet t with
  | some e => .ok e
  | none => .error (.noEncoder t)

/-- Scalar types without an encoder. -/
def missing (r : Registry) : List ScalarType := ScalarType.all.filter fun t => (r.find? t).isNone

/-- A type already in the table keeps its place. -/
def put (t : ScalarType) (e : Encoder) : List (ScalarType × Encoder) → List (ScalarType × Encoder)
  | [] => [(t, e)]
  | d :: ds => if d.1 = t then (t, e) :: ds else d :: put t e ds

/-- An occupied type is replaced only on request. -/
def register (r : Registry) (t : LogicalType) (e : Encoder) (overwrite : Bool) :
    Except Error Registry :=
  match t.scalar? with
  | none => .error (.compositeEncoder t)
  | some s =>
    match r.find? s, overwrite with
    | some holder, false => .error (.encoderTaken t holder.name)
    | _, _ => .ok ⟨put s e r.table⟩

theorem find?_put (t u : ScalarType) (e : Encoder) (ds : List (ScalarType × Encoder)) :
    find? ⟨put t e ds⟩ u = if t = u then some e else find? ⟨ds⟩ u := by
  induction ds with
  | nil => by_cases h : t = u <;> simp [put, find?, h]
  | cons d ds ih =>
    simp only [find?] at ih
    by_cases hd : d.1 = t
    · by_cases h : t = u <;> simp [put, find?, hd, h]
    · simp only [put, hd, if_false, find?, List.find?_cons]
      by_cases hu : d.1 = u
      · have : ¬t = u := fun x => hd (hu.trans x.symm)
        simp [hu, this]
      · simpa [hu] using ih

end Registry

/-- The literal of a host value as a type, by the encoder in force. -/
def Registry.encode (r : Registry) (v : Value) (t : LogicalType) : Except Error String :=
  if t.isComposite then .error (.compositeScalar t) else (r.get t).bind fun e => e.run v

/-- As `Registry.encode`, with the type given as a host value. -/
def encodeScalar (r : Registry) (v type : Value) : Except Error String :=
  (LogicalType.ofValue type).bind (r.encode v)

end TypedParams

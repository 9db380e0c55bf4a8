import TypedParams.Error

/-! Computations that report events and may fail; what was reported before a failure stays. -/
namespace TypedParams

/-- What the library reports about its work. -/
inductive Event where
  | decodedArray (element : LogicalType) (count : Nat)
  | decoded (names : List String)
  | encoded (names : List String)
  deriving DecidableEq

namespace Event

/-- The logger an event goes to. -/
def origin : Event → String
  | .decodedArray _ _ => "parambricks.codec"
  | .decoded _ | .encoded _ => "parambricks.parameters"

def message : Event → String
  | .decodedArray t n =>
    "Decoded ARRAY<" ++ t.token ++ "> parameter with " ++ toString n ++ " elements"
  | .decoded names =>
    "Decoded " ++ toString names.length ++ " query parameters: " ++ String.intercalate ", " names
  | .encoded names =>
    "Encoded " ++ toString names.length ++ " query parameters: " ++ String.intercalate ", " names

end Event

structure Traced (α : Type) where
  events : List Event
  result : Except Error α

namespace Traced

def pure (a : α) : Traced α := ⟨[], .ok a⟩

def bind (x : Traced α) (f : α → Traced β) : Traced β :=
  match x.result with
  | .ok a => ⟨x.events ++ (f a).events, (f a).result⟩
  | .error e => ⟨x.events, .error e⟩

instance : Monad Traced where
  pure := pure
  bind := bind

/-- A step that reports nothing. -/
def lift (x : Except Error α) : Traced α := ⟨[], x⟩

instance : MonadLift (Except Error) Traced := ⟨lift⟩

def report (e : Event) : Traced Unit := ⟨[e], .ok ()⟩

@[simp] theorem result_pure (a : α) : (Pure.pure a : Traced α).result = .ok a := rfl

@[simp] theorem result_bind (x : Traced α) (f : α → Traced β) :
    (x >>= f).result = x.result.bind fun a => (f a).result := by
  show (bind x f).result = _
  unfold bind
  cases x.result <;> rfl

@[simp] theorem result_lift (x : Except Error α) : (lift x).result = x := rfl

end Traced
end TypedParams

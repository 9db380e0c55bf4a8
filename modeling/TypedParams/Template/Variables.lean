import TypedParams.Error
import TypedParams.Template.Resolve

/-! Variables given as a host value, of which only mappings bind names. -/
namespace TypedParams.Template

/-- Whether `xs` stands somewhere in a text. -/
def occursIn (xs : List Char) : List Char → Bool
  | [] => xs.isEmpty
  | c :: cs => xs.isPrefixOf (c :: cs) || occursIn xs cs

/-- Ask a value that is no mapping for a name: what it holds it cannot give, and what cannot be
searched cannot be asked. -/
def ask (given : Value) (name : List Char) : Except Error Unit :=
  match given with
  | .text t => if occursIn name t.content.toList then .error .notMapping else .ok ()
  | .bytes _ _ | .buffer _ | .classRef _ _ => .error .notIterable
  | v =>
    match v.items? with
    | none => .error .notIterable
    | some xs =>
      if xs.any fun x => x.text?.any fun t => t.content = String.ofList name
      then .error .notMapping else .ok ()

/-- The names asked for, in order. The first question reads a stream to its end. -/
def asked (given v : Value) : List (List Char) :=
  match given with
  | .stream _ => (names v).take 1
  | _ => names v

/-- As `resolve`, with the variables in any value. -/
def resolveWith (given v : Value) : Except Error Value :=
  match given.entries? with
  | some es => .ok (resolve es v)
  | none => do
    (asked given v).forM (ask given)
    .ok (resolve [] v)

def Bindings.ofTexts (vs : List (String × String)) : Bindings :=
  vs.map fun v => (.str v.1, .str v.2)

/-- The bindings of a run put over default ones; where none are given the defaults stand alone. -/
def Bindings.overriddenBy (defaults : Bindings) (run : Value) : Except Error Bindings :=
  if !run.isTruthy then .ok defaults
  else match run.entries? with
    | some es => .ok (Value.putAll es defaults)
    | none => .error .notMapping

end TypedParams.Template

import TypedParams.TypedValue.Builder

/-! Builders called one step after the other, and the values they build. -/
namespace TypedParams

/-- A call of a builder. The arguments are as they stand when the call is made, and so is what the
live lists hold when a value is built. -/
inductive Builder.Call where
  | setValue (v : Value)
  | setElements (v : Value)
  | setType (v : Value)
  | setElementType (v : Value)
  | build (lists : String → List Value)

namespace Builder

def Call.isBuild : Call → Bool
  | .build _ => true
  | _ => false

/-- What a call leaves of the builder, and its answer, which is a value where one is built. A
refused setter leaves the builder as it was. -/
def call (b : Builder) : Call → Builder × Except Error (Option TypedValue)
  | .setValue v => (b.setValue v, .ok none)
  | .setElements v =>
    match b.setElements v with
    | .ok b' => (b', .ok none)
    | .error e => (b, .error e)
  | .setType v => (b.setType v, .ok none)
  | .setElementType v => (b.setElementType v, .ok none)
  | .build lists => (b.afterBuild, (b.build lists).map some)

end Builder

/-- Builders in the order they were made, and values, those that are built after the others. -/
structure Workbench where
  builders : List Builder
  values : List TypedValue

namespace Workbench

inductive Step where
  /-- A fresh builder. -/
  | new
  /-- A builder with the fields of the value of the given number. -/
  | derive (value : Nat)
  | call (builder : Nat) (c : Builder.Call)

/-- What a step leaves, and its answer. A number that nothing has does nothing. -/
def step (s : Workbench) : Step → Workbench × Except Error (Option TypedValue)
  | .new => ({ s with builders := s.builders ++ [.new] }, .ok none)
  | .derive value =>
    match s.values[value]? with
    | some tv => ({ s with builders := s.builders ++ [tv.toBuilder] }, .ok none)
    | none => (s, .ok none)
  | .call n c =>
    match s.builders[n]? with
    | some b =>
      let (b', answer) := b.call c
      let built := (answer.toOption.bind id).toList
      (⟨s.builders.set n b', s.values ++ built⟩, answer)
    | none => (s, .ok none)

def next (s : Workbench) (st : Step) : Workbench := (s.step st).1

/-- What steps leave, one after the other. -/
def run (s : Workbench) (steps : List Step) : Workbench := steps.foldl next s

end Workbench
end TypedParams

import TypedParams.Error

/-! The query id in force, and the tokens that put an earlier one back. -/
namespace TypedParams

/-- The id in force, and for each token handed out the id it restores, unless it is spent. -/
structure QueryScope where
  current : String
  tokens : List (Option String)

namespace QueryScope

/-- Outside any query the id is a dash. -/
def start : QueryScope := ⟨"-", []⟩

/-- Put an id in force. No id, or an empty one, changes nothing and yields no token. -/
def push (s : QueryScope) (id : Option String) : QueryScope × Option Nat :=
  match id with
  | none | some "" => (s, none)
  | some id => (⟨id, s.tokens ++ [some s.current]⟩, some s.tokens.length)

/-- Put back the id that was in force before the push of the token. -/
def reset (s : QueryScope) : Option Nat → Except Error QueryScope
  | none => .ok s
  | some i =>
    match s.tokens[i]? with
    | some (some id) => .ok ⟨id, s.tokens.set i none⟩
    | _ => .error .spentToken

end QueryScope
end TypedParams

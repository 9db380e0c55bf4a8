import TypedParams.Text.Digits
import TypedParams.Text.Ranges

/-! Patterns of texts. Where a pattern matches in several ways, the ways are ordered. -/
namespace TypedParams.Text

inductive Pattern where
  | nothing
  /-- One digit, of a value between the two. -/
  | digit (least greatest : Nat)
  | oneOf (cs : List Char)
  /-- One or more blanks, as many as possible. -/
  | blanks
  | seq (p q : Pattern)
  /-- One or the other, preferably the first. -/
  | alt (p q : Pattern)

namespace Pattern

def char (c : Char) : Pattern := oneOf [c]

def anyDigit : Pattern := digit 0 9

def digits (n : Nat) : List Pattern := List.replicate n anyDigit

/-- Patterns one after the other. -/
def row (ps : List Pattern) : Pattern := ps.foldr seq nothing

/-- One of some patterns, the earlier ones preferred. -/
def anyOf (ps : List Pattern) : Pattern := ps.foldr alt (oneOf [])

def optional (p : Pattern) : Pattern := alt p nothing

/-- As many digits as there are, up to a number of them. -/
def digitsUpTo : Nat → Pattern
  | 0 => nothing
  | n + 1 => optional (seq anyDigit (digitsUpTo n))

/-- The ways of matching at the front of a text, each with what it takes and what it leaves. -/
def ways : Pattern → List Char → List (List Char × List Char)
  | nothing, cs => [([], cs)]
  | digit least greatest, c :: cs =>
    match digit? c with
    | some n => if least ≤ n ∧ n ≤ greatest then [([c], cs)] else []
    | none => []
  | digit _ _, [] => []
  | oneOf ds, c :: cs => if c ∈ ds then [([c], cs)] else []
  | oneOf _, [] => []
  | blanks, cs =>
    ((List.range (cs.takeWhile isBlank).length).map fun n => cs.splitAt (n + 1)).reverse
  | seq p q, cs =>
    (p.ways cs).flatMap fun w => (q.ways w.2).map fun v => (w.1 ++ v.1, v.2)
  | alt p q, cs => p.ways cs ++ q.ways cs

/-- Whether a pattern can match a whole text. -/
def fits (p : Pattern) (cs : List Char) : Bool := (p.ways cs).any fun w => w.2.isEmpty

end Pattern
end TypedParams.Text

import TypedParams.Binary64.Shortest

/-! Text of a double: where the point goes and when an exponent is written. -/
namespace TypedParams.Binary64

/-- The choices of a float format. -/
structure Layout where
  leastPositional : Int
  greatestPositional : Int
  exponentWidth : Nat
  nan : String
  infinity : String

/-- Positional from 0.0001 up to below 10^16; otherwise a signed exponent of two digits or more. -/
def layout : Layout := ⟨-4, 15, 2, "nan", "inf"⟩

def zeros (n : Nat) : List Char := List.replicate n '0'

/-- Digits with a point after the leading one, and an exponent. -/
def scientific (l : Layout) (digits : List Char) (e : Int) : List Char :=
  let exponent := Nat.toDigits 10 e.natAbs
  let sign := if e < 0 then '-' else '+'
  let mantissa := match digits with
    | [] => []
    | [d] => [d]
    | d :: ds => d :: '.' :: ds
  mantissa ++ 'e' :: sign :: (zeros (l.exponentWidth - exponent.length) ++ exponent)

/-- Digits with the point in its place, one digit at least on either side. -/
def positional (digits : List Char) (e : Int) : List Char :=
  if e < 0 then '0' :: '.' :: (zeros (-e - 1).toNat ++ digits)
  else
    let whole := e.toNat + 1
    let digits := digits ++ zeros (whole - digits.length)
    let places := digits.drop whole
    digits.take whole ++ '.' :: (if places.isEmpty then ['0'] else places)

def magnitudeText (l : Layout) (x : Binary64) : List Char :=
  if x.isZero then ['0', '.', '0']
  else
    let d := x.shortest
    let digits := Nat.toDigits 10 d.digits
    let e := d.exponent + digits.length - 1
    if l.leastPositional ≤ e && e ≤ l.greatestPositional then positional digits e
    else scientific l digits e

def textWith (l : Layout) (x : Binary64) : String :=
  let sign := if x.negative then "-" else ""
  if x.isNaN then l.nan
  else if x.isFinite then sign ++ String.ofList (magnitudeText l x)
  else sign ++ l.infinity

def text (x : Binary64) : String := x.textWith layout

end TypedParams.Binary64

/-! Double-precision numbers as bit patterns, with exact comparison. -/
namespace TypedParams

/-- A double, by its 64 bits. -/
structure Binary64 where
  bits : UInt64
  deriving DecidableEq

namespace Binary64

def negative (x : Binary64) : Bool := decide (Nat.pow 2 63 ≤ x.bits.toNat)

def exponentField (x : Binary64) : Nat := x.bits.toNat / Nat.pow 2 52 % Nat.pow 2 11

def fraction (x : Binary64) : Nat := x.bits.toNat % Nat.pow 2 52

def isFinite (x : Binary64) : Bool := x.exponentField != 2047

def isNaN (x : Binary64) : Bool := x.exponentField == 2047 && x.fraction != 0

def isZero (x : Binary64) : Bool := x.exponentField == 0 && x.fraction == 0

/-- A finite magnitude is `significand * 2 ^ scale`. -/
def significand (x : Binary64) : Nat :=
  if x.exponentField = 0 then x.fraction else Nat.pow 2 52 + x.fraction

def scale (x : Binary64) : Int := (max x.exponentField 1 : Nat) - 1075

/-- A finite number as a fraction: signed numerator over a positive denominator. -/
def fractionOf (x : Binary64) : Int × Nat :=
  let m : Int := if x.negative then -x.significand else x.significand
  if 0 ≤ x.scale then (m * Nat.pow 2 x.scale.toNat, 1) else (m, Nat.pow 2 (-x.scale).toNat)

/-- Numerical equality with an integer. -/
def eqInt (x : Binary64) (n : Int) : Bool :=
  x.isFinite && (x.fractionOf.1 == n * x.fractionOf.2)

/-- Numerical equality: zeros agree, a NaN equals nothing. -/
def eq (x y : Binary64) : Bool :=
  !x.isNaN && (x.bits == y.bits || x.isZero && y.isZero)

/-- The nearest integer of a finite number, a half going to the even neighbour. -/
def roundEven (x : Binary64) : Int :=
  let (n, d) := x.fractionOf
  let low := n.fdiv d
  let twice := 2 * (n - low * d)
  if twice < d then low else if d < twice then low + 1 else low + low % 2

end Binary64
end TypedParams

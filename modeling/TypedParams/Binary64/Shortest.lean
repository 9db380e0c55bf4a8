import TypedParams.Binary64.Basic

/-! The shortest decimal that reads back as a given double. -/
namespace TypedParams

/-- The number `digits * 10 ^ exponent`. -/
structure Decimal where
  digits : Nat
  exponent : Int

namespace Decimal

def digitCount (n : Nat) : Nat := if n = 0 then 0 else (Nat.toDigits 10 n).length

/-- Move the zeros at the end of the digits into the exponent, at most `fuel` of them. -/
def trim : Nat → Decimal → Decimal
  | 0, d => d
  | fuel + 1, d =>
    if d.digits ≠ 0 && d.digits % 10 = 0 then trim fuel ⟨d.digits / 10, d.exponent + 1⟩ else d

end Decimal

/-- The reals that round to one double: numerators over a common denominator. -/
structure RoundingInterval where
  low : Nat
  value : Nat
  high : Nat
  den : Nat
  closed : Bool

namespace RoundingInterval

/-- Neighbours lie a unit apart above, and half a unit below a power of two. -/
def of (x : Binary64) : RoundingInterval :=
  let m := x.significand
  let below := if x.fraction = 0 && 1 < x.exponentField then 1 else 2
  let s := x.scale - 2
  let num := if 0 ≤ s then Nat.pow 2 s.toNat else 1
  ⟨(4 * m - below) * num, 4 * m * num, (4 * m + 2) * num,
    if 0 ≤ s then 1 else Nat.pow 2 (-s).toNat, m % 2 = 0⟩

/-- The power of ten of the leading digit. -/
def leading (i : RoundingInterval) : Int :=
  if i.den ≤ i.value then (Decimal.digitCount (i.value / i.den) : Int) - 1
  else -(Decimal.digitCount ((i.den + i.value - 1) / i.value - 1) : Int)

def contains (i : RoundingInterval) (d up down : Nat) : Bool :=
  let point := d * up * i.den
  if i.closed then i.low * down ≤ point && point ≤ i.high * down
  else i.low * down < point && point < i.high * down

/-- The better of the value's two neighbours among the multiples of `10 ^ k`, if either reads
back: the nearer, and the even one of two as near. -/
def onGrid (i : RoundingInterval) (k : Int) : Option Nat :=
  let up := if 0 ≤ k then Nat.pow 10 k.toNat else 1
  let down := if 0 ≤ k then 1 else Nat.pow 10 (-k).toNat
  let d := i.value * down / (i.den * up)
  let twice := 2 * (i.value * down - d * up * i.den)
  let unit := i.den * up
  let first := if twice < unit || twice = unit && d % 2 = 0 then d else d + 1
  let second := if first = d then d + 1 else d
  if i.contains first up down then some first
  else if i.contains second up down then some second
  else none

/-- Seventeen digits always suffice. -/
def shortest (i : RoundingInterval) : Decimal :=
  let hit := (List.range 17).findSome? fun (n : Nat) =>
    (i.onGrid (i.leading - n)).map fun d => Decimal.mk d (i.leading - n)
  (hit.getD ⟨i.value / i.den, 0⟩).trim 20

end RoundingInterval

/-- The digits of a nonzero finite magnitude. -/
def Binary64.shortest (x : Binary64) : Decimal := (RoundingInterval.of x).shortest

end TypedParams

/-! Digits: decimal fields of a fixed width, hexadecimal ones, and which numbers are short enough to
be written out. -/
namespace TypedParams.Text

def digitChar (n : Nat) : Char := Char.ofNat (0x30 + n)

/-- The value of an ASCII digit. -/
def digit? (c : Char) : Option Nat :=
  if '0' ≤ c && c ≤ '9' then some (c.toNat - 0x30) else none

/-- The last `width` decimal digits of a number, zeros in front. -/
def field : Nat → Nat → List Char
  | 0, _ => []
  | width + 1, n => field width (n / 10) ++ [digitChar (n % 10)]

theorem length_field (width n : Nat) : (field width n).length = width := by
  induction width generalizing n with
  | zero => rfl
  | succ w ih => simp [field, ih]

theorem digit?_digitChar {n : Nat} (h : n < 10) : digit? (digitChar n) = some n := by
  have : ∀ k : Fin 10, digit? (digitChar k) = some k.val := by decide
  exact this ⟨n, h⟩

/-- One lower-case hexadecimal digit. -/
def hexDigit (n : Nat) : Char :=
  if n < 10 then Char.ofNat (0x30 + n) else Char.ofNat (0x57 + n)

/-- The last `width` hexadecimal digits of a number. -/
def hex : Nat → Nat → List Char
  | 0, _ => []
  | width + 1, n => hex width (n / 16) ++ [hexDigit (n % 16)]

/-- The most decimal digits that a number is written with. -/
def digitLimit : Nat := 4300

/-- Whether a number can be written out in decimal digits. Its sign does not count. -/
def isWritable (n : Int) : Bool := (Nat.toDigits 10 n.natAbs).length ≤ digitLimit

end TypedParams.Text

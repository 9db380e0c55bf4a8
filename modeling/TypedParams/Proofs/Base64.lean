import Mathlib.Tactic.SplitIfs
import TypedParams.Base64

/-! Base64 read back. Main statement: what is written for any bytes is read as the same bytes. -/
namespace TypedParams.Base64

/-- Three bytes from the values of four characters. -/
def ofSextets (p q r s : Nat) : List UInt8 :=
  [UInt8.ofNat (p * 4 + q / 16), UInt8.ofNat (q % 16 * 16 + r / 4), UInt8.ofNat (r % 4 * 64 + s)]

theorem decode_sextets {p q r s : Nat} (hp : p < 64) (hq : q < 64) (hr : r < 64) (hs : s < 64)
    (rest : List Char) :
    decode (sextetChar p :: sextetChar q :: sextetChar r :: sextetChar s :: rest) =
      (decode rest).map (ofSextets p q r s ++ ·) := by
  have hpad : sextetChar s ≠ '=' := sextetChar_ne_pad hs
  rw [decode]
  · rw [sextet?_sextetChar hp, sextet?_sextetChar hq, sextet?_sextetChar hr, sextet?_sextetChar hs]
    cases decode rest <;> rfl
  · intro _ h _
    exact hpad h
  · intro h _
    exact hpad h

theorem ofNat_eq {n : Nat} {b : UInt8} (h : n = b.toNat) : UInt8.ofNat n = b := by
  rw [h, UInt8.ofNat_toNat]

/-- Every text that is written is read, and gives back the bytes. -/
theorem decode_encode (bs : List UInt8) : decode (encode bs) = some bs := by
  fun_induction encode bs with
  | case1 => rfl
  | case2 a =>
    have ha : a.toNat < 256 := a.toNat_lt
    have hp : sextet? (sextetChar (a.toNat / 4)) = some (a.toNat / 4) :=
      sextet?_sextetChar (by omega)
    have hq : sextet? (sextetChar (a.toNat % 4 * 16)) = some (a.toNat % 4 * 16) :=
      sextet?_sextetChar (by omega)
    have hunused : a.toNat % 4 * 16 % 16 = 0 := by omega
    have hbyte : UInt8.ofNat (a.toNat / 4 * 4 + a.toNat % 4 * 16 / 16) = a := ofNat_eq (by omega)
    simp only [decode, hp, hq, Option.bind_eq_bind, Option.bind_some, hunused, if_true, hbyte]
  | case3 a b =>
    have ha : a.toNat < 256 := a.toNat_lt
    have hb : b.toNat < 256 := b.toNat_lt
    have hr : b.toNat % 16 * 4 < 64 := by omega
    have hunused : b.toNat % 16 * 4 % 4 = 0 := by omega
    have hfirst : UInt8.ofNat (a.toNat / 4 * 4 + (a.toNat % 4 * 16 + b.toNat / 16) / 16) = a :=
      ofNat_eq (by omega)
    have hsecond : UInt8.ofNat ((a.toNat % 4 * 16 + b.toNat / 16) % 16 * 16 +
        b.toNat % 16 * 4 / 4) = b := ofNat_eq (by omega)
    rw [decode]
    · rw [sextet?_sextetChar (by omega), sextet?_sextetChar (by omega), sextet?_sextetChar hr]
      simp only [Option.bind_eq_bind, Option.bind_some, hunused, if_true, hfirst, hsecond]
    · exact sextetChar_ne_pad hr
  | case4 a b c rest ih =>
    have ha : a.toNat < 256 := a.toNat_lt
    have hb : b.toNat < 256 := b.toNat_lt
    have hc : c.toNat < 256 := c.toNat_lt
    have hbytes : ofSextets (a.toNat / 4) (a.toNat % 4 * 16 + b.toNat / 16)
        (b.toNat % 16 * 4 + c.toNat / 64) (c.toNat % 64) = [a, b, c] := by
      unfold ofSextets
      rw [ofNat_eq (b := a) (by omega), ofNat_eq (b := b) (by omega), ofNat_eq (b := c) (by omega)]
    rw [decode_sextets (by omega) (by omega) (by omega) (by omega), ih, hbytes]
    rfl

end TypedParams.Base64

import Mathlib.Algebra.Group.Nat.Defs
import Mathlib.Data.List.Basic
import TypedParams.Text.Digits

/-! The order of texts, character by character. Main statement: fixed-width fields are in the order
of their numbers, and what stands behind them counts only where they are the same. -/
namespace TypedParams.Text

theorem digitChar_lt_iff {m n : Nat} (hm : m < 10) (hn : n < 10) :
    digitChar m < digitChar n ↔ m < n := by
  have hall : ∀ i j : Fin 10, digitChar i < digitChar j ↔ i.val < j.val := by decide
  exact hall ⟨m, hm⟩ ⟨n, hn⟩

theorem digitChar_inj {m n : Nat} (hm : m < 10) (hn : n < 10) (h : digitChar m = digitChar n) :
    m = n := by
  have hdigit := digit?_digitChar hm
  rw [h, digit?_digitChar hn] at hdigit
  exact (Option.some.inj hdigit).symm

theorem field_append_lt_iff {width m n : Nat} (hm : m < 10 ^ width) (hn : n < 10 ^ width)
    {cs ds : List Char} :
    field width m ++ cs < field width n ++ ds ↔ m < n ∨ m = n ∧ cs < ds := by
  induction width generalizing m n cs ds with
  | zero =>
    obtain rfl : m = 0 := Nat.lt_one_iff.1 hm
    obtain rfl : n = 0 := Nat.lt_one_iff.1 hn
    simp [field]
  | succ width ih =>
    have hdigit : m % 10 < 10 := Nat.mod_lt m (by decide)
    have hdigit' : n % 10 < 10 := Nat.mod_lt n (by decide)
    have htens : m / 10 < 10 ^ width := by omega
    have htens' : n / 10 < 10 ^ width := by omega
    have hsame : digitChar (m % 10) = digitChar (n % 10) ↔ m % 10 = n % 10 :=
      ⟨digitChar_inj hdigit hdigit', congrArg digitChar⟩
    have hlast : m < n ↔ m / 10 < n / 10 ∨ m / 10 = n / 10 ∧ m % 10 < n % 10 := by omega
    have hequal : m = n ↔ m / 10 = n / 10 ∧ m % 10 = n % 10 := by omega
    simp only [field, List.append_assoc, List.singleton_append]
    rw [ih htens htens', List.cons_lt_cons_iff, digitChar_lt_iff hdigit hdigit', hsame, hlast,
      hequal]
    tauto

end TypedParams.Text

import Mathlib.Algebra.Group.Int.Defs
import Mathlib.Algebra.Group.Nat.Defs
import Mathlib.Data.List.Basic
import Mathlib.Tactic.SplitIfs
import TypedParams.Text.Digits

/-! Decimal numerals. Main statement: integers are written without leading zeros, without a plus
sign and without a minus sign before zero. -/
namespace TypedParams.Text

/-- The number a run of ASCII digits writes; `none` if another character occurs. -/
def number? (cs : List Char) : Option Nat :=
  cs.foldlM (fun n c => (digit? c).map (10 * n + ·)) 0

/-- The integer that a text writes in decimal: digits, behind a minus sign or not. -/
def integer? (cs : List Char) : Option Int :=
  match cs with
  | [] | ['-'] => none
  | '-' :: ds => (number? ds).map fun n : Nat => -(n : Int)
  | ds => (number? ds).map fun n : Nat => (n : Int)

/-- ASCII digits that write a number, with a zero in front only where that is all. -/
structure IsNumeral (cs : List Char) (n : Nat) : Prop where
  value : number? cs = some n
  ne_nil : cs ≠ []
  lead : cs.head? = some '0' → cs = ['0']

/-- A numeral, or a minus sign and a numeral of a positive number. -/
inductive IsInteger : List Char → Int → Prop
  | nonneg {cs : List Char} {n : Nat} (h : IsNumeral cs n) : IsInteger cs n
  | neg {cs : List Char} {n : Nat} (h : IsNumeral cs n) (hn : 0 < n) : IsInteger ('-' :: cs) (-n)

theorem number?_append_digit (cs : List Char) (c : Char) :
    number? (cs ++ [c]) = (number? cs).bind fun n => (digit? c).map (10 * n + ·) := by
  simp [number?, List.foldlM_append]

theorem digit?_nat_digitChar {n : Nat} (h : n < 10) : digit? (Nat.digitChar n) = some n := by
  have hall : ∀ k : Fin 10, digit? (Nat.digitChar k) = some k.val := by decide
  exact hall ⟨n, h⟩

theorem nat_digitChar_ne_zero {n : Nat} (h : n < 10) (hn : 0 < n) : Nat.digitChar n ≠ '0' := by
  have hall : ∀ k : Fin 10, 0 < k.val → Nat.digitChar k ≠ '0' := by decide
  exact hall ⟨n, h⟩ hn

theorem number?_toDigits (n : Nat) : number? (Nat.toDigits 10 n) = some n := by
  induction n using Nat.strongRecOn with
  | ind n ih =>
    by_cases h : n < 10
    · rw [Nat.toDigits_of_lt_base h]
      have hdigit : number? ([] ++ [Nat.digitChar n]) = some n := by
        rw [number?_append_digit, digit?_nat_digitChar h]
        simp [number?]
      exact hdigit
    · have hdiv : n / 10 < n := by omega
      rw [Nat.toDigits_of_base_le (by decide) (by omega), number?_append_digit, ih _ hdiv,
        digit?_nat_digitChar (Nat.mod_lt _ (by decide))]
      simp only [Option.bind_some, Option.map_some, Option.some.injEq]
      omega

theorem head?_toDigits_ne_zero {n : Nat} (hn : 0 < n) :
    (Nat.toDigits 10 n).head? ≠ some '0' := by
  induction n using Nat.strongRecOn with
  | ind n ih =>
    by_cases h : n < 10
    · rw [Nat.toDigits_of_lt_base h, List.head?_cons, ne_eq, Option.some.injEq]
      exact nat_digitChar_ne_zero h hn
    · -- the digits in front are those of the tenth part, which is positive
      have hhead : (Nat.toDigits 10 n).head? = (Nat.toDigits 10 (n / 10)).head? := by
        rw [Nat.toDigits_of_base_le (by decide) (by omega)]
        exact List.head?_append_of_ne_nil _ Nat.toDigits_ne_nil
      rw [hhead]
      exact ih (n / 10) (by omega) (by omega)

theorem isNumeral_toDigits (n : Nat) : IsNumeral (Nat.toDigits 10 n) n where
  value := number?_toDigits n
  ne_nil := Nat.toDigits_ne_nil
  lead h := by
    by_cases hn : 0 < n
    · exact absurd h (head?_toDigits_ne_zero hn)
    · obtain rfl : n = 0 := by omega
      rfl

theorem nat_digitChar_eq {n : Nat} (h : n < 10) : Nat.digitChar n = digitChar n := by
  have hall : ∀ k : Fin 10, Nat.digitChar k = digitChar k := by decide
  exact hall ⟨n, h⟩

theorem field_zero (width : Nat) : field width 0 = List.replicate width '0' := by
  induction width with
  | zero => rfl
  | succ width ih =>
    have hlast : field (width + 1) 0 = field width 0 ++ ['0'] := rfl
    rw [hlast, ih, List.replicate_succ']

/-- A field is the numeral, behind as many zeros as its width leaves room for. -/
theorem field_eq_replicate_append {width n : Nat} (hwidth : 0 < width) (h : n < 10 ^ width) :
    field width n =
      List.replicate (width - (Nat.toDigits 10 n).length) '0' ++ Nat.toDigits 10 n := by
  induction width generalizing n with
  | zero => exact absurd hwidth (Nat.lt_irrefl 0)
  | succ width ih =>
    rw [Nat.pow_succ] at h
    by_cases hn : n < 10
    · have hdiv : n / 10 = 0 := Nat.div_eq_of_lt hn
      have hmod : n % 10 = n := Nat.mod_eq_of_lt hn
      rw [field, hdiv, hmod, field_zero, Nat.toDigits_of_lt_base hn, nat_digitChar_eq hn]
      rfl
    · have hwidth' : 0 < width := by
        by_contra hzero
        obtain rfl : width = 0 := by omega
        omega
      have hmod : n % 10 < 10 := Nat.mod_lt n (by decide)
      have hdigits : Nat.toDigits 10 n = Nat.toDigits 10 (n / 10) ++ [digitChar (n % 10)] := by
        rw [Nat.toDigits_of_base_le (by decide) (Nat.le_of_not_lt hn), nat_digitChar_eq hmod]
      rw [field, ih hwidth' (by omega), hdigits, List.append_assoc, List.length_append,
        List.length_singleton, Nat.add_sub_add_right]

theorem toList_repr (n : Nat) : n.repr.toList = Nat.toDigits 10 n := by
  rw [Nat.repr_eq_ofList_toDigits, String.toList_ofList]

theorem isInteger_toString (n : Int) : IsInteger (toString n).toList n := by
  rw [Int.toString_eq_repr, Int.repr_eq_if]
  split_ifs with h
  · have hn : IsInteger n.toNat.repr.toList (n.toNat : Int) := by
      rw [toList_repr]
      exact .nonneg (isNumeral_toDigits _)
    rwa [Int.toNat_of_nonneg h] at hn
  · have hminus : ("-" ++ (-n).toNat.repr).toList = '-' :: Nat.toDigits 10 (-n).toNat := by
      rw [String.toList_append, toList_repr]
      rfl
    have hn : IsInteger ('-' :: Nat.toDigits 10 (-n).toNat) (-((-n).toNat : Int)) :=
      .neg (isNumeral_toDigits _) (by omega)
    rw [hminus]
    rwa [Int.toNat_of_nonneg (by omega), Int.neg_neg] at hn

theorem number?_minus (cs : List Char) : number? ('-' :: cs) = none := rfl

theorem IsInteger.integer?_eq {cs : List Char} {n : Int} (h : IsInteger cs n) :
    integer? cs = some n := by
  cases h with
  | nonneg h =>
    have hminus : ∀ ds, cs ≠ '-' :: ds := by
      rintro ds rfl
      cases (number?_minus ds).symm.trans h.value
    unfold integer?
    split
    · exact absurd rfl h.ne_nil
    · exact absurd rfl (hminus _)
    · exact absurd rfl (hminus _)
    · rw [h.value, Option.map_some]
  | @neg ds n h _ =>
    cases ds with
    | nil => exact absurd rfl h.ne_nil
    | cons d ds =>
      change (number? (d :: ds)).map (fun n : Nat => -(n : Int)) = some (-(n : Int))
      rw [h.value, Option.map_some]

theorem integer?_toString (n : Int) : integer? (toString n).toList = some n :=
  (isInteger_toString n).integer?_eq

theorem isWritable_iff {n : Int} : isWritable n = true ↔ n.natAbs < 10 ^ digitLimit := by
  rw [isWritable, decide_eq_true_iff, Nat.length_toDigits_le_iff (by decide) (by decide)]

theorem isWritable_eq_false_iff {n : Int} : isWritable n = false ↔ 10 ^ digitLimit ≤ n.natAbs := by
  rw [← Bool.not_eq_true, isWritable_iff, Nat.not_lt]

theorem isWritable_of_natAbs_lt {n : Int} {k : Nat} (h : n.natAbs < 10 ^ k) (hk : k ≤ digitLimit) :
    isWritable n = true :=
  isWritable_iff.2 (Nat.lt_of_lt_of_le h (Nat.pow_le_pow_right (by decide) hk))

/-- The least number of one digit more cannot be written. -/
theorem isWritable_pow_digitLimit : isWritable (10 ^ digitLimit) = false := by
  have hten : (10 : Int).natAbs = 10 := rfl
  have habs : ((10 : Int) ^ digitLimit).natAbs = 10 ^ digitLimit := by rw [Int.natAbs_pow, hten]
  exact isWritable_eq_false_iff.2 (Nat.le_of_eq habs.symm)

end TypedParams.Text

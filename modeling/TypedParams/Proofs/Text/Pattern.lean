import Mathlib.Algebra.Group.Nat.Defs
import Mathlib.Data.List.Basic
import TypedParams.Text.Pattern

/-! What patterns take. Main statement: a row of digit patterns takes the numbers of that many
digits, written with zeros in front. -/
namespace TypedParams.Text

theorem eq_digitChar_of_digit? {c : Char} {n : Nat} (h : digit? c = some n) :
    n < 10 ∧ c = digitChar n := by
  unfold digit? at h
  split at h
  next hc =>
    rw [Bool.and_eq_true, decide_eq_true_eq, decide_eq_true_eq] at hc
    have hleast : 0x30 ≤ c.toNat := hc.1
    have hgreatest : c.toNat ≤ 0x39 := hc.2
    cases h
    refine ⟨by omega, ?_⟩
    rw [digitChar, Nat.add_sub_cancel' hleast, Char.ofNat_toNat]
  next => cases h

theorem field_succ (width n : Nat) :
    field (width + 1) n = field width (n / 10) ++ [digitChar (n % 10)] := rfl

namespace Pattern

/-- A pattern takes the texts of a language, whatever stands behind them. -/
def Takes (p : Pattern) (L : List Char → Prop) : Prop :=
  ∀ cs w, w ∈ p.ways cs ↔ L w.1 ∧ cs = w.1 ++ w.2

theorem Takes.congr {p : Pattern} {L M : List Char → Prop} (h : p.Takes L)
    (hLM : ∀ xs, L xs ↔ M xs) : p.Takes M := by
  intro cs w
  rw [h cs w, hLM]

theorem Takes.fits_iff {p : Pattern} {L : List Char → Prop} (h : p.Takes L) {cs : List Char} :
    p.fits cs = true ↔ L cs := by
  rw [fits, List.any_eq_true]
  constructor
  · intro hw
    obtain ⟨⟨taken, rest⟩, hmem, hrest⟩ := hw
    obtain rfl : rest = [] := List.isEmpty_iff.1 hrest
    obtain ⟨htaken, hcs⟩ := (h cs _).1 hmem
    rw [List.append_nil] at hcs
    rwa [hcs]
  · intro hcs
    exact ⟨(cs, []), (h cs _).2 ⟨hcs, (List.append_nil cs).symm⟩, rfl⟩

/-- A pattern of single characters. -/
theorem takes_singles {p : Pattern} {P : Char → Prop} (hnil : p.ways [] = [])
    (hyes : ∀ c cs, P c → p.ways (c :: cs) = [([c], cs)])
    (hno : ∀ c cs, ¬P c → p.ways (c :: cs) = []) : p.Takes fun xs => ∃ c, P c ∧ xs = [c] := by
  intro cs w
  constructor
  · intro hw
    cases cs with
    | nil =>
      rw [hnil] at hw
      cases hw
    | cons c cs =>
      by_cases hc : P c
      · rw [hyes c cs hc, List.mem_singleton] at hw
        subst hw
        exact ⟨⟨c, hc, rfl⟩, rfl⟩
      · rw [hno c cs hc] at hw
        cases hw
  · intro hx
    obtain ⟨⟨c, hc, htaken⟩, rfl⟩ := hx
    rw [htaken, List.singleton_append, hyes c _ hc, List.mem_singleton, ← htaken]

theorem takes_oneOf (ds : List Char) : (oneOf ds).Takes fun xs => ∃ c, c ∈ ds ∧ xs = [c] :=
  takes_singles rfl (fun _ _ hc => if_pos hc) (fun _ _ hc => if_neg hc)

theorem takes_char (c : Char) : (char c).Takes (· = [c]) := by
  refine (takes_oneOf [c]).congr ?_
  intro xs
  simp

theorem takes_anyDigit : anyDigit.Takes fun xs => ∃ n, n < 10 ∧ xs = [digitChar n] := by
  refine (takes_singles (P := fun c => (digit? c).isSome = true) rfl ?_ ?_).congr ?_
  · intro c cs hc
    obtain ⟨n, hn⟩ := Option.isSome_iff_exists.1 hc
    have hdigit := eq_digitChar_of_digit? hn
    simp only [anyDigit, ways, hn]
    exact if_pos ⟨Nat.zero_le n, Nat.le_of_lt_succ hdigit.1⟩
  · intro c cs hc
    rw [Option.not_isSome_iff_eq_none] at hc
    simp only [anyDigit, ways, hc]
  · intro xs
    constructor
    · intro hx
      obtain ⟨c, hc, rfl⟩ := hx
      obtain ⟨n, hn⟩ := Option.isSome_iff_exists.1 hc
      obtain ⟨hlt, rfl⟩ := eq_digitChar_of_digit? hn
      exact ⟨n, hlt, rfl⟩
    · intro hx
      obtain ⟨n, hn, rfl⟩ := hx
      exact ⟨_, Option.isSome_of_mem (digit?_digitChar hn), rfl⟩

theorem takes_seq {p q : Pattern} {L M : List Char → Prop} (hp : p.Takes L) (hq : q.Takes M) :
    (seq p q).Takes fun xs => ∃ a b, L a ∧ M b ∧ xs = a ++ b := by
  intro cs hx
  obtain ⟨taken, rest⟩ := hx
  simp only [ways, List.mem_flatMap, List.mem_map, Prod.mk.injEq]
  constructor
  · intro hx
    obtain ⟨w, hw, v, hv, rfl, rfl⟩ := hx
    obtain ⟨hL, rfl⟩ := (hp cs w).1 hw
    obtain ⟨hM, hrest⟩ := (hq _ v).1 hv
    exact ⟨⟨_, _, hL, hM, rfl⟩, by rw [hrest, List.append_assoc]⟩
  · intro hx
    obtain ⟨⟨a, b, ha, hb, rfl⟩, rfl⟩ := hx
    refine ⟨(a, b ++ rest), (hp _ _).2 ⟨ha, ?_⟩, (b, rest), (hq _ _).2 ⟨hb, rfl⟩, rfl, rfl⟩
    rw [List.append_assoc]

theorem takes_row_nil : (row []).Takes (· = []) := by
  intro cs hx
  obtain ⟨taken, rest⟩ := hx
  simp only [row, List.foldr_nil, ways, List.mem_singleton, Prod.mk.injEq]
  constructor
  · intro hx
    obtain ⟨rfl, rfl⟩ := hx
    exact ⟨rfl, rfl⟩
  · intro hx
    obtain ⟨rfl, rfl⟩ := hx
    exact ⟨rfl, rfl⟩

theorem ways_row_append (ps qs : List Pattern) (cs : List Char) :
    (row (ps ++ qs)).ways cs = (seq (row ps) (row qs)).ways cs := by
  induction ps generalizing cs with
  | nil => simp [row, ways]
  | cons p ps ih =>
    change (p.ways cs).flatMap (fun w => ((row (ps ++ qs)).ways w.2).map _) =
      ((p.ways cs).flatMap fun w => ((row ps).ways w.2).map _).flatMap _
    simp only [ih, ways, List.flatMap_assoc, List.flatMap_map, List.map_flatMap, List.map_map,
      Function.comp_def, List.append_assoc]

theorem takes_row_append {ps qs : List Pattern} {L M : List Char → Prop} (hp : (row ps).Takes L)
    (hq : (row qs).Takes M) :
    (row (ps ++ qs)).Takes fun xs => ∃ a b, L a ∧ M b ∧ xs = a ++ b := by
  intro cs w
  rw [ways_row_append]
  exact takes_seq hp hq cs w

theorem takes_row_singleton {p : Pattern} {L : List Char → Prop} (hp : p.Takes L) :
    (row [p]).Takes L := by
  refine (takes_seq hp takes_row_nil).congr ?_
  intro xs
  simp

/-- Two rows of patterns with one character between them. -/
theorem takes_row_mark {ps qs : List Pattern} {L M : List Char → Prop} (hp : (row ps).Takes L)
    (c : Char) (hq : (row qs).Takes M) :
    (row (ps ++ [char c] ++ qs)).Takes fun xs => ∃ a b, L a ∧ M b ∧ xs = a ++ c :: b := by
  refine (takes_row_append (takes_row_append hp (takes_row_singleton (takes_char c))) hq).congr ?_
  intro xs
  constructor
  · intro hx
    obtain ⟨_, b, ⟨a, _, ha, rfl, rfl⟩, hb, rfl⟩ := hx
    exact ⟨a, b, ha, hb, by rw [List.append_assoc, List.singleton_append]⟩
  · intro hx
    obtain ⟨a, b, ha, hb, rfl⟩ := hx
    exact ⟨_, b, ⟨a, _, ha, rfl, rfl⟩, hb, by rw [List.append_assoc, List.singleton_append]⟩

/-- A row of digits is a number written in that many places. -/
theorem takes_digits (width : Nat) :
    (row (digits width)).Takes fun xs => ∃ n, n < 10 ^ width ∧ xs = field width n := by
  induction width with
  | zero =>
    refine takes_row_nil.congr ?_
    intro xs
    simp [field]
  | succ width ih =>
    have hsplit : digits (width + 1) = digits width ++ [anyDigit] := List.replicate_succ'
    rw [hsplit]
    refine (takes_row_append ih (takes_row_singleton takes_anyDigit)).congr ?_
    intro xs
    rw [Nat.pow_succ]
    constructor
    · intro hx
      obtain ⟨a, b, ⟨n, hn, rfl⟩, ⟨d, hd, rfl⟩, rfl⟩ := hx
      refine ⟨n * 10 + d, by omega, ?_⟩
      have hfront : (n * 10 + d) / 10 = n := by omega
      have hlast : (n * 10 + d) % 10 = d := by omega
      rw [field_succ, hfront, hlast]
    · intro hx
      obtain ⟨n, hn, rfl⟩ := hx
      have hlast : n % 10 < 10 := Nat.mod_lt n (by decide)
      exact ⟨_, _, ⟨n / 10, by omega, rfl⟩, ⟨n % 10, hlast, rfl⟩, field_succ width n⟩

end Pattern
end TypedParams.Text

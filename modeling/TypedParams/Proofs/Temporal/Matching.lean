import Mathlib.Data.List.Basic
import Mathlib.Tactic.SplitIfs
import TypedParams.Proofs.Text.Pattern
import TypedParams.Temporal.Reading

/-! How the parts of a format match. Main statement: a field is read in its full width or not at
all, since a digit left over stops whatever follows it. -/
namespace TypedParams.Reading
open Text Text.Pattern

/-! ### Ways of matching digits -/

theorem ways_anyOf_nil (cs : List Char) : (anyOf []).ways cs = [] := by
  cases cs <;> simp [anyOf, ways]

theorem ways_anyOf_cons (p : Pattern) (ps : List Pattern) (cs : List Char) :
    (anyOf (p :: ps)).ways cs = p.ways cs ++ (anyOf ps).ways cs := rfl

theorem ways_digit {n : Nat} (h : n < 10) (least greatest : Nat) (cs : List Char) :
    (digit least greatest).ways (digitChar n :: cs) =
      if least ≤ n ∧ n ≤ greatest then [([digitChar n], cs)] else [] := by
  rw [ways, digit?_digitChar h]

theorem ways_twoDigits {m n : Nat} (hm : m < 10) (hn : n < 10) (a b c d : Nat) (cs : List Char) :
    (seq (digit a b) (digit c d)).ways (digitChar m :: digitChar n :: cs) =
      if (a ≤ m ∧ m ≤ b) ∧ c ≤ n ∧ n ≤ d then [([digitChar m, digitChar n], cs)] else [] := by
  rw [ways, ways_digit hm]
  split_ifs with h₁ h₂ h₂ <;> simp_all [ways_digit hn]

theorem digitChar_notin {ds : List Char} (hds : ∀ c ∈ ds, digit? c = none) {n : Nat} (hn : n < 10) :
    digitChar n ∉ ds := by
  intro hmem
  have hnone := hds _ hmem
  rw [digit?_digitChar hn] at hnone
  cases hnone

theorem ways_oneOf_digitChar {ds : List Char} (hds : ∀ c ∈ ds, digit? c = none) {n : Nat}
    (hn : n < 10) (cs : List Char) : (oneOf ds).ways (digitChar n :: cs) = [] :=
  if_neg (digitChar_notin hds hn)

theorem ways_char_digitChar {c : Char} (hc : digit? c = none) {n : Nat} (hn : n < 10)
    (cs : List Char) : (char c).ways (digitChar n :: cs) = [] := by
  refine ways_oneOf_digitChar ?_ hn cs
  intro d hd
  rwa [List.mem_singleton.1 hd]

theorem ways_sign_digitChar {n : Nat} (hn : n < 10) (cs : List Char) :
    (oneOf ['+', '-']).ways (digitChar n :: cs) = [] := by
  refine ways_oneOf_digitChar ?_ hn cs
  intro d hd
  rcases List.mem_pair.1 hd with rfl | rfl
  · rfl
  · rfl

theorem isBlank_digitChar {n : Nat} (hn : n < 10) : isBlank (digitChar n) = false := by
  have hall : ∀ k : Fin 10, isBlank (digitChar k) = false := by decide
  exact hall ⟨n, hn⟩

theorem ways_blanks_digitChar {n : Nat} (hn : n < 10) (cs : List Char) :
    blanks.ways (digitChar n :: cs) = [] := by
  rw [ways, List.takeWhile_cons_of_neg (by simp [isBlank_digitChar hn])]
  rfl

theorem ways_blanks_space {n : Nat} (hn : n < 10) (cs : List Char) :
    blanks.ways (' ' :: digitChar n :: cs) = [([' '], digitChar n :: cs)] := by
  have hspace : isBlank ' ' = true := by decide
  rw [ways, List.takeWhile_cons_of_pos hspace,
    List.takeWhile_cons_of_neg (by simp [isBlank_digitChar hn])]
  rfl

/-! ### Fields of two digits -/

/-- A field of two digits between the given ones, which may also be read in the first digit alone.
-/
def Field.TwoDigits (f : Field) (least greatest : Nat) : Prop :=
  ∀ m < 10, ∀ n < 10, ∀ cs, ∃ short : Bool,
    f.pattern.ways (digitChar m :: digitChar n :: cs) =
      (if least ≤ 10 * m + n ∧ 10 * m + n ≤ greatest then [([digitChar m, digitChar n], cs)]
        else []) ++
      if short then [([digitChar m], digitChar n :: cs)] else []

theorem twoDigits_month : Field.month.TwoDigits 1 12 := by
  intro m hm n hn cs
  refine ⟨decide (1 ≤ m), ?_⟩
  simp only [Field.pattern, ways_anyOf_cons, ways_anyOf_nil, ways_twoDigits hm hn, ways_digit hm]
  grind

theorem twoDigits_day : Field.day.TwoDigits 1 31 := by
  intro m hm n hn cs
  have hspace : (seq (char ' ') (digit 1 9)).ways (digitChar m :: digitChar n :: cs) = [] := by
    rw [ways, ways_char_digitChar rfl hm]
    rfl
  refine ⟨decide (1 ≤ m), ?_⟩
  simp only [Field.pattern, anyDigit, ways_anyOf_cons, ways_anyOf_nil, ways_twoDigits hm hn,
    ways_digit hm, hspace]
  grind

theorem twoDigits_hour : Field.hour.TwoDigits 0 23 := by
  intro m hm n hn cs
  refine ⟨true, ?_⟩
  simp only [Field.pattern, anyDigit, ways_anyOf_cons, ways_anyOf_nil, ways_twoDigits hm hn,
    ways_digit hm]
  grind

theorem twoDigits_minute : Field.minute.TwoDigits 0 59 := by
  intro m hm n hn cs
  refine ⟨true, ?_⟩
  simp only [Field.pattern, anyDigit, ways_anyOf_cons, ways_anyOf_nil, ways_twoDigits hm hn,
    ways_digit hm]
  grind

theorem twoDigits_second : Field.second.TwoDigits 0 61 := by
  intro m hm n hn cs
  refine ⟨true, ?_⟩
  simp only [Field.pattern, anyDigit, ways_anyOf_cons, ways_anyOf_nil, ways_twoDigits hm hn,
    ways_digit hm]
  grind

/-! ### Whole texts -/

theorem whole?_eq_none {ms : List (Fields × List Char)} (h : ∀ m ∈ ms, m.2 ≠ []) :
    whole? ms = none := by
  match ms with
  | [] => rfl
  | (fs, []) :: ms => exact absurd rfl (h _ List.mem_cons_self)
  | (fs, c :: cs) :: ms => rfl

theorem whole?_map_append {ms junk : List (Fields × List Char)} (x : Field × List Char)
    (h : ∀ m ∈ junk, m.2 ≠ []) :
    whole? (ms.map (fun m => (x :: m.1, m.2)) ++ junk) = (whole? ms).map (x :: ·) := by
  match ms with
  | [] => exact whole?_eq_none h
  | (fs, []) :: ms => rfl
  | (fs, c :: cs) :: ms => rfl

/-- A text gives the fields on a condition, and otherwise none. -/
def Gives (ps : List Part) (cs : List Char) (c : Prop) (fs : Fields) : Prop :=
  (c → whole? (matchings ps cs) = some fs) ∧ (¬c → whole? (matchings ps cs) = none)

theorem gives_nil : Gives [] [] True [] := ⟨fun _ => rfl, fun h => absurd trivial h⟩

theorem Gives.congr {ps : List Part} {cs : List Char} {c d : Prop} {fs : Fields}
    (h : Gives ps cs c fs) (hcd : c ↔ d) : Gives ps cs d fs := by
  rwa [Gives, ← hcd]

/-- A field read in a preferred way, if at all, and in other ways that cannot be completed. -/
theorem Gives.field {f : Field} {ps : List Part} {cs taken rest : List Char} {c d : Prop}
    [Decidable d] {fs : Fields} {short : List (List Char × List Char)} (h : Gives ps rest c fs)
    (hways : f.pattern.ways cs = (if d then [(taken, rest)] else []) ++ short)
    (hshort : ∀ w ∈ short, ∀ m ∈ matchings ps w.2, m.2 ≠ []) :
    Gives (.field f :: ps) cs (d ∧ c) ((f, taken) :: fs) := by
  have hjunk : ∀ m ∈ short.flatMap fun w => (matchings ps w.2).map fun m => ((f, w.1) :: m.1, m.2),
      m.2 ≠ [] := by
    intro m hm
    obtain ⟨w, hw, hm⟩ := List.mem_flatMap.1 hm
    obtain ⟨m', hm', rfl⟩ := List.mem_map.1 hm
    exact hshort w hw m' hm'
  have hwhole : whole? (matchings (.field f :: ps) cs) =
      if d then (whole? (matchings ps rest)).map ((f, taken) :: ·) else none := by
    rw [matchings, hways, List.flatMap_append]
    split_ifs with hd
    · rw [List.flatMap_singleton]
      exact whole?_map_append _ hjunk
    · rw [List.flatMap_nil, List.nil_append]
      exact whole?_eq_none hjunk
  constructor
  · intro hx
    obtain ⟨hd, hc⟩ := hx
    rw [hwhole, if_pos hd, h.1 hc]
    rfl
  · intro hdc
    rw [hwhole]
    split_ifs with hd
    · rw [h.2 fun hc => hdc ⟨hd, hc⟩]
      rfl
    · rfl

/-- Parts that leave something over of any text that begins with a digit. -/
def StopAtDigits (ps : List Part) : Prop :=
  ∀ n < 10, ∀ cs, ∀ m ∈ matchings ps (digitChar n :: cs), m.2 ≠ []

theorem stopAtDigits_nil : StopAtDigits [] := by
  intro n hn cs m hm
  rw [matchings, List.mem_singleton] at hm
  rw [hm]
  exact List.cons_ne_nil _ _

theorem stopAtDigits_mark {p : Pattern} (h : ∀ n < 10, ∀ cs, p.ways (digitChar n :: cs) = [])
    (ps : List Part) : StopAtDigits (.mark p :: ps) := by
  intro n hn cs m hm
  rw [matchings, h n hn] at hm
  cases hm

theorem stopAtDigits_char {c : Char} (hc : digit? c = none) (ps : List Part) :
    StopAtDigits (.mark (char c) :: ps) := by
  refine stopAtDigits_mark ?_ ps
  intro n hn cs
  exact ways_char_digitChar hc hn cs

theorem stopAtDigits_blanks (ps : List Part) : StopAtDigits (.mark blanks :: ps) :=
  stopAtDigits_mark (fun _ hn cs => ways_blanks_digitChar hn cs) ps

theorem stopAtDigits_offset (ps : List Part) : StopAtDigits (.field .offset :: ps) := by
  intro n hn cs m hm
  have hways : Field.offset.pattern.ways (digitChar n :: cs) = [] := by
    change List.flatMap _ ((oneOf ['+', '-']).ways (digitChar n :: cs)) = []
    rw [ways_sign_digitChar hn]
    rfl
  rw [matchings, hways] at hm
  cases hm

theorem Gives.mark {ps : List Part} {cs : List Char} {c : Prop} {fs : Fields} (h : Gives ps cs c fs)
    (d : Char) : Gives (.mark (char d) :: ps) (d :: cs) c fs := by
  have hways : (char d).ways (d :: cs) = [([d], cs)] := if_pos List.mem_cons_self
  rw [Gives, matchings, hways, List.flatMap_singleton]
  exact h

theorem Gives.space {ps : List Part} {n : Nat} {cs : List Char} {c : Prop} {fs : Fields}
    (h : Gives ps (digitChar n :: cs) c fs) (hn : n < 10) :
    Gives (.mark blanks :: ps) (' ' :: digitChar n :: cs) c fs := by
  rw [Gives, matchings, ways_blanks_space hn, List.flatMap_singleton]
  exact h

theorem Gives.twoDigits {f : Field} {least greatest n : Nat} {ps : List Part} {cs : List Char}
    {c : Prop} {fs : Fields} (h : Gives ps cs c fs) (hf : f.TwoDigits least greatest) (hn : n < 100)
    (hps : StopAtDigits ps) :
    Gives (.field f :: ps) (Text.field 2 n ++ cs) ((least ≤ n ∧ n ≤ greatest) ∧ c)
      ((f, Text.field 2 n) :: fs) := by
  have htens : n / 10 % 10 < 10 := Nat.mod_lt _ (by decide)
  have hones : n % 10 < 10 := Nat.mod_lt _ (by decide)
  have hsum : 10 * (n / 10 % 10) + n % 10 = n := by omega
  obtain ⟨short, hways⟩ := hf _ htens _ hones cs
  rw [hsum] at hways
  refine h.field hways ?_
  intro w hw
  cases short with
  | false => cases hw
  | true =>
    rw [List.mem_singleton.1 hw]
    exact hps _ hones cs

/-! ### Fields of more digits -/

def AreDigits (ds : List Char) : Prop := ∀ d ∈ ds, ∃ n, n < 10 ∧ d = digitChar n

theorem areDigits_field (width n : Nat) : AreDigits (Text.field width n) := by
  induction width generalizing n with
  | zero =>
    intro d hd
    cases hd
  | succ width ih =>
    intro d hd
    rcases List.mem_append.1 hd with hd | hd
    · exact ih _ d hd
    · exact ⟨n % 10, Nat.mod_lt _ (by decide), List.mem_singleton.1 hd⟩

theorem ways_anyDigit {n : Nat} (h : n < 10) (cs : List Char) :
    anyDigit.ways (digitChar n :: cs) = [([digitChar n], cs)] := by
  rw [anyDigit, ways_digit h, if_pos ⟨Nat.zero_le n, Nat.le_of_lt_succ h⟩]

theorem ways_row_digits {ds : List Char} (h : AreDigits ds) (cs : List Char) :
    (row (digits ds.length)).ways (ds ++ cs) = [(ds, cs)] := by
  induction ds with
  | nil => rfl
  | cons d ds ih =>
    obtain ⟨hd, hds⟩ := List.forall_mem_cons.1 h
    obtain ⟨n, hn, rfl⟩ := hd
    change List.flatMap _ (anyDigit.ways (digitChar n :: (ds ++ cs))) = _
    rw [ways_anyDigit hn, List.flatMap_singleton]
    change List.map _ ((row (digits ds.length)).ways (ds ++ cs)) = _
    rw [ih hds]
    rfl

/-- As many digits as there are: fewer of them leave a digit over. -/
theorem exists_ways_digitsUpTo {ds : List Char} (h : AreDigits ds) (cs : List Char) :
    ∃ short, (digitsUpTo ds.length).ways (ds ++ cs) = (ds, cs) :: short ∧
      ∀ w ∈ short, ∃ n rest, n < 10 ∧ w.2 = digitChar n :: rest := by
  induction ds with
  | nil => exact ⟨[], rfl, by simp⟩
  | cons d ds ih =>
    obtain ⟨hd, hds⟩ := List.forall_mem_cons.1 h
    obtain ⟨n, hn, rfl⟩ := hd
    obtain ⟨short, hways, hshort⟩ := ih hds
    refine ⟨short.map (fun v => (digitChar n :: v.1, v.2)) ++ [([], digitChar n :: (ds ++ cs))],
      ?_, ?_⟩
    · change (List.flatMap _ (anyDigit.ways (digitChar n :: (ds ++ cs)))) ++ _ = _
      rw [ways_anyDigit hn, List.flatMap_singleton]
      change List.map _ ((digitsUpTo ds.length).ways (ds ++ cs)) ++ _ = _
      rw [hways]
      rfl
    · intro w hw
      rcases List.mem_append.1 hw with hw | hw
      · obtain ⟨v, hv, rfl⟩ := List.mem_map.1 hw
        exact hshort v hv
      · exact ⟨n, ds ++ cs, hn, by rw [List.mem_singleton.1 hw]⟩

theorem Gives.year {ps : List Part} {cs : List Char} {c : Prop} {fs : Fields} (h : Gives ps cs c fs)
    (n : Nat) :
    Gives (.field .year :: ps) (Text.field 4 n ++ cs) c ((.year, Text.field 4 n) :: fs) := by
  have hways : Field.year.pattern.ways (Text.field 4 n ++ cs) =
      (if True then [(Text.field 4 n, cs)] else []) ++ [] :=
    ways_row_digits (areDigits_field 4 n) cs
  have hgives := h.field hways (by simp)
  rwa [true_and] at hgives

theorem Gives.fraction {ps : List Part} {cs : List Char} {c : Prop} {fs : Fields}
    (h : Gives ps cs c fs) (n : Nat) (hps : StopAtDigits ps) :
    Gives (.field .fraction :: ps) (Text.field 6 n ++ cs) c
      ((.fraction, Text.field 6 n) :: fs) := by
  have hfirst := areDigits_field 6 n
  obtain ⟨d, ds, hds⟩ : ∃ d ds, Text.field 6 n = d :: ds := ⟨_, _, rfl⟩
  have hlength : ds.length = 5 := by
    have hsix := length_field 6 n
    rw [hds] at hsix
    exact Nat.succ.inj hsix
  rw [hds] at hfirst ⊢
  obtain ⟨⟨k, hk, rfl⟩, hrest⟩ := List.forall_mem_cons.1 hfirst
  obtain ⟨short, hways, hshort⟩ := exists_ways_digitsUpTo hrest cs
  rw [hlength] at hways
  have hfraction : Field.fraction.pattern.ways (digitChar k :: (ds ++ cs)) =
      (if True then [(digitChar k :: ds, cs)] else []) ++
        short.map fun v => (digitChar k :: v.1, v.2) := by
    change List.flatMap _ (anyDigit.ways (digitChar k :: (ds ++ cs))) = _
    rw [ways_anyDigit hk, List.flatMap_singleton]
    change List.map _ ((digitsUpTo 5).ways (ds ++ cs)) = _
    rw [hways]
    rfl
  have hgives := h.field hfraction (by
    intro w hw
    obtain ⟨v, hv, rfl⟩ := List.mem_map.1 hw
    obtain ⟨j, rest, hj, hv⟩ := hshort v hv
    change ∀ m ∈ matchings ps v.2, m.2 ≠ []
    rw [hv]
    exact hps j hj rest)
  rwa [true_and] at hgives

/-! ### Minutes of an offset -/

theorem ways_row_cons (p : Pattern) (ps : List Pattern) (cs : List Char) :
    (row (p :: ps)).ways cs =
      (p.ways cs).flatMap fun w => ((row ps).ways w.2).map fun v => (w.1 ++ v.1, v.2) := rfl

theorem ways_row_of_single {p : Pattern} {cs taken rest : List Char} (ps : List Pattern)
    (h : p.ways cs = [(taken, rest)]) :
    (row (p :: ps)).ways cs = ((row ps).ways rest).map fun v => (taken ++ v.1, v.2) := by
  rw [ways_row_cons, h, List.flatMap_singleton]

theorem ways_minutes {m n : Nat} (hm : m < 10) (hn : n < 10) :
    (row [digit 0 5, anyDigit]).ways [digitChar m, digitChar n] =
      if m ≤ 5 then [([digitChar m, digitChar n], [])] else [] := by
  have hlast : (row [anyDigit]).ways [digitChar n] = [([digitChar n], [])] :=
    ways_row_of_single [] (ways_anyDigit hn [])
  rw [ways_row_cons, ways_digit hm]
  split_ifs with h₁ h₂ h₂
  · rw [List.flatMap_singleton, hlast]
    rfl
  · exact absurd h₁.2 h₂
  · exact absurd ⟨Nat.zero_le m, h₂⟩ h₁
  · rfl

/-- The colon of an offset is optional, but no digit. -/
theorem ways_colon_minutes {m n : Nat} (hm : m < 10) (hn : n < 10) :
    (row [optional (char ':'), digit 0 5, anyDigit]).ways [':', digitChar m, digitChar n] =
      if m ≤ 5 then [([':', digitChar m, digitChar n], [])] else [] := by
  have hcolon : (optional (char ':')).ways [':', digitChar m, digitChar n] =
      [([':'], [digitChar m, digitChar n]), ([], [':', digitChar m, digitChar n])] := rfl
  have hwithout : (row [digit 0 5, anyDigit]).ways [':', digitChar m, digitChar n] = [] := rfl
  rw [ways_row_cons, hcolon, List.flatMap_cons, List.flatMap_singleton, hwithout,
    ways_minutes hm hn]
  split_ifs <;> rfl

end TypedParams.Reading

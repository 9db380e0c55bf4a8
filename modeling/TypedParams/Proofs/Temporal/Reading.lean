import TypedParams.Proofs.Calendar.Date
import TypedParams.Proofs.Temporal.Matching
import TypedParams.Proofs.Temporal.Shape

/-! Lenient readings of literals. Main statement: of the literals whose fields fit their width,
those of valid dates, times and offsets can be read and no others. -/
namespace TypedParams

/-- A month and a day that can be read, whether the month has the day or not. -/
def Date.IsReadable (d : Date) : Prop :=
  (1 ≤ d.month ∧ d.month ≤ 12) ∧ 1 ≤ d.day ∧ d.day ≤ 31

theorem Date.Valid.isReadable {d : Date} (h : d.Valid) : d.IsReadable :=
  ⟨h.2.1, h.2.2.1, Nat.le_trans h.2.2.2 (daysInMonth_le d.year d.month)⟩

/-- A time of day that can be read. -/
def TimeOfDay.IsReadable (t : TimeOfDay) : Prop := t.hour ≤ 23 ∧ t.minute ≤ 59 ∧ t.second ≤ 61

theorem TimeOfDay.Valid.isReadable {t : TimeOfDay} (h : t.Valid) : t.IsReadable := by
  obtain ⟨hhour, hminute, hsecond, -⟩ := h
  exact ⟨by omega, by omega, by omega⟩

namespace Reading
open Text Text.Pattern

/-! ### Values of fields -/

theorem digitsValue_append_digit {n : Nat} (cs : List Char) (h : n < 10) :
    digitsValue (cs ++ [digitChar n]) = 10 * digitsValue cs + n := by
  simp [digitsValue, List.filterMap_append, digit?_digitChar h]

theorem digitsValue_append_field (cs : List Char) (width n : Nat) :
    digitsValue (cs ++ Text.field width n) = 10 ^ width * digitsValue cs + n % 10 ^ width := by
  induction width generalizing n with
  | zero => simp [Text.field, Nat.mod_one]
  | succ width ih =>
    rw [field_succ, ← List.append_assoc, digitsValue_append_digit _ (Nat.mod_lt n (by decide)), ih,
      Nat.pow_succ', Nat.mod_mul, Nat.mul_add, Nat.mul_assoc]
    omega

theorem digitsValue_field (width : Nat) {n : Nat} (h : n < 10 ^ width) :
    digitsValue (Text.field width n) = n := by
  have hvalue := digitsValue_append_field [] width n
  rwa [List.nil_append, Nat.mod_eq_of_lt h, show digitsValue [] = 0 from rfl, Nat.mul_zero,
    Nat.zero_add] at hvalue

theorem digitsValue_offset {o : Offset} (ho : o.InWidth) :
    digitsValue o.literal = 100 * o.hour + o.minute := by
  have hsign : digitsValue [if o.west then '-' else '+'] = 0 := by split_ifs <;> rfl
  have hcolon : ∀ cs, digitsValue (cs ++ [':']) = digitsValue cs := by
    intro cs
    have hskip : [':'].filterMap digit? = [] := rfl
    rw [digitsValue, List.filterMap_append, hskip, List.append_nil]
    rfl
  have htext : o.literal = ([if o.west then '-' else '+'] ++ Text.field 2 o.hour ++ [':']) ++
      Text.field 2 o.minute := by
    simp [Offset.literal]
  rw [htext, digitsValue_append_field, hcolon, digitsValue_append_field, hsign]
  have hhour := ho.1
  have hminute := ho.2
  omega

theorem natAbs_offsetSeconds {o : Offset} (ho : o.InWidth) :
    (offsetSeconds o.literal).natAbs = (o.hour * 60 + o.minute) * 60 := by
  have hminute := ho.2
  rw [offsetSeconds, digitsValue_offset ho]
  split_ifs <;> omega

/-! ### Fields of literals -/

def dateFields (d : Date) : Fields :=
  [(.year, Text.field 4 d.year), (.month, Text.field 2 d.month), (.day, Text.field 2 d.day)]

def timeFields (t : TimeOfDay) : Fields :=
  [(.hour, Text.field 2 t.hour), (.minute, Text.field 2 t.minute),
    (.second, Text.field 2 t.second), (.fraction, Text.field 6 t.micro)]

theorem Gives.date {d : Date} {ps : List Part} {cs : List Char} {c : Prop} {fs : Fields}
    (h : Gives ps cs c fs) (hd : d.InWidth) (hps : StopAtDigits ps) :
    Gives (dateParts ++ ps) (d.literal ++ cs) (d.IsReadable ∧ c) (dateFields d ++ fs) := by
  obtain ⟨-, hmonth, hday⟩ := hd
  have hafterDay := h.twoDigits twoDigits_day hday hps
  have hafterMonth :=
    (hafterDay.mark '-').twoDigits twoDigits_month hmonth (stopAtDigits_char rfl _)
  have hafterYear := (hafterMonth.mark '-').year d.year
  have htext : d.literal ++ cs = Text.field 4 d.year ++
      '-' :: (Text.field 2 d.month ++ '-' :: (Text.field 2 d.day ++ cs)) := by
    simp only [Date.literal, List.append_assoc, List.cons_append]
  rw [htext]
  exact hafterYear.congr and_assoc.symm

theorem Gives.time {t : TimeOfDay} {ps : List Part} {cs : List Char} {c : Prop} {fs : Fields}
    (h : Gives ps cs c fs) (ht : t.InWidth) (hps : StopAtDigits ps) :
    Gives (timeParts ++ ps) (t.literal ++ cs) (t.IsReadable ∧ c) (timeFields t ++ fs) := by
  obtain ⟨hhour, hminute, hsecond, -⟩ := ht
  have hafterFraction := h.fraction t.micro hps
  have hafterSecond :=
    (hafterFraction.mark '.').twoDigits twoDigits_second hsecond (stopAtDigits_char rfl _)
  have hafterMinute :=
    (hafterSecond.mark ':').twoDigits twoDigits_minute hminute (stopAtDigits_char rfl _)
  have hafterHour :=
    (hafterMinute.mark ':').twoDigits twoDigits_hour hhour (stopAtDigits_char rfl _)
  have htext : t.literal ++ cs = Text.field 2 t.hour ++ ':' :: (Text.field 2 t.minute ++
      ':' :: (Text.field 2 t.second ++ '.' :: (Text.field 6 t.micro ++ cs))) := by
    simp only [TimeOfDay.literal, List.append_assoc, List.cons_append]
  rw [htext]
  refine hafterHour.congr ?_
  simp only [Nat.zero_le, true_and, TimeOfDay.IsReadable, and_assoc]

theorem Gives.moment {m : Moment} {ps : List Part} {cs : List Char} {c : Prop} {fs : Fields}
    (h : Gives ps cs c fs) (hm : m.InWidth) (hps : StopAtDigits ps) :
    Gives (dateParts ++ .mark Pattern.blanks :: (timeParts ++ ps)) (m.literal ++ cs)
      ((m.date.IsReadable ∧ m.time.IsReadable) ∧ c)
      (dateFields m.date ++ (timeFields m.time ++ fs)) := by
  have hhour : m.time.hour / 10 % 10 < 10 := Nat.mod_lt _ (by decide)
  have hafterTime := h.time hm.2 hps
  have hafterSpace := hafterTime.space hhour
  have hafterDate := hafterSpace.date hm.1 (stopAtDigits_blanks _)
  rw [Moment.literal, List.append_assoc]
  exact hafterDate.congr and_assoc.symm

/-- Hours are not limited, minutes are. -/
theorem ways_offset (o : Offset) :
    Field.offset.pattern.ways o.literal =
      (if o.minute / 10 % 10 ≤ 5 then [(o.literal, [])] else []) ++ [] := by
  have hlt : ∀ n, n % 10 < 10 := fun n => Nat.mod_lt n (by decide)
  have hsign : ∀ cs, (oneOf ['+', '-']).ways ((if o.west then '-' else '+') :: cs) =
      [([if o.west then '-' else '+'], cs)] := by
    intro cs
    refine if_pos ?_
    split_ifs <;> decide
  change (row [oneOf ['+', '-'], anyDigit, anyDigit, optional (char ':'), digit 0 5, anyDigit]).ways
    ((if o.west then '-' else '+') :: digitChar (o.hour / 10 % 10) :: digitChar (o.hour % 10) ::
      [':', digitChar (o.minute / 10 % 10), digitChar (o.minute % 10)]) = _
  rw [ways_row_of_single _ (hsign _), ways_row_of_single _ (ways_anyDigit (hlt _) _),
    ways_row_of_single _ (ways_anyDigit (hlt _) _), ways_colon_minutes (hlt _) (hlt _)]
  by_cases h : o.minute / 10 % 10 ≤ 5
  · rw [if_pos h, if_pos h]
    rfl
  · rw [if_neg h, if_neg h]
    rfl

theorem gives_offset {o : Offset} (ho : o.InWidth) :
    Gives [.field .offset] o.literal (o.minute < 60) [(.offset, o.literal)] := by
  have hgives := gives_nil.field (ways_offset o) (by simp)
  have hminute := ho.2
  have htens : o.minute / 10 % 10 ≤ 5 ↔ o.minute < 60 := by omega
  exact hgives.congr ((and_iff_left trivial).trans htens)

/-! ### Which literals are read -/

theorem foldl_put_dateFields {d : Date} (hd : d.InWidth) (r : Reading) (fs : Fields) :
    (dateFields d ++ fs).foldl put r = fs.foldl put { r with date := d } := by
  obtain ⟨hyear, hmonth, hday⟩ := hd
  have hfields : (dateFields d).foldl put r = { r with date := d } := by
    simp only [dateFields, List.foldl_cons, List.foldl_nil, put, digitsValue_field 4 hyear,
      digitsValue_field 2 hmonth, digitsValue_field 2 hday]
  rw [List.foldl_append, hfields]

theorem foldl_put_timeFields {t : TimeOfDay} (ht : t.InWidth) (r : Reading) (fs : Fields) :
    (timeFields t ++ fs).foldl put r = fs.foldl put { r with time := t } := by
  obtain ⟨hhour, hminute, hsecond, hmicro⟩ := ht
  have hfields : (timeFields t).foldl put r = { r with time := t } := by
    simp only [timeFields, List.foldl_cons, List.foldl_nil, put, digitsValue_field 2 hhour,
      digitsValue_field 2 hminute, digitsValue_field 2 hsecond, digitsValue_field 6 hmicro,
      length_field, Nat.sub_self, Nat.pow_eq, Nat.pow_zero, Nat.mul_one]
  rw [List.foldl_append, hfields]

theorem ofChars?_eq_some_iff {ps : List Part} {cs : List Char} {c : Prop} {fs : Fields}
    {r x : Reading} (h : Gives ps cs c fs) (hr : ofFields fs = r) :
    ofChars? ps cs = some x ↔ (c ∧ r.Valid) ∧ x = r := by
  by_cases hc : c
  · have hread : ofChars? ps cs = if r.Valid then some r else none := by
      rw [ofChars?, h.1 hc, ← hr]
      rfl
    rw [hread]
    split_ifs with hvalid
    · simp [hc, hvalid, eq_comm]
    · simp [hvalid]
  · have hread : ofChars? ps cs = none := by
      rw [ofChars?, h.2 hc]
      rfl
    simp [hread, hc]

theorem valid_start : start.Valid := by decide

theorem ofChars?_date {d : Date} (hd : d.InWidth) {x : Reading} :
    ofChars? (parts .date) d.literal = some x ↔ d.Valid ∧ x = { start with date := d } := by
  have hgives := gives_nil.date hd stopAtDigits_nil
  rw [List.append_nil, List.append_nil] at hgives
  refine (ofChars?_eq_some_iff hgives (foldl_put_dateFields hd start [])).trans
    (and_congr_left' ?_)
  constructor
  · intro hx
    obtain ⟨-, h⟩ := hx
    exact h.1
  · intro h
    exact ⟨⟨h.isReadable, trivial⟩, h, valid_start.2⟩

theorem ofChars?_time {t : TimeOfDay} (ht : t.InWidth) {x : Reading} :
    ofChars? (parts .time) t.literal = some x ↔ t.Valid ∧ x = { start with time := t } := by
  have hgives := gives_nil.time ht stopAtDigits_nil
  rw [List.append_nil, List.append_nil] at hgives
  refine (ofChars?_eq_some_iff hgives (foldl_put_timeFields ht start [])).trans
    (and_congr_left' ?_)
  constructor
  · intro hx
    obtain ⟨-, h⟩ := hx
    exact h.2.1
  · intro h
    exact ⟨⟨h.isReadable, trivial⟩, valid_start.1, h, valid_start.2.2⟩

theorem ofFields_moment {m : Moment} (hm : m.InWidth) (fs : Fields) :
    ofFields (dateFields m.date ++ (timeFields m.time ++ fs)) = fs.foldl put ⟨m.date, m.time, 0⟩ :=
  (foldl_put_dateFields hm.1 start _).trans (foldl_put_timeFields hm.2 _ fs)

theorem ofChars?_datetime {m : Moment} (hm : m.InWidth) {x : Reading} :
    ofChars? (parts .datetime) m.literal = some x ↔ m.Valid ∧ x = ⟨m.date, m.time, 0⟩ := by
  have hgives := gives_nil.moment hm stopAtDigits_nil
  rw [List.append_nil, List.append_nil] at hgives
  refine (ofChars?_eq_some_iff hgives (ofFields_moment hm [])).trans (and_congr_left' ?_)
  constructor
  · intro hx
    obtain ⟨-, h⟩ := hx
    exact ⟨h.1, h.2.1⟩
  · intro h
    exact ⟨⟨⟨h.1.isReadable, h.2.isReadable⟩, trivial⟩, h.1, h.2, valid_start.2.2⟩

/-- The pattern refuses too many minutes, the check of the reading too many hours. -/
theorem ofChars?_timestamp {t : Timestamp} (ht : t.InWidth) {x : Reading} :
    ofChars? (parts .timestamp) t.literal = some x ↔
      t.Valid ∧ x = ⟨t.moment.date, t.moment.time, offsetSeconds t.offset.literal⟩ := by
  have hgives := (gives_offset ht.2).moment ht.1 (stopAtDigits_offset [])
  have hread := ofFields_moment ht.1 [(.offset, t.offset.literal)]
  have hahead := natAbs_offsetSeconds ht.2
  refine (ofChars?_eq_some_iff hgives hread).trans (and_congr_left' ?_)
  constructor
  · intro hx
    obtain ⟨⟨-, hminute⟩, hdate, htime, hless⟩ := hx
    change (offsetSeconds t.offset.literal).natAbs < 86400 at hless
    exact ⟨⟨hdate, htime⟩, by omega, hminute⟩
  · intro hx
    obtain ⟨⟨hdate, htime⟩, hhour, hminute⟩ := hx
    refine ⟨⟨⟨hdate.isReadable, htime.isReadable⟩, hminute⟩, hdate, htime, ?_⟩
    change (offsetSeconds t.offset.literal).natAbs < 86400
    omega

end Reading
end TypedParams

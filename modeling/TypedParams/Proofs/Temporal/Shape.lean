import TypedParams.Proofs.Text.Pattern
import TypedParams.Temporal.Format

/-! Shapes and literals. Main statement: the texts of the shape of a type are the literals of dates
and times whose fields have no more digits than there is room for, whether or not they are valid. -/
namespace TypedParams
open Text Text.Pattern

/-- Fields that fit the digits of a literal. -/
def Date.InWidth (d : Date) : Prop := d.year < 10000 ∧ d.month < 100 ∧ d.day < 100

def TimeOfDay.InWidth (t : TimeOfDay) : Prop :=
  t.hour < 100 ∧ t.minute < 100 ∧ t.second < 100 ∧ t.micro < 1000000

def Moment.InWidth (m : Moment) : Prop := m.date.InWidth ∧ m.time.InWidth

def Offset.InWidth (o : Offset) : Prop := o.hour < 100 ∧ o.minute < 100

def Timestamp.InWidth (t : Timestamp) : Prop := t.moment.InWidth ∧ t.offset.InWidth

namespace TemporalType

theorem takes_dateShape :
    (row dateShape).Takes fun xs => ∃ d : Date, d.InWidth ∧ xs = d.literal := by
  refine (takes_row_mark (takes_row_mark (takes_digits 4) '-' (takes_digits 2)) '-'
    (takes_digits 2)).congr ?_
  intro xs
  constructor
  · intro hx
    obtain ⟨_, _, ⟨_, _, ⟨year, hyear, rfl⟩, ⟨month, hmonth, rfl⟩, rfl⟩,
      ⟨day, hday, rfl⟩, rfl⟩ := hx
    exact ⟨⟨year, month, day⟩, ⟨hyear, hmonth, hday⟩, rfl⟩
  · intro hx
    obtain ⟨⟨year, month, day⟩, ⟨hyear, hmonth, hday⟩, rfl⟩ := hx
    exact ⟨_, _, ⟨_, _, ⟨year, hyear, rfl⟩, ⟨month, hmonth, rfl⟩, rfl⟩, ⟨day, hday, rfl⟩, rfl⟩

theorem takes_timeShape :
    (row timeShape).Takes fun xs => ∃ t : TimeOfDay, t.InWidth ∧ xs = t.literal := by
  refine (takes_row_mark (takes_row_mark (takes_row_mark (takes_digits 2) ':' (takes_digits 2)) ':'
    (takes_digits 2)) '.' (takes_digits 6)).congr ?_
  intro xs
  constructor
  · intro hx
    obtain ⟨_, _, ⟨_, _, ⟨_, _, ⟨hour, hhour, rfl⟩, ⟨minute, hminute, rfl⟩, rfl⟩,
      ⟨second, hsecond, rfl⟩, rfl⟩, ⟨micro, hmicro, rfl⟩, rfl⟩ := hx
    exact ⟨⟨hour, minute, second, micro⟩, ⟨hhour, hminute, hsecond, hmicro⟩, rfl⟩
  · intro hx
    obtain ⟨⟨hour, minute, second, micro⟩, ⟨hhour, hminute, hsecond, hmicro⟩, rfl⟩ := hx
    exact ⟨_, _, ⟨_, _, ⟨_, _, ⟨hour, hhour, rfl⟩, ⟨minute, hminute, rfl⟩, rfl⟩,
      ⟨second, hsecond, rfl⟩, rfl⟩, ⟨micro, hmicro, rfl⟩, rfl⟩

theorem takes_offsetShape :
    (row offsetShape).Takes fun xs => ∃ o : Offset, o.InWidth ∧ xs = o.literal := by
  have hsign := takes_row_singleton (takes_oneOf ['+', '-'])
  refine (takes_row_mark (takes_row_append hsign (takes_digits 2)) ':' (takes_digits 2)).congr ?_
  intro xs
  constructor
  · intro hx
    obtain ⟨_, _, ⟨_, _, ⟨sign, hmem, rfl⟩, ⟨hour, hhour, rfl⟩, rfl⟩,
      ⟨minute, hminute, rfl⟩, rfl⟩ := hx
    rcases List.mem_pair.1 hmem with rfl | rfl
    · exact ⟨⟨false, hour, minute⟩, ⟨hhour, hminute⟩, rfl⟩
    · exact ⟨⟨true, hour, minute⟩, ⟨hhour, hminute⟩, rfl⟩
  · intro hx
    obtain ⟨⟨west, hour, minute⟩, ⟨hhour, hminute⟩, rfl⟩ := hx
    refine ⟨_, _, ⟨[if west then '-' else '+'], _, ⟨_, ?_, rfl⟩, ⟨hour, hhour, rfl⟩, rfl⟩,
      ⟨minute, hminute, rfl⟩, rfl⟩
    cases west <;> decide

theorem takes_momentShape :
    (row (dateShape ++ [char ' '] ++ timeShape)).Takes
      fun xs => ∃ m : Moment, m.InWidth ∧ xs = m.literal := by
  refine (takes_row_mark takes_dateShape ' ' takes_timeShape).congr ?_
  intro xs
  constructor
  · intro hx
    obtain ⟨_, _, ⟨date, hdate, rfl⟩, ⟨time, htime, rfl⟩, rfl⟩ := hx
    exact ⟨⟨date, time⟩, ⟨hdate, htime⟩, rfl⟩
  · intro hx
    obtain ⟨⟨date, time⟩, ⟨hdate, htime⟩, rfl⟩ := hx
    exact ⟨_, _, ⟨date, hdate, rfl⟩, ⟨time, htime, rfl⟩, rfl⟩

theorem takes_timestampShape :
    TemporalType.timestamp.shape.Takes fun xs => ∃ t : Timestamp, t.InWidth ∧ xs = t.literal := by
  refine (takes_row_append takes_momentShape takes_offsetShape).congr ?_
  intro xs
  constructor
  · intro hx
    obtain ⟨_, _, ⟨moment, hmoment, rfl⟩, ⟨offset, hoffset, rfl⟩, rfl⟩ := hx
    exact ⟨⟨moment, offset⟩, ⟨hmoment, hoffset⟩, rfl⟩
  · intro hx
    obtain ⟨⟨moment, offset⟩, ⟨hmoment, hoffset⟩, rfl⟩ := hx
    exact ⟨_, _, ⟨moment, hmoment, rfl⟩, ⟨offset, hoffset, rfl⟩, rfl⟩

end TemporalType
end TypedParams

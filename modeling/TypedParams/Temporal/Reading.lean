import TypedParams.Calendar.Moment
import TypedParams.Temporal.Basic
import TypedParams.Text.Pattern

/-! Dates and times read field by field from a text. The fields are read leniently, in fewer digits
too, and what they make is then held against the calendar and the clock. -/
namespace TypedParams

/-- What a text gives: a date and a time, and how far they are ahead of universal time. -/
structure Reading where
  date : Date
  time : TimeOfDay
  aheadSeconds : Int

namespace Reading
open Text Text.Pattern

inductive Field where
  | year
  | month
  | day
  | hour
  | minute
  | second
  | fraction
  | offset

/-- How a field is written. A minute has 62 seconds here and an offset any number of hours. What no
shape has is left out: offsets with seconds or of a letter, and digits other than the ASCII ones. -/
def Field.pattern : Field → Pattern
  | year => row (digits 4)
  | month => anyOf [seq (digit 1 1) (digit 0 2), seq (digit 0 0) (digit 1 9), digit 1 9]
  | day =>
    anyOf [seq (digit 3 3) (digit 0 1), seq (digit 1 2) anyDigit, seq (digit 0 0) (digit 1 9),
      digit 1 9, seq (char ' ') (digit 1 9)]
  | hour => anyOf [seq (digit 2 2) (digit 0 3), seq (digit 0 1) anyDigit, anyDigit]
  | minute => anyOf [seq (digit 0 5) anyDigit, anyDigit]
  | second => anyOf [seq (digit 6 6) (digit 0 1), seq (digit 0 5) anyDigit, anyDigit]
  | fraction => seq anyDigit (digitsUpTo 5)
  | offset =>
    row [oneOf ['+', '-'], anyDigit, anyDigit, optional (char ':'), digit 0 5, anyDigit]

/-- A part of a format: a field, or what stands between fields. -/
inductive Part where
  | field (f : Field)
  | mark (p : Pattern)

def dateParts : List Part :=
  [.field .year, .mark (char '-'), .field .month, .mark (char '-'), .field .day]

def timeParts : List Part :=
  [.field .hour, .mark (char ':'), .field .minute, .mark (char ':'), .field .second,
    .mark (char '.'), .field .fraction]

/-- The parts of the literals of a type. -/
def parts : TemporalType → List Part
  | .timestamp => dateParts ++ .mark blanks :: timeParts ++ [.field .offset]
  | .date => dateParts
  | .time => timeParts
  | .datetime => dateParts ++ .mark blanks :: timeParts

/-- The fields of a text. -/
abbrev Fields := List (Field × List Char)

/-- The ways of matching parts at the front of a text, each with its fields and what it leaves. -/
def matchings : List Part → List Char → List (Fields × List Char)
  | [], cs => [([], cs)]
  | .mark p :: ps, cs => (p.ways cs).flatMap fun w => matchings ps w.2
  | .field f :: ps, cs =>
    (f.pattern.ways cs).flatMap fun w =>
      (matchings ps w.2).map fun m => ((f, w.1) :: m.1, m.2)

/-- The number written by the digits in a text. -/
def digitsValue (cs : List Char) : Nat := (cs.filterMap digit?).foldl (fun n d => 10 * n + d) 0

/-- Hours and minutes ahead, or behind after a minus sign. -/
def offsetSeconds (cs : List Char) : Int :=
  let n := digitsValue cs
  let seconds := (n / 100 * 60 + n % 100) * 60
  if cs.head? = some '-' then -seconds else seconds

/-- What a text gives before any field is read. -/
def start : Reading := ⟨⟨1900, 1, 1⟩, ⟨0, 0, 0, 0⟩, 0⟩

def put (r : Reading) : Field × List Char → Reading
  | (.year, cs) => { r with date.year := digitsValue cs }
  | (.month, cs) => { r with date.month := digitsValue cs }
  | (.day, cs) => { r with date.day := digitsValue cs }
  | (.hour, cs) => { r with time.hour := digitsValue cs }
  | (.minute, cs) => { r with time.minute := digitsValue cs }
  | (.second, cs) => { r with time.second := digitsValue cs }
  | (.fraction, cs) => { r with time.micro := digitsValue cs * Nat.pow 10 (6 - cs.length) }
  | (.offset, cs) => { r with aheadSeconds := offsetSeconds cs }

def ofFields (fs : Fields) : Reading := fs.foldl put start

/-- In the calendar, on the clock, and less than a day away from universal time. -/
def Valid (r : Reading) : Prop := r.date.Valid ∧ r.time.Valid ∧ r.aheadSeconds.natAbs < 86400

instance (r : Reading) : Decidable r.Valid := by unfold Valid; infer_instance

/-- The fields of the preferred way, which has to leave nothing over. -/
def whole? : List (Fields × List Char) → Option Fields
  | (fs, []) :: _ => some fs
  | _ => none

def ofChars? (ps : List Part) (cs : List Char) : Option Reading := do
  let fs ← whole? (matchings ps cs)
  let r := ofFields fs
  if r.Valid then some r else none

end Reading
end TypedParams

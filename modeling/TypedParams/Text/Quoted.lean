import TypedParams.Text.Digits
import TypedParams.Text.Ranges

/-! Quoted forms of strings and byte strings, as messages show them. -/
namespace TypedParams.Text

/-- Double quotes are used only where they save escaping single ones. -/
def quoteFor (single double : Bool) : Char :=
  if single && !double then '"' else '\''

/-- Escapes shared by strings and byte strings. -/
def escapeCommon? (quote c : Char) : Option (List Char) :=
  if c = quote || c = '\\' then some ['\\', c]
  else if c = '\n' then some ['\\', 'n']
  else if c = '\r' then some ['\\', 'r']
  else if c = '\t' then some ['\\', 't']
  else none

def escapeChar (quote c : Char) : List Char :=
  match escapeCommon? quote c with
  | some cs => cs
  | none =>
    if isPrintable c then [c]
    else if c.toNat < 0x100 then '\\' :: 'x' :: hex 2 c.toNat
    else if c.toNat < 0x10000 then '\\' :: 'u' :: hex 4 c.toNat
    else '\\' :: 'U' :: hex 8 c.toNat

/-- Unpaired surrogates are no characters: U+D800 + k is kept as the private-use U+10F800 + k. -/
def isSurrogate (c : Char) : Bool := 0x10F800 ≤ c.toNat

/-- As `escapeChar`, with the surrogates that characters stand for. -/
def escapeSurrogate (quote c : Char) : List Char :=
  if isSurrogate c then '\\' :: 'u' :: hex 4 (c.toNat - 0x10F800 + 0xD800) else escapeChar quote c

def quotedBy (escape : Char → Char → List Char) (s : String) : String :=
  let cs := s.toList
  let quote := quoteFor (cs.contains '\'') (cs.contains '"')
  String.ofList (quote :: cs.flatMap (escape quote) ++ [quote])

def quoted (s : String) : String := quotedBy escapeChar s

def escapeByte (quote : Char) (b : UInt8) : List Char :=
  let c := Char.ofNat b.toNat
  match escapeCommon? quote c with
  | some cs => cs
  | none => if 0x20 ≤ b && b < 0x7F then [c] else '\\' :: 'x' :: hex 2 b.toNat

def byteQuote (bs : List UInt8) : Char := quoteFor (bs.contains 0x27) (bs.contains 0x22)

def quotedBytes (bs : List UInt8) : String :=
  let quote := byteQuote bs
  String.ofList ('b' :: quote :: bs.flatMap (escapeByte quote) ++ [quote])

/-- A mutable buffer escapes the single quote under either choice of quotes, and no other. -/
def quotedBuffer (bs : List UInt8) : String :=
  let quote := byteQuote bs
  "bytearray(" ++ String.ofList ('b' :: quote :: bs.flatMap (escapeByte '\'') ++ [quote]) ++ ")"

end TypedParams.Text

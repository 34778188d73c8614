import NoticeLedger.Text
import NoticeLedger.Text.Printable

/-!
# Quoted texts

A quoted text shows every code point in printable characters. It stands between single quotes,
or between double quotes if it holds a single quote and no double one. A backslash and the chosen
quote are preceded by a backslash; line feed, carriage return and tab have letters; any other
unprintable code point is written in hexadecimal with two, four or eight digits.
-/

namespace NoticeLedger

/-- The lower-case hexadecimal digits of a number, at least `width` of them. -/
def hexDigits (width n : Nat) : List Char :=
  let ds := Nat.toDigits 16 n
  List.replicate (width - ds.length) '0' ++ ds

namespace Text

/-- A code point in hexadecimal, with the letter that tells how many digits follow. -/
def hexEscape (n : Nat) : List Char :=
  if n < 0x100 then '\\' :: 'x' :: hexDigits 2 n
  else if n < 0x10000 then '\\' :: 'u' :: hexDigits 4 n
  else '\\' :: 'U' :: hexDigits 8 n

/-- One symbol inside quotes of the given kind. -/
def quoteSymbol (quote : Char) : Symbol → List Char
  | .surrogate s => hexEscape (Symbol.surrogate s).codePoint
  | .char c      =>
    if c == quote || c == '\\' then ['\\', c]
    else if c == '\n' then ['\\', 'n']
    else if c == '\r' then ['\\', 'r']
    else if c == '\t' then ['\\', 't']
    else if isPrintable c.toNat then [c]
    else hexEscape c.toNat

/-- The quote that a text is shown in. -/
def quoteOf (t : Text) : Char :=
  if t.contains (.char '\x27') && !t.contains (.char '\x22') then '\x22' else '\x27'

/-- The text between quotes, in printable characters. -/
def quoted (t : Text) : String :=
  let quote := quoteOf t
  String.ofList (quote :: t.flatMap (quoteSymbol quote) ++ [quote])

end Text

end NoticeLedger

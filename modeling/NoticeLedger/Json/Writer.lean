import NoticeLedger.Json
import NoticeLedger.Decimal.Layout

/-!
# Canonical text of JSON values

One text per value up to the order of members: members stand in the order of their names, no
blanks are written, integers are written in full and doubles with their shortest digits. A string
escapes quotes, backslashes and control characters, and over the ASCII alphabet also everything
else beyond the tilde.
-/

namespace NoticeLedger

/-- The decimal digits of an integer, after a minus sign if it is negative. -/
def intText (n : Int) : List Char :=
  if n < 0 then '-' :: Nat.toDigits 10 n.natAbs else Nat.toDigits 10 n.natAbs

/-- The numbers of JSON documents; the names for what is not finite are not standard JSON. -/
def Layout.json : Layout := { Layout.exact with notANumber := "NaN", infinity := "Infinity" }

namespace Json

/-- The code points that a document writes as they are. -/
inductive Alphabet where
  | unicode
  | ascii
  deriving DecidableEq, Repr

/-! ### Strings -/

/-- The lower-case hexadecimal digit of a number below sixteen. -/
def hexDigit (n : Nat) : Char :=
  if n < 10 then Char.ofNat ('0'.toNat + n) else Char.ofNat ('a'.toNat + (n - 10))

/-- A 16-bit unit as an escape. -/
def unitEscape (n : Nat) : List Char :=
  ['\\', 'u', hexDigit (n / 4096 % 16), hexDigit (n / 256 % 16), hexDigit (n / 16 % 16),
    hexDigit (n % 16)]

/-- A code point as one escape, or as two for a pair of surrogates. -/
def pointEscape (n : Nat) : List Char :=
  if n < 0x10000 then unitEscape n
  else unitEscape (0xD800 + (n - 0x10000) / 0x400) ++ unitEscape (0xDC00 + (n - 0x10000) % 0x400)

/-- Whether a code point is written as it is. -/
def Alphabet.isPlain (alphabet : Alphabet) (n : Nat) : Bool :=
  match alphabet with
  | unicode => 0x20 ≤ n
  | ascii   => 0x20 ≤ n && n < 0x7F

/-- One symbol inside a string. -/
def writeSymbol (alphabet : Alphabet) : Symbol → Text
  | .char '\x22' => ['\\', '\x22'].map Symbol.char
  | .char '\\'   => "\\\\".toList.map Symbol.char
  | .char '\n'   => "\\n".toList.map Symbol.char
  | .char '\r'   => "\\r".toList.map Symbol.char
  | .char '\t'   => "\\t".toList.map Symbol.char
  | .char '\x08' => "\\b".toList.map Symbol.char
  | .char '\x0c' => "\\f".toList.map Symbol.char
  | s            =>
    if alphabet.isPlain s.codePoint then [s] else (pointEscape s.codePoint).map .char

/-- A string between quotes. -/
def writeText (alphabet : Alphabet) (t : Text) : Text :=
  .char '\x22' :: t.flatMap (writeSymbol alphabet) ++ [.char '\x22']

/-! ### Values -/

mutual

/-- The text of a value, with members in the order they have. -/
def write (alphabet : Alphabet) : Json → Text
  | null       => Text.ofString "null"
  | bool true  => Text.ofString "true"
  | bool false => Text.ofString "false"
  | int n      => (intText n).map .char
  | float x    => (Layout.json.double Binary.shortest x).map .char
  | str t      => writeText alphabet t
  | arr items  => .char '[' :: writeItems alphabet items ++ [.char ']']
  | obj ms     => .char '\x7b' :: writeMembers alphabet ms ++ [.char '\x7d']

/-- Items with commas between them. -/
def writeItems (alphabet : Alphabet) : List Json → Text
  | []      => []
  | [j]     => write alphabet j
  | j :: js => write alphabet j ++ .char ',' :: writeItems alphabet js

/-- Members with commas between them. -/
def writeMembers (alphabet : Alphabet) : List (Text × Json) → Text
  | []           => []
  | [(k, j)]     => writeText alphabet k ++ .char ':' :: write alphabet j
  | (k, j) :: ms =>
    writeText alphabet k ++ .char ':' :: write alphabet j ++ .char ',' :: writeMembers alphabet ms

end

/-- The canonical text of a value. -/
def canonicalText (alphabet : Alphabet) (j : Json) : Text :=
  write alphabet (sorted j)

end Json

end NoticeLedger

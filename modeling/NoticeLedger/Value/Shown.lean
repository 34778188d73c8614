import NoticeLedger.Value
import NoticeLedger.Decimal.Layout
import NoticeLedger.Text.Quoted
import NoticeLedger.Json.Writer
import NoticeLedger.Json.NumberLiteral

/-!
# Values in messages

The text under which a value appears in a message (`Value.shown`). A text appears as itself, and
inside a container as a quoted text. Integers beyond the longest that is converted have no text
(`Value.isShowable`).
-/

namespace NoticeLedger.Value

/-- A byte inside quotes of the given kind. -/
def quoteByte (quote : Char) (b : UInt8) : List Char :=
  let c := Char.ofNat b.toNat
  if c == quote || c == '\\' then ['\\', c]
  else if c == '\n' then ['\\', 'n']
  else if c == '\r' then ['\\', 'r']
  else if c == '\t' then ['\\', 't']
  else if 0x20 ≤ b.toNat && b.toNat < 0x7F then [c]
  else '\\' :: 'x' :: hexDigits 2 b.toNat

/-- Bytes between quotes behind a `b`. -/
def quotedBytes (bs : List UInt8) : List Char :=
  let quote := if bs.contains 0x27 && !bs.contains 0x22 then '\x22' else '\x27'
  'b' :: quote :: bs.flatMap (quoteByte quote) ++ [quote]

/-- Texts with a comma and a space between neighbours. -/
def commaSeparated (ts : List Text) : Text :=
  Text.join (Text.ofString ", ") ts

/-- The parentheses of a tuple; a single item keeps a comma behind it. -/
def parenthesized : List Text → Text
  | [t] => Text.ofString "(" ++ t ++ Text.ofString ",)"
  | ts  => Text.ofString "(" ++ commaSeparated ts ++ Text.ofString ")"

mutual

/-- The text of a value inside a container. -/
def represented : Value → Text
  | null        => Text.ofString "None"
  | bool true   => Text.ofString "True"
  | bool false  => Text.ofString "False"
  | int n       => (intText n).map .char
  | float x     => Text.ofString (exactText x)
  | text t      => Text.ofString t.quoted
  | bytes bs    => (quotedBytes bs).map .char
  | list items  => Text.ofString "[" ++ commaSeparated (representedItems items) ++ Text.ofString "]"
  | tuple items => parenthesized (representedItems items)
  | set []      => Text.ofString "set()"
  | set items   =>
    Text.ofString "\x7b" ++ commaSeparated (representedItems items) ++ Text.ofString "\x7d"
  | map es      =>
    Text.ofString "\x7b" ++ commaSeparated (representedEntries es) ++ Text.ofString "\x7d"
  | foreign t   => t

/-- The texts of items. -/
def representedItems : List Value → List Text
  | []      => []
  | v :: vs => represented v :: representedItems vs

/-- The texts of entries, each with a colon behind its key. -/
def representedEntries : List (Value × Value) → List Text
  | []           => []
  | (k, v) :: es =>
    (represented k ++ Text.ofString ": " ++ represented v) :: representedEntries es

end

/-- The text of a value in a message. -/
def shown : Value → Text
  | text t => t
  | v      => represented v

/-- The name of the kind of a value. -/
def kindName : Value → String
  | null      => "NoneType"
  | bool _    => "bool"
  | int _     => "int"
  | float _   => "float"
  | text _    => "str"
  | bytes _   => "bytes"
  | list _    => "list"
  | tuple _   => "tuple"
  | set _     => "set"
  | map _     => "dict"
  | foreign _ => "object"

/-- Whether an integer has at most the digits that are converted. -/
def isConvertible (n : Int) : Bool :=
  (Nat.toDigits 10 n.natAbs).length ≤ Json.maxIntegerDigits

mutual

/-- Whether every integer in a value can be shown. -/
def isShowable : Value → Bool
  | int n       => isConvertible n
  | list items  => areShowable items
  | tuple items => areShowable items
  | set items   => areShowable items
  | map es      => areEntriesShowable es
  | _           => true

/-- Whether every item can be shown. -/
def areShowable : List Value → Bool
  | []      => true
  | v :: vs => isShowable v && areShowable vs

/-- Whether every key and value can be shown. -/
def areEntriesShowable : List (Value × Value) → Bool
  | []           => true
  | (k, v) :: es => isShowable k && isShowable v && areEntriesShowable es

end

end NoticeLedger.Value

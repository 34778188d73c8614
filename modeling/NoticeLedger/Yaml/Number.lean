import NoticeLedger.Decimal.Reading
import NoticeLedger.Json.NumberLiteral
import NoticeLedger.Json.StringLiteral
import NoticeLedger.Text.Digit
import NoticeLedger.Text.Split
import NoticeLedger.Yaml.Cursor

/-!
# Numbers in YAML documents

Which plain scalars are numbers, and what numbers they are. Integers are written in base two, eight,
ten or sixteen, and integers and doubles also in base sixty with colons between the places.
Underscores count for nothing.

A scalar that is tagged as a number is read more freely than a plain one: it may hold whatever
`readInteger` or `readFloat` understands.
-/

namespace NoticeLedger.Yaml

/-! ### Places -/

/-- A digit or an underscore. -/
def isGrouped (c : Char) : Bool :=
  c.isDigit || c == '_'

/-- A place in base sixty behind a colon: a number below sixty with one or two digits. -/
def isPlace : List Char → Bool
  | [a]    => a.isDigit
  | [a, b] => '0' ≤ a && a ≤ '5' && b.isDigit
  | _      => false

/-- What is behind a sign, if there is one. -/
def unsigned : List Char → List Char
  | '-' :: cs => cs
  | '+' :: cs => cs
  | cs        => cs

/-! ### Plain scalars -/

/-- A number with underscores that begins with a digit of the given kind. -/
def isGroupedNumber (first : Char → Bool) : List Char → Bool
  | []      => false
  | c :: cs => first c && cs.all isGrouped

/-- A digit other than zero. -/
def isPositiveDigit (c : Char) : Bool :=
  '1' ≤ c && c ≤ '9'

/-- Whether a plain scalar is an integer. -/
def isInteger (cs : List Char) : Bool :=
  match unsigned cs with
  | ['0']            => true
  | '0' :: 'b' :: ds => !ds.isEmpty && ds.all fun c => c == '0' || c == '1' || c == '_'
  | '0' :: 'x' :: ds => !ds.isEmpty && ds.all fun c => (Json.hexValue? c).isSome || c == '_'
  | '0' :: ds        => ds.all fun c => ('0' ≤ c && c ≤ '7') || c == '_'
  | ds               =>
    match splitAt ':' ds with
    | []              => false
    | whole :: places => isGroupedNumber isPositiveDigit whole && places.all isPlace

/-- Nothing, or a power of ten with a sign. -/
def isSignedPower : List Char → Bool
  | []               => true
  | e :: sign :: ds  =>
    (e == 'e' || e == 'E') && (sign == '-' || sign == '+') && !ds.isEmpty && ds.all Char.isDigit
  | _                => false

/-- Digits and underscores, and possibly a power of ten. -/
def isFraction (cs : List Char) : Bool :=
  isSignedPower (cs.dropWhile isGrouped)

/-- Whether a plain scalar is a double. -/
def isFloat (cs : List Char) : Bool :=
  let magnitude := unsigned cs
  let signed := magnitude.length < cs.length
  let word := String.ofList magnitude
  if word ∈ [".inf", ".Inf", ".INF"] then true
  else if word ∈ [".nan", ".NaN", ".NAN"] then !signed
  else
    match magnitude.span (· ≠ '.') with
    | (_, [])              => false
    | ([], _ :: fraction)  => !signed && fraction.head?.any Char.isDigit && isFraction fraction
    | (whole, _ :: fraction) =>
      match splitAt ':' whole with
      | []            => false
      | [_]           => isGroupedNumber Char.isDigit whole && isFraction fraction
      | first :: rest =>
        isGroupedNumber Char.isDigit first && rest.all isPlace && fraction.all isGrouped

/-! ### Values -/

/-- The value of a digit in a base. -/
def digitIn? (base : Nat) (c : Char) : Option Nat :=
  (Json.hexValue? c).filter (· < base)

/-- The letter behind a zero that tells a base. -/
def baseLetter? : Nat → Option Char
  | 2  => some 'b'
  | 8  => some 'o'
  | 16 => some 'x'
  | _  => none

/-- What is behind a zero and the letter of a base. -/
def dropBaseMark (base : Nat) : List Char → List Char
  | '0' :: c :: cs => if baseLetter? base = some c.toLower then cs else '0' :: c :: cs
  | cs             => cs

/-- The integer that digits in a base write, with a sign and blanks around it if there are any. -/
def readDigitsIn (base : Nat) (cs : List Char) : Except Fault Int :=
  let (negative, cs) := Decimal.readSign (trimWhere isNumberBlank (cs.map plainDigit))
  let ds := dropBaseMark base cs
  match ds.mapM (digitIn? base) with
  | none        => .error .notNumber
  | some values =>
    if values.isEmpty then .error .notNumber
    else if base = 10 && values.length > Json.maxIntegerDigits then .error .integerTooLong
    else
      let n := values.foldl (fun n d => base * n + d) 0
      .ok (if negative then -(n : Int) else n)

/-- A number in base sixty from its places. -/
def sexagesimal (places : List Int) : Int :=
  places.foldl (fun n p => 60 * n + p) 0

/-- The magnitude of an integer behind its sign. -/
def readMagnitude (cs : List Char) : Except Fault Int :=
  match cs with
  | []               => .error .emptyNumber
  | ['0']            => .ok 0
  | '0' :: 'b' :: ds => readDigitsIn 2 ds
  | '0' :: 'x' :: ds => readDigitsIn 16 ds
  | '0' :: _         => readDigitsIn 8 cs
  | _                =>
    if cs.contains ':' then ((splitAt ':' cs).mapM (readDigitsIn 10)).map sexagesimal
    else readDigitsIn 10 cs

/-- The integer of a scalar that is tagged as one. -/
def readInteger (cs : List Char) : Except Fault Int :=
  let (negative, cs) := Decimal.readSign (cs.filter (· ≠ '_'))
  (readMagnitude cs).map fun n => if negative then -n else n

/-- A power of sixty as a double. -/
def sixtyTo (n : Nat) : Float :=
  (Decimal.mk (Nat.pow 60 n) 0).toFloat

/-- A double in base sixty from its places, the last of them first. What the highest place stands
for has to be a double. -/
def sexagesimalFloat (places : List Float) : Except Fault Float :=
  if (sixtyTo (places.length - 1)).isFinite then
    .ok (places.zipIdx.foldl (fun x p => x + p.1 * sixtyTo p.2) 0)
  else .error .placeTooHigh

/-- A double without underscores. -/
def readFloatWord (cs : List Char) : Except Fault Float :=
  match readDouble? (String.ofList (cs.map plainDigit)) with
  | none   => .error .notNumber
  | some x => .ok x

/-- The double of a scalar that is tagged as one. -/
def readFloat (cs : List Char) : Except Fault Float :=
  let cs := (cs.filter (· ≠ '_')).map Char.toLower
  if cs.isEmpty then .error .emptyNumber
  else
    let (negative, cs) := Decimal.readSign cs
    let magnitude : Except Fault Float :=
      if cs = ".inf".toList then .ok (1 / 0)
      else if cs = ".nan".toList then .ok (0 / 0)
      else if cs.contains ':' then
        ((splitAt ':' cs).mapM readFloatWord).bind fun places => sexagesimalFloat places.reverse
      else readFloatWord cs
    magnitude.map fun x => if negative then -x else x

end NoticeLedger.Yaml

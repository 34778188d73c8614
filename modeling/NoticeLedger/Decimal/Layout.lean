import NoticeLedger.Decimal.Shortest

/-!
# Layouts of numbers

How the digits of a double become a text: which powers of ten are written positionally, whether a
whole number keeps `.0`, and the names of the values that are not finite. Two layouts are used:
`Layout.exact` for every number that is read back, and `Layout.sixDigits` for percentages shown to
a person.
-/

namespace NoticeLedger

/-- The decisions of a number format. -/
structure Layout where
  /-- The least power of ten of a first digit that is written positionally. -/
  positionalFrom : Int
  /-- The power of ten of a first digit from which on an exponent is written. -/
  positionalBelow : Int
  /-- Whether a whole number written positionally ends in `.0`. -/
  pointZero : Bool
  /-- The texts of what is not a number, and of infinity. -/
  notANumber : String
  infinity : String

namespace Layout

/-- Digits with a point after the first `n`, padded with zeros on either side as needed. -/
def positional (layout : Layout) (digits : List Char) (n : Int) : List Char :=
  if n ≤ 0 then '0' :: '.' :: (List.replicate (-n).toNat '0' ++ digits)
  else
    let whole := digits.take n.toNat
    let zeros := List.replicate (n.toNat - digits.length) '0'
    match digits.drop n.toNat with
    | []   => whole ++ zeros ++ if layout.pointZero then ['.', '0'] else []
    | rest => whole ++ '.' :: rest

/-- Digits with a point after the first, and a power of ten with a sign and at least two digits. -/
def scientific (digits : List Char) (exponent : Int) : List Char :=
  let power := Nat.toDigits 10 exponent.natAbs
  let fraction := match digits.drop 1 with
    | []   => []
    | rest => '.' :: rest
  digits.take 1 ++ fraction ++ 'e' :: (if exponent < 0 then '-' else '+') ::
    (List.replicate (2 - power.length) '0' ++ power)

/-- The text of a decimal. -/
def decimal (layout : Layout) (d : Decimal) : List Char :=
  let exponent := d.leadingExponent
  if layout.positionalFrom ≤ exponent && exponent < layout.positionalBelow then
    layout.positional d.digits (exponent + 1)
  else scientific d.digits exponent

/-- The text of a double whose magnitude is turned into digits by `digits`. -/
def double (layout : Layout) (digits : Binary → Decimal) (x : Float) : List Char :=
  if x.isNaN then layout.notANumber.toList
  else
    let b := Binary.ofFloat x
    let magnitude := if x.isInf then layout.infinity.toList else layout.decimal (digits b)
    if b.negative then '-' :: magnitude else magnitude

/-- Shortest digits; an exponent below `10 ^ -4` and from `10 ^ 16` on; `.0` after whole
numbers. -/
def exact : Layout := ⟨-4, 16, true, "nan", "inf"⟩

/-- An exponent below `10 ^ -4` and from `10 ^ 6` on, and whole numbers without a point. -/
def sixDigits : Layout := ⟨-4, 6, false, "nan", "inf"⟩

end Layout

/-- The shortest text that reads back as the double. -/
def exactText (x : Float) : String :=
  String.ofList (Layout.exact.double Binary.shortest x)

/-- The double with six significant digits. -/
def sixDigitText (x : Float) : String :=
  String.ofList (Layout.sixDigits.double (Binary.rounded 6) x)

end NoticeLedger

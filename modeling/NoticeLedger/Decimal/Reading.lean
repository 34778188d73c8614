import NoticeLedger.Decimal
import NoticeLedger.Text.Blank
import NoticeLedger.Text.Split

/-!
# Reading doubles

A double is written as digits with an optional point, sign and power of ten, or as the name of
infinity or of what is not a number in letters of either case. Blanks around it do not count
(`readDouble?`). Where underscores are allowed they part the characters of a double that has no
blanks around it (`readGroupedDouble?`). Only the ASCII digits count.
-/

namespace NoticeLedger

namespace Decimal

/-- A sign, `true` for a minus, and what is behind it. -/
def readSign : List Char → Bool × List Char
  | '-' :: cs => (true, cs)
  | '+' :: cs => (false, cs)
  | cs        => (false, cs)

/-- A power of ten that takes up all that is left; no power if nothing is. -/
def readPower? : List Char → Option Int
  | []      => some 0
  | c :: cs =>
    let (negative, ds) := readSign cs
    if (c = 'e' ∨ c = 'E') ∧ ds ≠ [] ∧ ds.all Char.isDigit then
      some (if negative then -(natOfDigits ds : Int) else natOfDigits ds)
    else none

/-- An unsigned decimal that takes up all the characters. -/
def read? (cs : List Char) : Option Decimal :=
  let (whole, rest) := cs.span Char.isDigit
  let (fraction, rest) :=
    match rest with
    | '.' :: behind => behind.span Char.isDigit
    | _             => ([], rest)
  if whole.isEmpty && fraction.isEmpty then none
  else
    (readPower? rest).map fun power =>
      ⟨natOfDigits (whole ++ fraction), power - fraction.length⟩

end Decimal

/-- The double that characters write. -/
def doubleOfChars? (cs : List Char) : Option Float :=
  let (negative, cs) := Decimal.readSign cs
  let word := String.ofList (cs.map Char.toLower)
  let magnitude? : Option Float :=
    if word = "inf" ∨ word = "infinity" then some (1 / 0)
    else if word = "nan" then some (0 / 0)
    else (Decimal.read? cs).map Decimal.toFloat
  magnitude?.map fun x => if negative then -x else x

/-- A blank around a double; the information separators are none. -/
def isNumberBlank (c : Char) : Bool :=
  isBlank c && !(28 ≤ c.toNat && c.toNat ≤ 31)

/-- The double that a string writes. -/
def readDouble? (s : String) : Option Float :=
  doubleOfChars? (trimWhere isNumberBlank s.toList)

/-- The double that a string writes, where single underscores may stand between any characters. -/
def readGroupedDouble? (s : String) : Option Float :=
  (readDouble? s).or
    (let parts := splitAt '_' s.toList
     if parts.all (!·.isEmpty) then doubleOfChars? parts.flatten else none)

end NoticeLedger

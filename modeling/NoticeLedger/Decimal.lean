/-!
# Decimals

A decimal is a natural number times a power of ten. A finite double is, up to its sign, a natural
number times a power of two; the same arithmetic of natural numbers reads decimals as doubles
(`Decimal.toFloat`) and finds the decimals that stand for a double.
-/

namespace NoticeLedger

/-! ### Decimals -/

/-- The number `coefficient * 10 ^ exponent`. -/
structure Decimal where
  coefficient : Nat
  exponent : Int
  deriving DecidableEq, Repr, Inhabited

namespace Decimal

/-- The decimal digits of the coefficient. -/
def digits (d : Decimal) : List Char :=
  Nat.toDigits 10 d.coefficient

/-- The power of ten of the first digit. -/
def leadingExponent (d : Decimal) : Int :=
  d.digits.length + d.exponent - 1

/-- The double nearest to the decimal, an exact tie going to the even one. Beyond the largest
double lies infinity; the powers of ten are tested first, so that no huge number is built. -/
def toFloat (d : Decimal) : Float :=
  if d.coefficient = 0 then 0
  else if d.leadingExponent > 400 then 1 / 0
  else if d.leadingExponent < -400 then 0
  else Float.ofScientific d.coefficient (d.exponent < 0) d.exponent.natAbs

/-- Drop the zeros at the end of a coefficient; `fuel` bounds their number. -/
def dropZeros : (fuel : Nat) → Decimal → Decimal
  | 0, d        => d
  | fuel + 1, d =>
    if d.coefficient ≠ 0 ∧ d.coefficient % 10 = 0 then
      dropZeros fuel ⟨d.coefficient / 10, d.exponent + 1⟩
    else d

/-- The same number with no zero at the end of the coefficient. -/
def normal (d : Decimal) : Decimal :=
  if d.coefficient = 0 then ⟨0, 0⟩ else dropZeros d.digits.length d

end Decimal

/-- The natural number written by decimal digits. -/
def natOfDigits (cs : List Char) : Nat :=
  cs.foldl (fun n c => 10 * n + (c.toNat - '0'.toNat)) 0

/-! ### Doubles as fractions -/

/-- The magnitude `mantissa * 2 ^ exponent` of a finite double, with its sign. -/
structure Binary where
  negative : Bool
  mantissa : Nat
  exponent : Int
  deriving DecidableEq, Repr, Inhabited

namespace Binary

/-- The parts of a double, read off its bits. -/
def ofFloat (x : Float) : Binary :=
  let bits := x.toBits.toNat
  let fraction : Nat := bits % Nat.pow 2 52
  let biased : Nat := bits / Nat.pow 2 52 % Nat.pow 2 11
  let negative := bits / Nat.pow 2 63 == 1
  if biased = 0 then ⟨negative, fraction, -1074⟩
  else ⟨negative, fraction + Nat.pow 2 52, (biased : Int) - 1075⟩

/-- The magnitude as a fraction, over a common power of two. -/
def numerator (b : Binary) : Nat :=
  b.mantissa * Nat.pow 2 b.exponent.toNat

/-- The power of two below the numerator. -/
def denominator (b : Binary) : Nat :=
  Nat.pow 2 (-b.exponent).toNat

/-- Whether the neighbour below is only half as far away as the one above. -/
def atBoundary (b : Binary) : Bool :=
  b.mantissa == Nat.pow 2 52 && b.exponent > -1074

end Binary

/-- The `e` for which the positive fraction `num / den` lies in `[10 ^ (e - 1), 10 ^ e)`. -/
def decimalMagnitude (num den : Nat) : Int :=
  if den ≤ num then (Nat.toDigits 10 (num / den)).length
  else 1 - (Nat.toDigits 10 ((den - 1) / num)).length

end NoticeLedger

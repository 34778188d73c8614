import NoticeLedger.Decimal

/-!
# Shortest digits

Every double is the nearest one to each decimal in an interval around it. The shortest decimal of
a double is a decimal in that interval with the fewest digits, and of those the one nearest to the
double. If any point of a decimal grid lies in the interval, one of the two grid points next to
the double does; so each grid takes two tests.
-/

namespace NoticeLedger.Binary

/-- Of the two points of the grid `10 ^ e` next to the double, the one that reads back as the
double; if both do, the nearer, and of two equally near the even one. The double and the ends of
its interval are measured in quarters of its last bit. -/
def onGrid? (b : Binary) (e : Int) : Option Decimal :=
  let scale := Nat.pow 10 (-e).toNat * Nat.pow 2 b.exponent.toNat
  let unit := 4 * Nat.pow 10 e.toNat * b.denominator
  let value := 4 * b.mantissa * scale
  let lowest := (4 * b.mantissa - if b.atBoundary then 1 else 2) * scale
  let highest := (4 * b.mantissa + 2) * scale
  let strict := b.mantissa % 2 == 1
  let below := value / unit
  let above := below + 1
  let belowOk := if strict then lowest < below * unit else lowest ≤ below * unit
  let aboveOk := if strict then above * unit < highest else above * unit ≤ highest
  match decide belowOk, decide aboveOk with
  | true, false  => some ⟨below, e⟩
  | false, true  => some ⟨above, e⟩
  | false, false => none
  | true, true   =>
    let gap := 2 * (value - below * unit)
    some ⟨if gap < unit ∨ (gap = unit ∧ below % 2 = 0) then below else above, e⟩

/-- The shortest decimal that reads back as the magnitude. Seventeen digits always suffice. -/
def shortest (b : Binary) : Decimal :=
  if b.mantissa = 0 then ⟨0, 0⟩
  else
    let magnitude := decimalMagnitude b.numerator b.denominator
    (((List.range 17).findSome? fun n : Nat => b.onGrid? (magnitude - (n + 1 : Nat))).getD ⟨0, 0⟩).normal

/-- The magnitude rounded to `n` digits, an exact tie going to the even digit. -/
def rounded (n : Nat) (b : Binary) : Decimal :=
  if b.mantissa = 0 then ⟨0, 0⟩
  else
    let e := decimalMagnitude b.numerator b.denominator - n
    let value := b.numerator * Nat.pow 10 (-e).toNat
    let unit := b.denominator * Nat.pow 10 e.toNat
    let below := value / unit
    let gap := 2 * (value % unit)
    Decimal.normal ⟨if gap < unit ∨ (gap = unit ∧ below % 2 = 0) then below else below + 1, e⟩

end NoticeLedger.Binary

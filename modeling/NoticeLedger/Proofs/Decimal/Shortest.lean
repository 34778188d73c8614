import NoticeLedger.Decimal.Shortest
import NoticeLedger.Proofs.Double.Value

/-!
# The shortest decimal of a double

Around the magnitude of a double there is an interval of numbers that are rounded to it
(`Binary.Covers`). The shortest decimal of a double lies in this interval
(`Binary.covers_shortest`): a point of a decimal grid is taken only if it does, and a grid with
seventeen digits is finer than the interval, so that one of its points does.
-/

namespace NoticeLedger

/-! ### The numbers of decimals -/

namespace Decimal

/-- The number that a decimal stands for. -/
def value (d : Decimal) : ℚ :=
  d.coefficient * 10 ^ d.exponent

/-- Zeros behind the digits do not change the number. -/
theorem value_zeros (n k : ℕ) (e : ℤ) : value ⟨n * 10 ^ k, e - k⟩ = value ⟨n, e⟩ := by
  simp only [value]
  rw [zpow_sub₀ (by norm_num), zpow_natCast]
  push_cast
  field_simp

theorem value_dropZeros (fuel : ℕ) (d : Decimal) : (dropZeros fuel d).value = d.value := by
  induction fuel generalizing d with
  | zero => rfl
  | succ fuel ih =>
    rw [dropZeros]
    split
    · rename_i h
      obtain ⟨n, e⟩ := d
      have hzeros := value_zeros (n / 10) 1 (e + 1)
      rw [pow_one, Nat.div_mul_cancel (Nat.dvd_of_mod_eq_zero h.2), Nat.cast_one,
        add_sub_cancel_right] at hzeros
      rw [ih, hzeros]
    · rfl

theorem value_normal (d : Decimal) : d.normal.value = d.value := by
  rw [normal]
  split
  · rename_i h
    simp [value, h]
  · exact value_dropZeros _ d

theorem lt_pow_length_toDigits (n : ℕ) : n < 10 ^ (Nat.toDigits 10 n).length :=
  (Nat.length_toDigits_le_iff (by norm_num) Nat.length_toDigits_pos).1 le_rfl

theorem pow_length_toDigits_le {n : ℕ} (h : n ≠ 0) :
    10 ^ ((Nat.toDigits 10 n).length - 1) ≤ n := by
  rcases Nat.eq_zero_or_pos ((Nat.toDigits 10 n).length - 1) with hone | hpos
  · rw [hone, pow_zero]
    omega
  · by_contra hlt
    have hle := (Nat.length_toDigits_le_iff (by norm_num) hpos).2 (not_le.1 hlt)
    omega

/-- The leading exponent is the power of ten of the number. -/
theorem zpow_leadingExponent_le {d : Decimal} (h : d.coefficient ≠ 0) :
    (10 : ℚ) ^ d.leadingExponent ≤ d.value := by
  have hle : ((10 ^ (d.digits.length - 1) : ℕ) : ℚ) ≤ d.coefficient := by
    exact_mod_cast pow_length_toDigits_le h
  have hlength : 0 < d.digits.length := Nat.length_toDigits_pos
  have hexponent : d.leadingExponent = (d.digits.length - 1 : ℕ) + d.exponent := by
    rw [leadingExponent]
    omega
  rw [hexponent, zpow_add₀ (by norm_num), zpow_natCast, value]
  push_cast at hle
  gcongr

theorem value_lt_zpow (d : Decimal) : d.value < (10 : ℚ) ^ (d.leadingExponent + 1) := by
  have hlt : (d.coefficient : ℚ) < (10 ^ d.digits.length : ℕ) := by
    exact_mod_cast lt_pow_length_toDigits d.coefficient
  have hexponent : d.leadingExponent + 1 = (d.digits.length : ℕ) + d.exponent := by
    rw [leadingExponent]
    ring
  rw [hexponent, zpow_add₀ (by norm_num), zpow_natCast, value]
  push_cast at hlt
  gcongr

end Decimal

/-- A positive fraction is not below the power of ten that its magnitude says. -/
theorem zpow_decimalMagnitude_le {num den : ℕ} (hnum : 0 < num) (hden : 0 < den) :
    (10 : ℚ) ^ (decimalMagnitude num den - 1) ≤ num / den := by
  have hden' : (0 : ℚ) < den := by exact_mod_cast hden
  rw [decimalMagnitude, le_div_iff₀ hden']
  split
  · rename_i hle
    have hquotient : num / den ≠ 0 := (Nat.div_pos hle hden).ne'
    have hpow := Decimal.pow_length_toDigits_le hquotient
    have hlength : 0 < (Nat.toDigits 10 (num / den)).length := Nat.length_toDigits_pos
    have hexponent : ((Nat.toDigits 10 (num / den)).length : ℤ) - 1
        = ((Nat.toDigits 10 (num / den)).length - 1 : ℕ) := by omega
    rw [hexponent, zpow_natCast]
    exact_mod_cast (Nat.mul_le_mul_right den hpow).trans (Nat.div_mul_le_self num den)
  · have hlt := Decimal.lt_pow_length_toDigits ((den - 1) / num)
    generalize (Nat.toDigits 10 ((den - 1) / num)).length = k at hlt
    have hle : den ≤ num * 10 ^ k := by
      have := (Nat.div_lt_iff_lt_mul hnum).1 hlt
      rw [Nat.mul_comm] at this
      omega
    have hexponent : (1 : ℤ) - k - 1 = -(k : ℤ) := by ring
    rw [hexponent, zpow_neg, zpow_natCast, inv_mul_le_iff₀ (by positivity), mul_comm]
    exact_mod_cast hle

namespace Binary

/-! ### The interval around a double -/

/-- The number below which numbers are rounded to the double below. -/
def lower (b : Binary) : ℚ :=
  (b.mantissa - if b.atBoundary then 1 / 4 else 1 / 2) * 2 ^ b.exponent

/-- The number above which numbers are rounded to the double above. -/
def upper (b : Binary) : ℚ :=
  (b.mantissa + 1 / 2) * 2 ^ b.exponent

/-- The number lies in the interval around the magnitude of a double. The ends belong to the
interval if the mantissa is even. -/
structure Covers (b : Binary) (y : ℚ) : Prop where
  lower_le : b.lower ≤ y
  le_upper : y ≤ b.upper
  even : y = b.lower ∨ y = b.upper → Even b.mantissa

theorem numerator_div_denominator (b : Binary) :
    (b.numerator / b.denominator : ℚ) = b.mantissa * 2 ^ b.exponent := by
  have hexponent : (2 : ℚ) ^ b.exponent * 2 ^ (-b.exponent).toNat = 2 ^ b.exponent.toNat := by
    rw [← zpow_natCast, ← zpow_natCast, ← zpow_add₀ two_ne_zero]
    congr 1
    omega
  rw [numerator, denominator, Nat.pow_eq, Nat.pow_eq]
  push_cast
  rw [← hexponent]
  field_simp

/-! ### A point of a grid -/

section Grid

variable (b : Binary) (e : ℤ)

/-- The quarters of the last bit in a unit of measure, and the points of the grid in it. -/
def quarter : ℕ :=
  Nat.pow 10 (-e).toNat * Nat.pow 2 b.exponent.toNat

def point : ℕ :=
  4 * Nat.pow 10 e.toNat * b.denominator

/-- Points of the grid and quarters of the last bit are measured in the same unit. -/
theorem exists_unit : ∃ c : ℚ, 0 < c ∧
    (∀ n : ℕ, ((n * b.point e : ℕ) : ℚ) = n * 10 ^ e * c) ∧
    ∀ q : ℕ, ((q * b.quarter e : ℕ) : ℚ) = q / 4 * 2 ^ b.exponent * c := by
  have hten : (10 : ℚ) ^ e * 10 ^ (-e).toNat = 10 ^ e.toNat := by
    rw [← zpow_natCast, ← zpow_natCast, ← zpow_add₀ (by norm_num)]
    congr 1
    omega
  have htwo : (2 : ℚ) ^ b.exponent * 2 ^ (-b.exponent).toNat = 2 ^ b.exponent.toNat := by
    rw [← zpow_natCast, ← zpow_natCast, ← zpow_add₀ two_ne_zero]
    congr 1
    omega
  refine ⟨4 * 10 ^ (-e).toNat * 2 ^ (-b.exponent).toNat, by positivity, fun n => ?_, fun q => ?_⟩
  · rw [point, denominator, Nat.pow_eq, Nat.pow_eq]
    push_cast
    rw [← hten]
    ring
  · rw [quarter, Nat.pow_eq, Nat.pow_eq]
    push_cast
    rw [← htwo]
    ring

theorem quarters_le_iff (q n : ℕ) :
    q * b.quarter e ≤ n * b.point e ↔ (q / 4 * 2 ^ b.exponent : ℚ) ≤ n * 10 ^ e := by
  obtain ⟨c, hc, hpoint, hquarter⟩ := b.exists_unit e
  rw [← Nat.cast_le (α := ℚ), hpoint, hquarter, mul_le_mul_iff_left₀ hc]

theorem le_quarters_iff (n q : ℕ) :
    n * b.point e ≤ q * b.quarter e ↔ (n * 10 ^ e : ℚ) ≤ q / 4 * 2 ^ b.exponent := by
  obtain ⟨c, hc, hpoint, hquarter⟩ := b.exists_unit e
  rw [← Nat.cast_le (α := ℚ), hpoint, hquarter, mul_le_mul_iff_left₀ hc]

/-- The quarters of the last bit up to the lower end of the interval. -/
def lowest : ℕ :=
  4 * b.mantissa - if b.atBoundary then 1 else 2

variable {b}

theorem lower_eq (hm : 0 < b.mantissa) : b.lower = b.lowest / 4 * 2 ^ b.exponent := by
  rw [lower, lowest]
  split
  · rw [Nat.cast_sub (by omega)]
    push_cast
    ring
  · rw [Nat.cast_sub (by omega)]
    push_cast
    ring

theorem upper_eq : b.upper = (4 * b.mantissa + 2 : ℕ) / 4 * 2 ^ b.exponent := by
  rw [upper]
  push_cast
  ring

theorem lower_lt (b : Binary) : b.lower < b.mantissa * 2 ^ b.exponent := by
  have hpos : (0 : ℚ) < 2 ^ b.exponent := by positivity
  rw [lower]
  split <;> nlinarith

theorem lt_upper (b : Binary) : b.mantissa * 2 ^ b.exponent < b.upper := by
  have hpos : (0 : ℚ) < 2 ^ b.exponent := by positivity
  rw [upper]
  nlinarith

/-- A point of the grid that is not above the magnitude and lies on the right side of the lower end
of the interval. -/
theorem covers_below {n : ℕ} (hm : 0 < b.mantissa)
    (hle : n * b.point e ≤ 4 * b.mantissa * b.quarter e)
    (hlower : if b.mantissa % 2 == 1 then b.lowest * b.quarter e < n * b.point e
      else b.lowest * b.quarter e ≤ n * b.point e) : b.Covers (n * 10 ^ e) := by
  have hmagnitude : (n * 10 ^ e : ℚ) ≤ b.mantissa * 2 ^ b.exponent := by
    have hquarters := (b.le_quarters_iff e n (4 * b.mantissa)).1 hle
    push_cast at hquarters
    linarith
  have hupper := hmagnitude.trans_lt b.lt_upper
  have hends : b.lower ≤ n * 10 ^ e ∧ (Odd b.mantissa → b.lower ≠ n * 10 ^ e) := by
    rw [lower_eq hm]
    split at hlower
    · have hlt : (b.lowest / 4 * 2 ^ b.exponent : ℚ) < n * 10 ^ e :=
        lt_of_not_ge fun hge => absurd ((b.le_quarters_iff e n b.lowest).2 hge) (not_le.2 hlower)
      exact ⟨hlt.le, fun _ => hlt.ne⟩
    · rename_i heven
      refine ⟨(b.quarters_le_iff e b.lowest n).1 hlower, fun hodd => ?_⟩
      exact absurd (by simpa using Nat.odd_iff.1 hodd) heven
  refine ⟨hends.1, hupper.le, ?_⟩
  rintro (heq | heq)
  · exact Nat.not_odd_iff_even.1 fun hodd => hends.2 hodd heq.symm
  · exact absurd heq hupper.ne

/-- A point of the grid that is not below the magnitude and lies on the right side of the upper end
of the interval. -/
theorem covers_above {n : ℕ} (hle : 4 * b.mantissa * b.quarter e ≤ n * b.point e)
    (hupper : if b.mantissa % 2 == 1 then n * b.point e < (4 * b.mantissa + 2) * b.quarter e
      else n * b.point e ≤ (4 * b.mantissa + 2) * b.quarter e) : b.Covers (n * 10 ^ e) := by
  have hmagnitude : b.mantissa * 2 ^ b.exponent ≤ (n * 10 ^ e : ℚ) := by
    have hquarters := (b.quarters_le_iff e (4 * b.mantissa) n).1 hle
    push_cast at hquarters
    linarith
  have hlower := b.lower_lt.trans_le hmagnitude
  have hends : n * 10 ^ e ≤ b.upper ∧ (Odd b.mantissa → n * 10 ^ e ≠ b.upper) := by
    rw [upper_eq]
    split at hupper
    · have hlt : (n * 10 ^ e : ℚ) < (4 * b.mantissa + 2 : ℕ) / 4 * 2 ^ b.exponent :=
        lt_of_not_ge fun hge => absurd ((b.quarters_le_iff e _ n).2 hge) (not_le.2 hupper)
      exact ⟨hlt.le, fun _ => hlt.ne⟩
    · rename_i heven
      refine ⟨(b.le_quarters_iff e n _).1 hupper, fun hodd => ?_⟩
      exact absurd (by simpa using Nat.odd_iff.1 hodd) heven
  refine ⟨hlower.le, hends.1, ?_⟩
  rintro (heq | heq)
  · exact absurd heq hlower.ne'
  · exact Nat.not_odd_iff_even.1 fun hodd => hends.2 hodd heq

theorem point_pos (b : Binary) (e : ℤ) : 0 < b.point e := by
  rw [point, denominator, Nat.pow_eq, Nat.pow_eq]
  positivity

theorem le_point_above (b : Binary) (e : ℤ) (n : ℕ) :
    n ≤ (n / b.point e + 1) * b.point e := by
  rw [add_mul, one_mul]
  exact (Nat.lt_div_mul_add (b.point_pos e)).le

/-- What is taken from a grid lies in the interval. -/
theorem covers_of_onGrid? {d : Decimal} (hm : 0 < b.mantissa) (h : b.onGrid? e = some d) :
    b.Covers d.value := by
  have hbelow := covers_below e hm (Nat.div_mul_le_self (4 * b.mantissa * b.quarter e) (b.point e))
  have habove := covers_above e (b.le_point_above e (4 * b.mantissa * b.quarter e))
  rw [onGrid?] at h
  simp only at h
  split at h
  · rename_i hb _
    obtain rfl := Option.some.inj h
    exact hbelow (of_decide_eq_true hb)
  · rename_i _ ha
    obtain rfl := Option.some.inj h
    exact habove (of_decide_eq_true ha)
  · cases h
  · rename_i hb ha
    obtain rfl := Option.some.inj h
    simp only [Decimal.value]
    split
    · exact hbelow (of_decide_eq_true hb)
    · exact habove (of_decide_eq_true ha)

/-- A grid that is finer than the interval has a point in it. -/
theorem isSome_onGrid? (hm : 0 < b.mantissa) (h : (10 : ℚ) ^ e < b.upper - b.lower) :
    (b.onGrid? e).isSome := by
  rw [onGrid?]
  simp only
  split
  · rfl
  · rfl
  · rename_i hb ha
    -- Both points next to the magnitude lie outside, so the interval fits between them.
    exfalso
    have hlower : ((4 * b.mantissa * b.quarter e / b.point e : ℕ) * 10 ^ e : ℚ) ≤ b.lower := by
      rw [lower_eq hm, ← le_quarters_iff]
      have hnot := of_decide_eq_false hb
      split at hnot
      · exact not_lt.1 hnot
      · exact (not_le.1 hnot).le
    have hupper : b.upper ≤ ((4 * b.mantissa * b.quarter e / b.point e + 1 : ℕ) * 10 ^ e : ℚ) := by
      rw [upper_eq, ← quarters_le_iff]
      have hnot := of_decide_eq_false ha
      split at hnot
      · exact not_lt.1 hnot
      · exact (not_le.1 hnot).le
    push_cast at hupper
    linarith
  · rfl

end Grid

/-! ### Seventeen digits -/

/-- Seventeen digits are enough to fall into the interval. -/
theorem isSome_onGrid?_seventeen {b : Binary} (hfits : Double.Fits b.mantissa b.exponent)
    (hm : 0 < b.mantissa) :
    (b.onGrid? (decimalMagnitude b.numerator b.denominator - 17)).isSome := by
  apply isSome_onGrid? _ hm
  have hpos : (0 : ℚ) < 2 ^ b.exponent := by positivity
  have hlt : (b.mantissa : ℚ) < 2 ^ 53 := by exact_mod_cast hfits.lt
  have hnum : 0 < b.numerator := by
    rw [numerator, Nat.pow_eq]
    positivity
  have hden : 0 < b.denominator := by
    rw [denominator, Nat.pow_eq]
    positivity
  have hmagnitude := zpow_decimalMagnitude_le hnum hden
  rw [numerator_div_denominator] at hmagnitude
  generalize decimalMagnitude b.numerator b.denominator = k at hmagnitude
  have hgrid : (10 : ℚ) ^ (k - 17) * 10 ^ 16 ≤ b.mantissa * 2 ^ b.exponent := by
    refine le_trans (le_of_eq ?_) hmagnitude
    rw [← zpow_natCast, ← zpow_add₀ (by norm_num)]
    congr 1
    push_cast
    ring
  rw [upper, lower]
  split
  · rename_i hboundary
    rw [atBoundary, Bool.and_eq_true, beq_iff_eq] at hboundary
    have hmantissa : (b.mantissa : ℚ) = 2 ^ 52 := by exact_mod_cast hboundary.1
    rw [hmantissa] at hgrid ⊢
    nlinarith
  · nlinarith

/-- The shortest decimal of a double lies in the interval around it. -/
theorem covers_shortest {b : Binary} (hfits : Double.Fits b.mantissa b.exponent)
    (hm : 0 < b.mantissa) : b.Covers b.shortest.value := by
  rw [shortest, if_neg hm.ne', Decimal.value_normal]
  have hsome : ((List.range 17).findSome? fun n : ℕ =>
      b.onGrid? (decimalMagnitude b.numerator b.denominator - (n + 1 : ℕ))).isSome := by
    rw [List.findSome?_isSome_iff]
    exact ⟨16, by simp, isSome_onGrid?_seventeen hfits hm⟩
  obtain ⟨d, hd⟩ := Option.isSome_iff_exists.1 hsome
  obtain ⟨n, _, hn⟩ := List.exists_of_findSome?_eq_some hd
  rw [hd, Option.getD_some]
  exact covers_of_onGrid? _ hm hn

end Binary

end NoticeLedger

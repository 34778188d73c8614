import NoticeLedger.Proofs.Decimal.Numerals
import NoticeLedger.Proofs.Decimal.Shortest
import NoticeLedger.Proofs.Double.Arithmetic

/-!
# Doubles that are written and read back

Reading a decimal is rounding the number that it stands for (`Double.isRoundingOf_toFloat`).
Every number in the interval around a double is rounded to it (`Double.RoundsTo.eq_of_covers`), and
the shortest decimal lies in this interval. So every finite double is read back from its exact text
(`readDouble?_exactText`), and different doubles have different texts (`exactText_injective`).
-/

namespace NoticeLedger

open Float.Model (UnpackedFloat Format)
open Float.Model.UnpackedFloat (Sign Accuracy divCore roundWithAccuracy)

namespace Double

/-! ### Doubles and their parts -/

lemma Fits.eq_of_mul_eq {m m' : ℕ} {e e' : ℤ} (h : Fits m e) (h' : Fits m' e')
    (heq : (m : ℚ) * 2 ^ e = m' * 2 ^ e') : m = m' ∧ e = e' := by
  rcases lt_trichotomy e e' with he | rfl | he
  · exact absurd heq (h.lt_of_exponent_lt h' he).ne
  · have hpos : (2 : ℚ) ^ e ≠ 0 := by positivity
    exact ⟨by exact_mod_cast mul_right_cancel₀ hpos heq, rfl⟩
  · exact absurd heq (h'.lt_of_exponent_lt h he).ne'

/-- A double is told by its parts. -/
theorem eq_of_ofFloat_eq {x y : Float} (h : Binary.ofFloat x = Binary.ofFloat y) : x = y := by
  obtain ⟨⟨⟨b⟩, hb⟩⟩ := x
  obtain ⟨⟨⟨c⟩, hc⟩⟩ := y
  have hparts : ∀ (b : BitVec 64) hb, Binary.ofFloat ⟨⟨⟨b⟩, hb⟩⟩ =
      if b.toNat / 2 ^ 52 % 2 ^ 11 = 0 then ⟨b.toNat / 2 ^ 63 == 1, b.toNat % 2 ^ 52, -1074⟩
      else ⟨b.toNat / 2 ^ 63 == 1, b.toNat % 2 ^ 52 + 2 ^ 52,
        ((b.toNat / 2 ^ 52 % 2 ^ 11 : ℕ) : ℤ) - 1075⟩ := fun _ _ => rfl
  have hsign : ∀ b c : BitVec 64, (b.toNat / 2 ^ 63 == 1) = (c.toNat / 2 ^ 63 == 1) →
      b.toNat / 2 ^ 63 = c.toNat / 2 ^ 63 := by
    intro b c h
    have hb := b.isLt
    have hc := c.isLt
    have hiff : b.toNat / 2 ^ 63 = 1 ↔ c.toNat / 2 ^ 63 = 1 := by
      rw [← beq_iff_eq, ← beq_iff_eq (a := c.toNat / 2 ^ 63), h]
    omega
  have hbits : b.toNat = c.toNat := by
    rw [hparts, hparts] at h
    split at h <;> split at h <;> simp only [Binary.mk.injEq] at h <;>
      have hs := hsign b c h.1 <;> omega
  obtain rfl := BitVec.eq_of_toNat_eq hbits
  rfl

/-- The negative double has the other sign. -/
theorem ofFloat_neg {x : Float} (h : x.isFinite = true) :
    Binary.ofFloat (-x) = { Binary.ofFloat x with negative := !(Binary.ofFloat x).negative } := by
  have hneg : -x = Float.ofModel (Float.Model.pack (UnpackedFloat.neg x.toModel.unpack)) := rfl
  have hrep := represents_unpack h
  have hflip : Represents (UnpackedFloat.neg x.toModel.unpack)
      { Binary.ofFloat x with negative := !(Binary.ofFloat x).negative } := by
    generalize x.toModel.unpack = u, Binary.ofFloat x = b at hrep
    cases hrep with
    | zero s => cases s <;> exact .zero _
    | finite hfits =>
      rename_i s m e pos
      cases s <;> exact .finite hfits
  rw [hneg]
  exact (ofFloat_pack hflip).2

/-! ### Numbers in the interval around a double -/

/-- Only one natural number is nearest to a number. -/
lemma IsRounded.unique {j k : ℕ} {q : ℚ} (hj : IsRounded j q) (hk : IsRounded k q) : j = k := by
  by_contra hne
  have hjk : (j : ℤ) ≠ k := by exact_mod_cast hne
  have hj' : |(j : ℚ) - q| = 1 / 2 := le_antisymm hj.close (by exact_mod_cast hk.half_le hjk)
  have hk' : |(k : ℚ) - q| = 1 / 2 := le_antisymm hk.close (by exact_mod_cast hj.half_le hjk.symm)
  -- Two that are half away are neighbours, but both are even.
  obtain ⟨m, hm⟩ := hj.even hj'
  obtain ⟨n, hn⟩ := hk.even hk'
  have hapart : |(j : ℚ) - k| ≤ 1 := by
    have := abs_sub_le (j : ℚ) q k
    rw [abs_sub_comm q] at this
    linarith
  have hle : |(j : ℤ) - k| ≤ 1 := by exact_mod_cast hapart
  rw [abs_le] at hle
  omega

section Interval

variable {b : Binary} {y : ℚ} (hfits : Fits b.mantissa b.exponent) (hcovers : b.Covers y)

include hcovers

/-- In the last bit of the double, a number of the interval is rounded to the mantissa. -/
lemma isRounded_of_covers : IsRounded b.mantissa (y / 2 ^ b.exponent) := by
  have hpos : (0 : ℚ) < 2 ^ b.exponent := by positivity
  have hlower : (b.mantissa - 1 / 2) * 2 ^ b.exponent ≤ y ∧
      (y = (b.mantissa - 1 / 2) * 2 ^ b.exponent → y = b.lower) := by
    have hle := hcovers.lower_le
    rw [Binary.lower] at hle ⊢
    split at hle
    · have hlt : (b.mantissa - 1 / 2) * 2 ^ b.exponent < y := by
        refine lt_of_lt_of_le ?_ hle
        gcongr
        norm_num
      exact ⟨hlt.le, fun heq => absurd heq hlt.ne'⟩
    · rename_i hboundary
      exact ⟨hle, fun heq => by rw [heq, if_neg hboundary]⟩
  have hupper := hcovers.le_upper
  rw [Binary.upper, ← div_le_iff₀ hpos] at hupper
  have hlower' := (le_div_iff₀ hpos).2 hlower.1
  refine ⟨by rw [abs_le]; constructor <;> linarith, fun h => hcovers.even ?_⟩
  rcases (abs_eq (by norm_num)).1 h with h | h
  · left
    refine hlower.2 ?_
    rw [← div_eq_iff hpos.ne']
    linarith
  · right
    rw [Binary.upper, ← div_eq_iff hpos.ne']
    linarith

include hfits

lemma lt_two_pow_of_covers : y < 2 ^ (53 + b.exponent) := by
  have hle : (b.mantissa : ℚ) + 1 ≤ 2 ^ 53 := by exact_mod_cast hfits.lt
  calc y ≤ (b.mantissa + 1 / 2) * 2 ^ b.exponent := hcovers.le_upper
    _ < 2 ^ 53 * 2 ^ b.exponent := by gcongr; linarith
    _ = 2 ^ (53 + b.exponent) := by rw [zpow_add₀ two_ne_zero]; norm_num

/-- The last place of a number of the interval is the last bit of the double or, below a power of
two, the bit behind it. -/
lemma LastPlace.cases_of_covers {t : ℤ} (hlast : LastPlace t y) :
    t = b.exponent ∨ (t + 1 = b.exponent ∧ b.mantissa = 2 ^ 52 ∧ 2 ^ 53 - 1 / 2 ≤ y / 2 ^ t) := by
  have hpos : (0 : ℚ) < 2 ^ b.exponent := by positivity
  have hleast := hfits.least
  have hlower := hcovers.lower_le
  rcases lt_trichotomy t b.exponent with hlt | heq | hgt
  · right
    have hle : (2 : ℚ) ^ (53 + t) ≤ 2 ^ 52 * 2 ^ b.exponent := by
      rw [← zpow_natCast, ← zpow_add₀ two_ne_zero]
      exact zpow_le_zpow_right₀ one_le_two (by push_cast; omega)
    have hy := hlast.lt
    have hleast' := hlast.least
    have hfull : 2 ^ 52 ≤ b.mantissa := hfits.full.resolve_right (by omega)
    have hm : b.mantissa = 2 ^ 52 := by
      have hclose := (abs_le.1 (isRounded_of_covers hcovers).close).2
      have hdiv : y / 2 ^ b.exponent < 2 ^ 52 := by
        rw [div_lt_iff₀ hpos]
        linarith
      have : (b.mantissa : ℚ) < (2 ^ 52 + 1 : ℕ) := by push_cast; linarith
      have := Nat.cast_lt.1 this
      omega
    have hboundary : b.atBoundary = true := by
      rw [Binary.atBoundary, Bool.and_eq_true, beq_iff_eq, decide_eq_true_iff]
      exact ⟨hm, by omega⟩
    rw [Binary.lower, if_pos hboundary, hm] at hlower
    push_cast at hlower
    have hnext : t + 1 = b.exponent := by
      by_contra hne
      have hfar : (2 : ℚ) ^ (53 + t) ≤ 2 ^ 51 * 2 ^ b.exponent := by
        rw [← zpow_natCast, ← zpow_add₀ two_ne_zero]
        exact zpow_le_zpow_right₀ one_le_two (by push_cast; omega)
      nlinarith
    refine ⟨hnext, hm, ?_⟩
    rw [le_div_iff₀ (by positivity)]
    rw [← hnext, zpow_add₀ two_ne_zero, zpow_one] at hlower
    linarith
  · exact .inl heq
  · have hle := hlast.le.resolve_right (by omega)
    have hlt := lt_two_pow_of_covers hfits hcovers
    have hexponent := (zpow_lt_zpow_iff_right₀ one_lt_two).1 (hle.trans_lt hlt)
    omega

/-- Whatever number of the interval is rounded, it is rounded to the magnitude of the double. -/
theorem RoundsTo.eq_of_covers {c : Binary} (h : RoundsTo y c) :
    (c.mantissa : ℚ) * 2 ^ c.exponent = b.mantissa * 2 ^ b.exponent := by
  obtain ⟨t, k, hlast, hk, hvalue, -⟩ := h
  rw [hvalue]
  rcases hlast.cases_of_covers hfits hcovers with rfl | ⟨ht, hm, hle⟩
  · rw [hk.unique (isRounded_of_covers hcovers)]
  · -- the number is less than half a unit below the power of two
    have hlt := hlast.div_lt
    have hnext : k = 2 ^ 53 := by
      refine hk.unique ⟨?_, fun _ => by decide⟩
      push_cast
      rw [abs_le]
      constructor <;> linarith
    rw [hnext, hm, ← ht, zpow_add₀ two_ne_zero]
    push_cast
    ring

end Interval

/-! ### Reading decimals -/

lemma ten_zpow_of_nonneg {e : ℤ} (he : 0 ≤ e) : (10 : ℚ) ^ e = 10 ^ e.natAbs := by
  rw [← zpow_natCast, Int.natAbs_of_nonneg he]

lemma ten_zpow_of_neg {e : ℤ} (he : e < 0) : (10 : ℚ) ^ e = (10 ^ e.natAbs)⁻¹ := by
  rw [← zpow_natCast, ← zpow_neg, Int.ofNat_natAbs_of_nonpos he.le, neg_neg]

/-- The powers of ten with which small decimals are read are exact. -/
lemma powerOfTen_exact (k : Fin 23) :
    Unsigned Float.exactlyRepresentablePowersOfTen[k] ∧
      value Float.exactlyRepresentablePowersOfTen[k] = 10 ^ k.val := by
  have hparts : ∀ k : Fin 23, Float.exactlyRepresentablePowersOfTen[k].isFinite = true ∧
      (Binary.ofFloat Float.exactlyRepresentablePowersOfTen[k]).negative = false ∧
      (Binary.ofFloat Float.exactlyRepresentablePowersOfTen[k]).numerator
        = 10 ^ k.val * (Binary.ofFloat Float.exactlyRepresentablePowersOfTen[k]).denominator := by
    decide +kernel
  obtain ⟨hfinite, hpositive, hfraction⟩ := hparts k
  have hunsigned : Unsigned Float.exactlyRepresentablePowersOfTen[k] := ⟨hfinite, hpositive⟩
  refine ⟨hunsigned, ?_⟩
  generalize Float.exactlyRepresentablePowersOfTen[k] = x at hfraction hunsigned
  have hden : ((Binary.ofFloat x).denominator : ℚ) ≠ 0 := by
    rw [Binary.denominator, Nat.pow_eq]
    positivity
  rw [hunsigned.value_eq, ← Binary.numerator_div_denominator, hfraction]
  push_cast
  field_simp

/-- Small decimals are read by one multiplication or division. -/
lemma isRoundingOf_small {m k : ℕ} (hlt : m < 2 ^ 53) (hk : k ≤ 22) :
    IsRoundingOf (Float.ofScientific m false k) (m * 10 ^ k) ∧
      IsRoundingOf (Float.ofScientific m true k) (m / 10 ^ k) := by
  obtain ⟨hp, hpvalue⟩ := powerOfTen_exact ⟨k, by omega⟩
  obtain ⟨hn, hnvalue⟩ := toFloat_toUInt64 hlt
  have hlt' : (m : ℚ) < 2 ^ 53 := by exact_mod_cast hlt
  have hpower : (1 : ℚ) ≤ 10 ^ k := one_le_pow₀ (by norm_num)
  have hscientific : ∀ s : Bool, Float.ofScientific m s k =
      let p := Float.exactlyRepresentablePowersOfTen[(⟨k, by omega⟩ : Fin 23)]
      if s = true then m.toUInt64.toFloat / p else m.toUInt64.toFloat * p := by
    intro s
    unfold Float.ofScientific
    rw [dif_pos ⟨hlt, hk⟩]
    rfl
  rw [hscientific, hscientific, if_pos rfl, if_neg Bool.false_ne_true]
  constructor
  · have hmul := isRoundingOf_mul hn hp
    rw [hnvalue, hpvalue] at hmul
    apply hmul
    calc (m * 10 ^ k : ℚ) ≤ 2 ^ 53 * 10 ^ 22 := by gcongr; norm_num
      _ < 2 ^ 127 := by norm_num
      _ < 2 ^ 1023 := pow_lt_pow_right₀ one_lt_two (by norm_num)
  · have hdiv := isRoundingOf_div hn hp
    rw [hnvalue, hpvalue] at hdiv
    apply hdiv (by positivity)
    calc (m / 10 ^ k : ℚ) ≤ m := div_le_self (by positivity) hpower
      _ < 2 ^ 1023 := lt_two_pow_of_lt hlt'

/-- Other decimals are read by one multiplication or division of exact numbers. -/
lemma isRoundingOf_large {m : ℕ} {e : ℤ} (hm : m ≠ 0) (hgreatest : e ≤ 2048)
    (hleast : -(2048 + m.log2 : ℤ) ≤ e) (hmax : m * 10 ^ e < overflow) :
    IsRoundingOf (Float.ofModel (Float.Model.ofScientific m e)) (m * 10 ^ e) := by
  have hgreatest' : ¬ e > 2 ^ Format.exponentBits .binary64 := by
    show ¬ e > 2 ^ 11
    omega
  have hleast' : ¬ e < -(2 ^ Format.exponentBits .binary64 + (m.log2 : ℤ)) := by
    show ¬ e < -(2 ^ 11 + (m.log2 : ℤ))
    omega
  rw [Float.Model.ofScientific]
  unfold UnpackedFloat.ofScientific
  rw [dif_neg hm, if_neg hgreatest', if_neg hleast']
  split
  · rename_i he
    have hvalue : (m * 10 ^ e : ℚ)
        = (m <<< 53 : ℕ) * 2 ^ (-53 : ℤ) * ((10 ^ e.toNat : ℕ) * 2 ^ (0 : ℤ)) := by
      have hnat : e.toNat = e.natAbs := by omega
      rw [Nat.shiftLeft_eq, ten_zpow_of_nonneg he, hnat]
      push_cast
      field_simp
      norm_num
    rw [hvalue] at hmax ⊢
    refine isRoundingOf_mul_finite (.inl ?_) hmax
    calc 2 ^ 52 ≤ 1 * 2 ^ 53 * 1 := by norm_num
      _ ≤ m * 2 ^ 53 * 10 ^ e.toNat := by
          gcongr
          · omega
          · exact Nat.one_le_pow _ _ (by norm_num)
      _ = (m <<< 53) * 10 ^ e.toNat := by rw [Nat.shiftLeft_eq]
  · rename_i he
    have hvalue : (m * 10 ^ e : ℚ) = m * 2 ^ (0 : ℤ) / ((10 ^ (-e).toNat : ℕ) * 2 ^ (0 : ℤ)) := by
      have hnat : (-e).toNat = e.natAbs := by omega
      rw [ten_zpow_of_neg (not_le.1 he), hnat]
      push_cast
      field_simp
    rw [hvalue] at hmax ⊢
    exact isRoundingOf_div_finite hmax

lemma length_toDigits_le {m : ℕ} (hm : m ≠ 0) : (Nat.toDigits 10 m).length ≤ m.log2 + 1 := by
  have hle := Decimal.pow_length_toDigits_le hm
  have hlt : 2 ^ ((Nat.toDigits 10 m).length - 1) < 2 ^ (m.log2 + 1) :=
    calc 2 ^ ((Nat.toDigits 10 m).length - 1) ≤ 10 ^ ((Nat.toDigits 10 m).length - 1) := by
          gcongr
          norm_num
      _ ≤ m := hle
      _ < 2 ^ (m.log2 + 1) := Nat.lt_log2_self
  have := (Nat.pow_lt_pow_iff_right (by norm_num)).1 hlt
  omega

/-- Reading a decimal that is neither zero nor beyond the doubles is rounding its number. -/
theorem isRoundingOf_toFloat {d : Decimal} (hd : d.coefficient ≠ 0)
    (hgreatest : d.leadingExponent ≤ 400) (hleast : -400 ≤ d.leadingExponent)
    (hmax : d.value < overflow) : IsRoundingOf d.toFloat d.value := by
  rw [Decimal.toFloat, if_neg hd, if_neg (by omega), if_neg (by omega)]
  rw [Decimal.leadingExponent, Decimal.digits] at hgreatest hleast
  obtain ⟨m, e⟩ := d
  simp only [Decimal.value] at hd hgreatest hleast hmax ⊢
  by_cases hsmall : m < 2 ^ 53 ∧ e.natAbs ≤ 22
  · obtain ⟨hmul, hdiv⟩ := isRoundingOf_small hsmall.1 hsmall.2
    rcases le_or_gt 0 e with he | he
    · rw [ten_zpow_of_nonneg he, decide_eq_false (not_lt.2 he)]
      exact hmul
    · rw [ten_zpow_of_neg he, ← div_eq_mul_inv, decide_eq_true he]
      exact hdiv
  · have hlarge : Float.ofScientific m (e < 0) e.natAbs
        = Float.ofModel (Float.Model.ofScientific m e) := by
      have hexponent : (if decide (e < 0) = true then Int.negOfNat e.natAbs
          else Int.ofNat e.natAbs) = e := by
        simp only [decide_eq_true_eq, Int.negOfNat_eq, Int.ofNat_eq_natCast]
        split <;> omega
      unfold Float.ofScientific
      rw [dif_neg hsmall]
      simp only [hexponent]
    have hlength := length_toDigits_le hd
    have hpos : 0 < (Nat.toDigits 10 m).length := Nat.length_toDigits_pos
    rw [hlarge]
    exact isRoundingOf_large hd (by omega) (by omega) hmax

/-- No number of an interval is beyond the doubles. -/
lemma lt_overflow_of_covers {b : Binary} {y : ℚ} (hfits : Fits b.mantissa b.exponent)
    (hcovers : b.Covers y) : y < overflow := by
  have hle : (b.mantissa : ℚ) + 1 ≤ 2 ^ 53 := by exact_mod_cast hfits.lt
  have hupper := hcovers.le_upper
  rcases hfits.greatest.lt_or_eq with hlt | heq
  · calc y ≤ (b.mantissa + 1 / 2) * 2 ^ b.exponent := hupper
      _ ≤ (2 ^ 53 - 1 / 2) * 2 ^ b.exponent := by gcongr; linarith
      _ < (2 ^ 53 - 1 / 2) * 2 ^ (971 : ℤ) := by
          gcongr
          norm_num
      _ = overflow := by rw [overflow]; norm_cast
  · have hend : b.upper ≤ overflow := by
      rw [Binary.upper, heq, overflow, ← zpow_natCast (n := 971), Nat.cast_ofNat]
      gcongr
      linarith
    refine (hupper.trans hend).lt_of_ne fun hy => ?_
    -- only the greatest mantissa reaches the bound, and it is odd
    have hy' : y = b.upper := le_antisymm hupper (hy ▸ hend)
    have hpos : (0 : ℚ) < 2 ^ (971 : ℤ) := by positivity
    have hm : b.mantissa + 1 = 2 ^ 53 := by
      rw [hy', Binary.upper, heq, overflow, ← zpow_natCast (n := 971), Nat.cast_ofNat,
        mul_left_inj' hpos.ne'] at hy
      have : (b.mantissa : ℚ) + 1 = 2 ^ 53 := by linarith
      exact_mod_cast this
    obtain ⟨n, hn⟩ := hcovers.even (.inr hy')
    omega

/-- The powers of ten with which reading stops lie beyond the doubles on either side. -/
lemma overflow_lt_zpow : overflow < (10 : ℚ) ^ (401 : ℤ) :=
  calc overflow < 2 ^ 53 * 2 ^ 971 := by
        rw [overflow]
        gcongr
        norm_num
    _ = 2 ^ 1024 := by rw [← pow_add]
    _ ≤ 2 ^ (3 * 401) := pow_le_pow_right₀ one_le_two (by norm_num)
    _ = 8 ^ 401 := by rw [pow_mul]; norm_num only
    _ ≤ 10 ^ 401 := by gcongr; norm_num
    _ = 10 ^ (401 : ℤ) := by rw [← zpow_natCast]; rfl

lemma zpow_lt_least : (10 : ℚ) ^ (-399 : ℤ) < 1 / 2 * 2 ^ (-1074 : ℤ) :=
  calc (10 : ℚ) ^ (-399 : ℤ) = (10 ^ 399)⁻¹ := by rw [zpow_neg, ← zpow_natCast]; rfl
    _ < (8 ^ 399)⁻¹ := by gcongr; norm_num
    _ = (2 ^ (3 * 399))⁻¹ := by rw [pow_mul]; norm_num only
    _ ≤ (2 ^ 1075)⁻¹ := by gcongr <;> norm_num
    _ = 1 / 2 * 2 ^ (-1074 : ℤ) := by
        rw [pow_succ, mul_inv, zpow_neg, ← zpow_natCast, one_div, mul_comm]
        rfl

lemma zpow_lt_of_covers {b : Binary} {y : ℚ} (hfits : Fits b.mantissa b.exponent)
    (hm : 0 < b.mantissa) (hcovers : b.Covers y) : (10 : ℚ) ^ (-399 : ℤ) < y := by
  have hone : (1 : ℚ) ≤ b.mantissa := by exact_mod_cast hm
  calc (10 : ℚ) ^ (-399 : ℤ) < 1 / 2 * 2 ^ (-1074 : ℤ) := zpow_lt_least
    _ ≤ 1 / 2 * 2 ^ b.exponent := by
        gcongr
        · norm_num
        · exact hfits.least
    _ ≤ b.lower := by
        rw [Binary.lower]
        gcongr
        split <;> linarith
    _ ≤ y := hcovers.lower_le

/-- A decimal in the interval around a double is read as the double. -/
theorem toFloat_of_covers {b : Binary} {d : Decimal} (hfits : Fits b.mantissa b.exponent)
    (hm : 0 < b.mantissa) (hcovers : b.Covers d.value) :
    d.toFloat.isFinite = true ∧ Binary.ofFloat d.toFloat = ⟨false, b.mantissa, b.exponent⟩ := by
  have hmin := zpow_lt_of_covers hfits hm hcovers
  have hmax := lt_overflow_of_covers hfits hcovers
  have hne : d.coefficient ≠ 0 := by
    intro hzero
    rw [Decimal.value, hzero, Nat.cast_zero, zero_mul] at hmin
    exact absurd hmin (not_lt.2 (by positivity))
  have hleast : -400 ≤ d.leadingExponent := by
    have := (zpow_lt_zpow_iff_right₀ (by norm_num)).1 (hmin.trans d.value_lt_zpow)
    omega
  have hgreatest : d.leadingExponent ≤ 400 := by
    have := (zpow_lt_zpow_iff_right₀ (by norm_num)).1
      ((Decimal.zpow_leadingExponent_le hne).trans_lt (hmax.trans overflow_lt_zpow))
    omega
  have hround := isRoundingOf_toFloat hne hgreatest hleast hmax
  obtain ⟨hmantissa, hexponent⟩ := (fits_ofFloat hround.finite).eq_of_mul_eq hfits
    (hround.parts.eq_of_covers hfits hcovers)
  refine ⟨hround.finite, ?_⟩
  have hpositive := hround.positive
  generalize Binary.ofFloat d.toFloat = c at hmantissa hexponent hpositive
  obtain ⟨negative, m, e⟩ := c
  simp only at hmantissa hexponent hpositive
  rw [hmantissa, hexponent, hpositive]

/-- However the shortest decimal of a double is written, it is read as the magnitude. -/
theorem toFloat_of_shortest {b : Binary} {d : Decimal} (hfits : Fits b.mantissa b.exponent)
    (hvalue : d.value = b.shortest.value) :
    d.toFloat.isFinite = true ∧ Binary.ofFloat d.toFloat = ⟨false, b.mantissa, b.exponent⟩ := by
  rcases Nat.eq_zero_or_pos b.mantissa with hzero | hm
  · have hcoefficient : d.coefficient = 0 := by
      rw [Binary.shortest, if_pos hzero] at hvalue
      simpa [Decimal.value, zpow_ne_zero] using hvalue
    have hexponent : b.exponent = -1074 := hfits.full.resolve_left (by omega)
    rw [Decimal.toFloat, if_pos hcoefficient, hzero, hexponent]
    decide +kernel
  · exact toFloat_of_covers hfits hm (hvalue ▸ b.covers_shortest hfits hm)

end Double

open Double

/-- Every finite double is read back from its exact text. -/
theorem readDouble?_exactText {x : Float} (h : x.isFinite = true) :
    readDouble? (exactText x) = some x := by
  obtain ⟨n, hn, htext, k, hdecimal⟩ :=
    Layout.exists_numeral (Binary.exponent_shortest (b := Binary.ofFloat x))
  obtain ⟨hnan, hinf⟩ := isNaN_of_isFinite h
  have hexact : exactText x = String.ofList (signed (Binary.ofFloat x).negative n.text) := by
    rw [exactText, Layout.double, signed]
    simp only [hnan, hinf, htext, Bool.false_eq_true, if_false]
  have hvalue : n.decimal.value = (Binary.ofFloat x).shortest.value := by
    rw [hdecimal, Decimal.value_zeros]
  obtain ⟨hfinite, hparts⟩ := toFloat_of_shortest (fits_ofFloat h) hvalue
  rw [hexact, Numeral.readDouble?_signed hn.1]
  congr 1
  apply eq_of_ofFloat_eq
  split
  · rename_i hnegative
    rw [ofFloat_neg hfinite, hparts]
    show (⟨true, _, _⟩ : Binary) = _
    rw [← hnegative]
  · rename_i hpositive
    rw [hparts, ← Bool.eq_false_of_not_eq_true hpositive]

/-- Different finite doubles have different exact texts. -/
theorem exactText_injective {x y : Float} (hx : x.isFinite = true) (hy : y.isFinite = true)
    (h : exactText x = exactText y) : x = y := by
  have hread := readDouble?_exactText hx
  rw [h, readDouble?_exactText hy] at hread
  exact (Option.some.inj hread).symm

end NoticeLedger

import NoticeLedger.Proofs.Double.Value

/-!
# Rounding to doubles

The arithmetic of doubles cuts a mantissa off and keeps, in two bits, how much has been cut off.
Followed through the shifts, the two bits tell where the exact number lies, so that the rounded
mantissa is nearest to it, and the double is nearest to the exact number among all doubles.
-/

namespace NoticeLedger

open Float.Model (UnpackedFloat totalExponent Format)
open Float.Model.UnpackedFloat (Sign Accuracy ExtendedMantissa shiftToTargetExponent
  roundWithAccuracy)

namespace Double

/-! ### Mantissas -/

/-- Where a number between zero and one lies, as far as an accuracy says. -/
def Tells : Accuracy → ℚ → Prop
  | .exact, r       => r = 0
  | .inexact .lt, r => 0 < r ∧ r < 1 / 2
  | .inexact .eq, r => r = 1 / 2
  | .inexact .gt, r => 1 / 2 < r ∧ r < 1

/-- A number is a mantissa and what has been cut off behind it. -/
def IsCut (em : ExtendedMantissa) (q : ℚ) : Prop :=
  Tells em.accuracy (q - em.mantissa)

/-- A natural number is nearest to a number, the even one if two are. -/
structure IsRounded (k : ℕ) (q : ℚ) : Prop where
  close : |k - q| ≤ 1 / 2
  even : |k - q| = 1 / 2 → Even k

lemma Tells.nonneg {a : Accuracy} {r : ℚ} (h : Tells a r) : 0 ≤ r := by
  rcases a with _ | (_ | _ | _) <;> simp only [Tells] at h <;> linarith

lemma Tells.lt_one {a : Accuracy} {r : ℚ} (h : Tells a r) : r < 1 := by
  rcases a with _ | (_ | _ | _) <;> simp only [Tells] at h <;> linarith

lemma isCut_ofMantissaAndAccuracy {m : ℕ} {a : Accuracy} {q : ℚ} (h : Tells a (q - m)) :
    IsCut (.ofMantissaAndAccuracy m a) q := by
  rcases a with _ | (_ | _ | _) <;> exact h

/-- One place to the right, the first bit of the cut becomes part of what the other one tells. -/
lemma IsCut.shiftRightOne {em : ExtendedMantissa} {q : ℚ} (h : IsCut em q) :
    IsCut em.shiftRightOne (q / 2) := by
  obtain ⟨m, round, sticky⟩ := em
  have hm : (m : ℚ) = 2 * (m / 2 : ℕ) + (m % 2 : ℕ) := by
    exact_mod_cast (Nat.div_add_mod m 2).symm
  rcases Nat.mod_two_eq_zero_or_one m with hbit | hbit <;> cases round <;> cases sticky <;>
    simp [IsCut, ExtendedMantissa.accuracy, ExtendedMantissa.shiftRightOne, Tells, hbit]
      at h hm ⊢ <;>
    first | linarith | constructor <;> linarith

lemma IsCut.shiftRight {em : ExtendedMantissa} {q : ℚ} (h : IsCut em q) (n : ℕ) :
    IsCut (em >>> n) (q / 2 ^ n) := by
  induction n with
  | zero => rwa [pow_zero, div_one]
  | succ n ih =>
    have := ih.shiftRightOne
    rwa [div_div, ← pow_succ] at this

lemma IsRounded.of_lt {k : ℕ} {q : ℚ} (h : |k - q| < 1 / 2) : IsRounded k q :=
  ⟨h.le, fun heq => absurd heq h.ne⟩

/-- The rounded mantissa is nearest to the exact number. -/
lemma IsCut.isRounded {em : ExtendedMantissa} {q : ℚ} (h : IsCut em q) :
    IsRounded em.roundedMantissa q := by
  obtain ⟨m, round, sticky⟩ := em
  cases round <;> cases sticky <;>
    simp only [IsCut, ExtendedMantissa.accuracy, Tells, ExtendedMantissa.roundedMantissa,
      Accuracy.roundToNearestEven] at h ⊢
  · exact .of_lt (by rw [abs_lt]; constructor <;> linarith)
  · exact .of_lt (by rw [abs_lt]; constructor <;> linarith)
  · have hq : q = m + 1 / 2 := by linarith
    rcases Nat.mod_two_eq_zero_or_one m with hbit | hbit <;> rw [hbit, hq]
    · exact ⟨by simp [abs_of_nonneg], fun _ => Nat.even_iff.2 hbit⟩
    · refine ⟨?_, fun _ => (Nat.odd_iff.2 hbit).add_one⟩
      push_cast
      rw [abs_le]
      constructor <;> linarith
  · refine .of_lt ?_
    push_cast
    rw [abs_lt]
    constructor <;> linarith

lemma IsRounded.half_le {k : ℕ} {q : ℚ} (h : IsRounded k q) {j : ℤ} (hj : j ≠ k) :
    1 / 2 ≤ |j - q| := by
  have hapart : (1 : ℚ) ≤ |(j : ℚ) - k| := by
    exact_mod_cast Int.one_le_abs (sub_ne_zero.2 hj)
  have := abs_sub_le (j : ℚ) q k
  rw [abs_sub_comm q] at this
  linarith [h.close]

lemma IsRounded.le_abs {k : ℕ} {q : ℚ} (h : IsRounded k q) (j : ℤ) : |k - q| ≤ |j - q| := by
  by_cases hj : j = k
  · simp [hj]
  · exact h.close.trans (h.half_le hj)

lemma IsRounded.even_of_eq {k : ℕ} {q : ℚ} (h : IsRounded k q) {j : ℤ} (hj : j ≠ k)
    (heq : |j - q| = |k - q|) : Even k :=
  h.even (le_antisymm h.close (heq ▸ h.half_le hj))

/-! ### The place of the last bit -/

/-- The exponent that the last bit has in a double next to a number. -/
structure LastPlace (t : ℤ) (y : ℚ) : Prop where
  least : -1074 ≤ t
  lt : y < 2 ^ (53 + t)
  le : 2 ^ (52 + t) ≤ y ∨ t = -1074

/-- The parts that a number is rounded to: of the multiples of the last place that are nearest to
the number, the even one if there are two. -/
def RoundsTo (y : ℚ) (b : Binary) : Prop :=
  ∃ (t : ℤ) (k : ℕ), LastPlace t y ∧ IsRounded k (y / 2 ^ t) ∧
    (b.mantissa : ℚ) * 2 ^ b.exponent = k * 2 ^ t ∧ (Even k → Even b.mantissa)

lemma targetExponent_eq (n : ℤ) :
    Format.targetExponent .binary64 n = max (n - 53) (-1074) := rfl

lemma targetExponent_totalExponent (m : ℕ) (e : ℤ) :
    Format.targetExponent .binary64 (totalExponent m e) = max (m.log2 + e - 52) (-1074) := by
  rw [targetExponent_eq, totalExponent]
  congr 1
  ring

lemma shiftToTargetExponent_eq {m : ℕ} {e t : ℤ} {a : Accuracy}
    (ht : max (m.log2 + e - 52) (-1074) = t) :
    shiftToTargetExponent .binary64 m e a =
      (ExtendedMantissa.ofMantissaAndAccuracy m a >>> (t - e).toNat, e + (t - e).toNat) := by
  unfold shiftToTargetExponent UnpackedFloat.shiftToExponent
  rw [targetExponent_totalExponent, ht]

/-- The exponent that a mantissa is shifted to is the one of the last place. -/
lemma lastPlace_max {m : ℕ} {e : ℤ} {q : ℚ} (hle : m ≤ q) (hlt : q < m + 1)
    (hbits : 2 ^ 52 ≤ m ∨ e ≤ -1074) :
    LastPlace (max (m.log2 + e - 52) (-1074)) (q * 2 ^ e) := by
  have hpos : (0 : ℚ) < 2 ^ e := by positivity
  refine ⟨le_max_right _ _, ?_, ?_⟩
  · have hq : q < 2 ^ (m.log2 + 1) := by
      have : m + 1 ≤ 2 ^ (m.log2 + 1) := Nat.lt_log2_self
      have : ((m + 1 : ℕ) : ℚ) ≤ (2 ^ (m.log2 + 1) : ℕ) := by exact_mod_cast this
      push_cast at this
      linarith
    calc q * 2 ^ e < 2 ^ (m.log2 + 1) * 2 ^ e := by gcongr
      _ = 2 ^ ((m.log2 + 1 : ℕ) + e : ℤ) := by rw [zpow_add₀ two_ne_zero, zpow_natCast]
      _ ≤ 2 ^ (53 + max (m.log2 + e - 52) (-1074)) :=
        zpow_le_zpow_right₀ one_le_two (by push_cast; omega)
  · rcases le_or_gt (m.log2 + e - 52) (-1074) with hleast | hgreater
    · exact .inr (max_eq_right hleast)
    have hm : m ≠ 0 := by
      rintro rfl
      rw [Nat.log2_zero] at hgreater
      omega
    have hq : (2 : ℚ) ^ m.log2 ≤ q := by
      have : ((2 ^ m.log2 : ℕ) : ℚ) ≤ m := by exact_mod_cast Nat.log2_self_le hm
      push_cast at this
      linarith
    left
    calc (2 : ℚ) ^ (52 + max (m.log2 + e - 52) (-1074)) = 2 ^ ((m.log2 : ℕ) + e : ℤ) := by
          rw [max_eq_left hgreater.le]
          congr 1
          ring
      _ = 2 ^ m.log2 * 2 ^ e := by rw [zpow_add₀ two_ne_zero, zpow_natCast]
      _ ≤ q * 2 ^ e := by gcongr

lemma LastPlace.div_lt {t : ℤ} {y : ℚ} (h : LastPlace t y) : y / 2 ^ t < 2 ^ 53 := by
  rw [div_lt_iff₀ (by positivity)]
  have := h.lt
  rwa [zpow_add₀ two_ne_zero] at this

lemma LastPlace.le_div {t : ℤ} {y : ℚ} (h : LastPlace t y) (ht : t ≠ -1074) :
    2 ^ 52 ≤ y / 2 ^ t := by
  rw [le_div_iff₀ (by positivity)]
  have := h.le.resolve_right ht
  rwa [zpow_add₀ two_ne_zero] at this

/-- From this number on, numbers are rounded to infinity. -/
def overflow : ℚ :=
  (2 ^ 53 - 1 / 2) * 2 ^ 971

lemma two_pow_lt_overflow : (2 : ℚ) ^ 1023 < overflow := by
  rw [overflow, show (1023 : ℕ) = 52 + 971 by norm_num, pow_add]
  gcongr
  norm_num

lemma LastPlace.le_of_lt {t : ℤ} {y : ℚ} (h : LastPlace t y) (hy : y < overflow) : t ≤ 971 := by
  rcases h.le with hle | rfl
  · have hmost : overflow < (2 : ℚ) ^ (1024 : ℤ) := by
      rw [overflow, show (1024 : ℤ) = (53 + 971 : ℕ) by norm_num, zpow_natCast, pow_add]
      gcongr
      norm_num
    have := (zpow_lt_zpow_iff_right₀ one_lt_two).1 ((hle.trans_lt hy).trans hmost)
    omega
  · norm_num

/-- The mantissa rounded to the last place has at most 53 bits, but for the one that is the next
power of two. -/
lemma IsRounded.le_of_lastPlace {t : ℤ} {y : ℚ} {k : ℕ} (hk : IsRounded k (y / 2 ^ t))
    (h : LastPlace t y) : k ≤ 2 ^ 53 := by
  have h₁ := (abs_le.1 hk.close).2
  have h₂ := h.div_lt
  have : (k : ℚ) < (2 ^ 53 + 1 : ℕ) := by push_cast; linarith
  have := Nat.cast_lt.1 this
  omega

lemma IsRounded.lt_of_overflow {t : ℤ} {y : ℚ} {k : ℕ} (hk : IsRounded k (y / 2 ^ t))
    (ht : t = 971) (hy : y < overflow) : k < 2 ^ 53 := by
  have h₁ := (abs_le.1 hk.close).2
  have h₂ : y / 2 ^ t < 2 ^ 53 - 1 / 2 := by
    rw [div_lt_iff₀ (by positivity), ht]
    exact hy
  have : (k : ℚ) < (2 ^ 53 : ℕ) := by push_cast; linarith
  exact_mod_cast this

lemma IsRounded.full_of_lastPlace {t : ℤ} {y : ℚ} {k : ℕ} (hk : IsRounded k (y / 2 ^ t))
    (h : LastPlace t y) : 2 ^ 52 ≤ k ∨ t = -1074 := by
  by_cases ht : t = -1074
  · exact .inr ht
  have h₁ := (abs_le.1 hk.close).1
  have h₂ := h.le_div ht
  have : ((2 ^ 52 : ℕ) : ℚ) < (k + 1 : ℕ) := by push_cast; linarith
  have := Nat.cast_lt.1 this
  omega

/-- The unpacked double with a sign, a mantissa and an exponent, zero for the mantissa zero. -/
def unpacked (s : Sign) (m : ℕ) (e : ℤ) : UnpackedFloat :=
  if h : m = 0 then .zero s else .finite s m e (Nat.pos_of_ne_zero h)

lemma roundWithAccuracy_eq {s : Sign} {m : ℕ} {e t : ℤ} {a : Accuracy} {k : ℕ}
    (ht : max (m.log2 + e - 52) (-1074) = t) (he : e ≤ t)
    (hk : (ExtendedMantissa.ofMantissaAndAccuracy m a >>> (t - e).toNat).roundedMantissa = k)
    (hmax : k ≤ 2 ^ 53) (hleast : -1074 ≤ t) :
    roundWithAccuracy .binary64 s m e a =
      if k = 2 ^ 53 then unpacked s (2 ^ 52) (t + 1) else unpacked s k t := by
  have hround : roundWithAccuracy .binary64 s m e a =
      unpacked s (shiftToTargetExponent .binary64 k t .exact).1.mantissa
        (shiftToTargetExponent .binary64 k t .exact).2 := by
    unfold roundWithAccuracy
    simp only [shiftToTargetExponent_eq ht, hk, show e + (t - e).toNat = t by omega]
    rfl
  rw [hround]
  -- the rounded mantissa is shifted once more only if it has become the next power of two
  by_cases hover : k = 2 ^ 53
  · have hnext : max (((2 ^ 53 : ℕ).log2 : ℤ) + t - 52) (-1074) = t + 1 := by
      rw [Nat.log2_two_pow]
      omega
    rw [if_pos hover, hover, shiftToTargetExponent_eq hnext, show (t + 1 - t).toNat = 1 by omega]
    rfl
  · have hlog : k.log2 ≤ 52 := log2_le_of_lt (by omega)
    have hstay : (max ((k.log2 : ℤ) + t - 52) (-1074) - t).toNat = 0 := by omega
    rw [if_neg hover, shiftToTargetExponent_eq rfl, hstay, Nat.cast_zero, add_zero]
    rfl

lemma represents_unpacked {s : Sign} {m : ℕ} {e : ℤ} (h : Fits m e) :
    ∃ b, Represents (unpacked s m e) b ∧ b.negative = (s == .negative) ∧
      (b.mantissa : ℚ) * 2 ^ b.exponent = m * 2 ^ e ∧ b.mantissa = m := by
  unfold unpacked
  split_ifs with hm
  · exact ⟨_, .zero s, rfl, by simp [hm], hm.symm⟩
  · exact ⟨_, .finite h, rfl, rfl, rfl⟩

/-- A mantissa with an accuracy is rounded to a finite double, if there are bits enough. -/
theorem exists_represents_roundWithAccuracy {s : Sign} {m : ℕ} {e : ℤ} {a : Accuracy} {q : ℚ}
    (htells : Tells a (q - m)) (hbits : 2 ^ 52 ≤ m ∨ e ≤ -1074) (hmax : q * 2 ^ e < overflow) :
    ∃ b, Represents (roundWithAccuracy .binary64 s m e a) b ∧ b.negative = (s == .negative) ∧
      RoundsTo (q * 2 ^ e) b := by
  have hle : (m : ℚ) ≤ q := by linarith [htells.nonneg]
  have hlt : q < m + 1 := by linarith [htells.lt_one]
  have hlast := lastPlace_max hle hlt hbits
  generalize ht : max ((m.log2 : ℤ) + e - 52) (-1074) = t at hlast
  have he : e ≤ t := by
    rcases hbits with hbits | hbits
    · have : 52 ≤ m.log2 := (Nat.le_log2 (by omega)).2 hbits
      omega
    · omega
  have hcut := (isCut_ofMantissaAndAccuracy htells).shiftRight (t - e).toNat
  have hq : q / 2 ^ (t - e).toNat = q * 2 ^ e / 2 ^ t := by
    have : (2 : ℚ) ^ t = 2 ^ (t - e).toNat * 2 ^ e := by
      rw [← zpow_natCast, ← zpow_add₀ two_ne_zero]
      congr 1
      omega
    rw [this]
    field_simp
  rw [hq] at hcut
  have hrounded := hcut.isRounded
  generalize hk :
    (ExtendedMantissa.ofMantissaAndAccuracy m a >>> (t - e).toNat).roundedMantissa = k at hrounded
  have hmost := hrounded.le_of_lastPlace hlast
  have hfull := hrounded.full_of_lastPlace hlast
  have hgreatest := hlast.le_of_lt hmax
  rw [roundWithAccuracy_eq ht he hk hmost hlast.least]
  split_ifs with hover
  · have htop : t ≠ 971 := fun ht => (hrounded.lt_of_overflow ht hmax).ne hover
    have hfits : Fits (2 ^ 52) (t + 1) :=
      ⟨by norm_num, by have := hlast.least; omega, by omega, .inl le_rfl⟩
    obtain ⟨b, hb, hnegative, hvalue, hmantissa⟩ := represents_unpacked (s := s) hfits
    refine ⟨b, hb, hnegative, t, k, hlast, hrounded, ?_, fun _ => hmantissa ▸ by decide⟩
    rw [hvalue, hover, zpow_add₀ two_ne_zero]
    push_cast
    ring
  · have hfits : Fits k t := ⟨by omega, hlast.least, by omega, hfull⟩
    obtain ⟨b, hb, hnegative, hvalue, hmantissa⟩ := represents_unpacked (s := s) hfits
    exact ⟨b, hb, hnegative, t, k, hlast, hrounded, hvalue, fun h => hmantissa ▸ h⟩

/-! ### Doubles -/

/-- A finite double is nearest to a number: no other one is closer, and it has an even mantissa if
another one is as close. -/
structure IsNearest (x : Float) (y : ℚ) : Prop where
  finite : x.isFinite = true
  closest : ∀ z : Float, z.isFinite = true → |value x - y| ≤ |value z - y|
  even : ∀ z : Float, z.isFinite = true → |value z - y| = |value x - y| → value z ≠ value x →
    Even (Binary.ofFloat x).mantissa

/-- A finite double is a multiple of the last place of a number, or farther from the number than
a multiple of it. -/
lemma LastPlace.multiple_or_far {t : ℤ} {y : ℚ} (h : LastPlace t y) {z : Float}
    (hz : z.isFinite = true) :
    (∃ j : ℤ, value z = j * 2 ^ t) ∨ |(2 ^ 52 : ℤ) * 2 ^ t - y| < |value z - y| := by
  have hfits := fits_ofFloat hz
  unfold value
  generalize Binary.ofFloat z = b at hfits
  obtain ⟨negative, m, e⟩ := b
  simp only [Binary.value] at hfits ⊢
  rcases le_or_gt t e with hle | hgt
  · -- with no lesser exponent it is a multiple
    left
    obtain ⟨n, rfl⟩ : ∃ n : ℕ, e = t + n := ⟨(e - t).toNat, by omega⟩
    refine ⟨(if negative then -1 else 1) * m * 2 ^ n, ?_⟩
    rw [zpow_add₀ two_ne_zero, zpow_natCast]
    push_cast
    ring
  · -- with a lesser one it is below the least number with 53 bits, which is a multiple
    right
    have hnormal : (2 : ℚ) ^ 52 * 2 ^ t ≤ y := by
      have := h.le.resolve_right (by have := hfits.least; omega)
      rwa [zpow_add₀ two_ne_zero] at this
    have hsmall := hfits.lt_of_lt hgt
    have hnonneg : (0 : ℚ) ≤ m * 2 ^ e := by positivity
    have hz : (if negative then -1 else 1) * (m : ℚ) * 2 ^ e ≤ m * 2 ^ e := by
      cases negative
      · simp
      · simpa [neg_le_iff_add_nonneg] using add_nonneg hnonneg hnonneg
    rw [abs_sub_comm, abs_sub_comm _ y, abs_of_nonneg, abs_of_nonneg] <;> push_cast <;> linarith

/-- A finite double without a minus sign. -/
structure Unsigned (x : Float) : Prop where
  finite : x.isFinite = true
  positive : (Binary.ofFloat x).negative = false

/-- A double that a number is rounded to. -/
structure IsRoundingOf (x : Float) (y : ℚ) : Prop extends Unsigned x where
  parts : RoundsTo y (Binary.ofFloat x)

lemma Unsigned.value_eq {x : Float} (h : Unsigned x) :
    value x = (Binary.ofFloat x).mantissa * 2 ^ (Binary.ofFloat x).exponent := by
  simp [value, Binary.value, h.positive]

lemma abs_mul_zpow_sub (q y : ℚ) (t : ℤ) : |q * 2 ^ t - y| = |q - y / 2 ^ t| * 2 ^ t := by
  have hpos : (0 : ℚ) < 2 ^ t := by positivity
  nth_rewrite 3 [← abs_of_pos hpos]
  rw [← abs_mul, sub_mul, div_mul_cancel₀ _ hpos.ne']

/-- The double that a number is rounded to is nearest to it. -/
theorem IsRoundingOf.isNearest {x : Float} {y : ℚ} (h : IsRoundingOf x y) : IsNearest x y := by
  obtain ⟨t, k, hlast, hk, hvalue, heven⟩ := h.parts
  have hpos : (0 : ℚ) < 2 ^ t := by positivity
  rw [← h.value_eq] at hvalue
  have hclosest (j : ℤ) : |value x - y| ≤ |(j : ℚ) * 2 ^ t - y| := by
    rw [hvalue, abs_mul_zpow_sub, abs_mul_zpow_sub]
    exact mul_le_mul_of_nonneg_right (hk.le_abs j) hpos.le
  refine ⟨h.finite, fun z hz => ?_, fun z hz hsame hne => ?_⟩
  · rcases hlast.multiple_or_far hz with ⟨j, hj⟩ | hfar
    · rw [hj]
      exact hclosest j
    · exact (hclosest _).trans hfar.le
  · rcases hlast.multiple_or_far hz with ⟨j, hj⟩ | hfar
    · rw [hj, hvalue, abs_mul_zpow_sub, abs_mul_zpow_sub, mul_left_inj' hpos.ne'] at hsame
      refine heven (hk.even_of_eq (j := j) ?_ hsame)
      rintro rfl
      exact hne (by rw [hj, hvalue]; norm_cast)
    · exact absurd hsame ((hclosest _).trans_lt hfar).ne'

/-- Above the least number with 53 bits, the error is half of a unit in the 53rd bit at most. -/
theorem IsRoundingOf.abs_sub_le {x : Float} {y : ℚ} (h : IsRoundingOf x y)
    (hy : (2 : ℚ) ^ (-1022 : ℤ) ≤ y) : |value x - y| ≤ y / 2 ^ 53 := by
  obtain ⟨t, k, hlast, hk, hvalue, -⟩ := h.parts
  have hpos : (0 : ℚ) < 2 ^ t := by positivity
  have hnormal : (2 : ℚ) ^ 52 * 2 ^ t ≤ y := by
    rcases hlast.le with hle | rfl
    · rwa [zpow_add₀ two_ne_zero] at hle
    · refine le_trans (le_of_eq ?_) hy
      rw [← zpow_natCast, ← zpow_add₀ two_ne_zero]
      norm_num
  calc |value x - y| = |k - y / 2 ^ t| * 2 ^ t := by
        rw [h.value_eq, hvalue, abs_mul_zpow_sub]
    _ ≤ 1 / 2 * 2 ^ t := by have := hk.close; gcongr
    _ = 2 ^ 52 * 2 ^ t / 2 ^ 53 := by ring
    _ ≤ y / 2 ^ 53 := by gcongr

/-- A number is a double. -/
def IsDouble (y : ℚ) : Prop :=
  ∃ x : Float, x.isFinite = true ∧ value x = y

/-- Nothing but the double itself is nearest to a number that is a double. -/
lemma IsNearest.value_eq {x : Float} {y : ℚ} (h : IsNearest x y) (hy : IsDouble y) :
    value x = y := by
  obtain ⟨z, hz, rfl⟩ := hy
  have := h.closest z hz
  rw [sub_self, abs_zero, abs_nonpos_iff] at this
  exact sub_eq_zero.1 this

/-- No number is rounded up beyond a double that is above it. -/
lemma IsNearest.value_le {x z : Float} {y : ℚ} (h : IsNearest x y) (hz : z.isFinite = true)
    (hle : y ≤ value z) : value x ≤ value z := by
  have := h.closest z hz
  rw [abs_of_nonneg (sub_nonneg.2 hle)] at this
  linarith [(abs_le.1 this).2]

end Double

end NoticeLedger

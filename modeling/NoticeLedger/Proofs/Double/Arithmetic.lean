import NoticeLedger.Proofs.Double.Rounding

/-!
# The arithmetic of doubles

Products and quotients of doubles are the exact ones, rounded; a count below `2 ^ 53` is a double.
-/

namespace NoticeLedger

open Float.Model (UnpackedFloat totalExponent Format)
open Float.Model.UnpackedFloat (Sign Accuracy roundWithAccuracy divCore accuracyOfFraction)

namespace Double

/-- An unsigned double is unpacked to zero, or to its mantissa and exponent. -/
lemma Unsigned.cases {x : Float} (h : Unsigned x) :
    (x.toModel.unpack = .zero .positive ∧ value x = 0) ∨
      ∃ m e pos, x.toModel.unpack = .finite .positive m e pos ∧ Fits m e ∧
        value x = m * 2 ^ e := by
  have hrep := represents_unpack h.finite
  have hpositive := h.positive
  rw [h.value_eq]
  generalize x.toModel.unpack = u, Binary.ofFloat x = b at hrep hpositive
  cases hrep with
  | zero s =>
    cases s
    · simp at hpositive
    · simp
  | @finite s m e pos hfits =>
    cases s
    · simp at hpositive
    · exact .inr ⟨m, e, pos, rfl, hfits, rfl⟩

lemma value_pack {u : UnpackedFloat} {b : Binary} (h : Represents u b)
    (hpositive : b.negative = false) :
    Unsigned (Float.ofModel (Float.Model.pack u)) ∧
      value (Float.ofModel (Float.Model.pack u)) = b.mantissa * 2 ^ b.exponent := by
  obtain ⟨hfinite, hparts⟩ := ofFloat_pack h
  have hunsigned : Unsigned (Float.ofModel (Float.Model.pack u)) :=
    ⟨hfinite, hparts ▸ hpositive⟩
  exact ⟨hunsigned, by rw [hunsigned.value_eq, hparts]⟩

lemma isRoundingOf_pack {u : UnpackedFloat} {b : Binary} {y : ℚ} (h : Represents u b)
    (hpositive : b.negative = false) (hy : RoundsTo y b) :
    IsRoundingOf (Float.ofModel (Float.Model.pack u)) y := by
  obtain ⟨hfinite, hparts⟩ := ofFloat_pack h
  exact ⟨⟨hfinite, hparts ▸ hpositive⟩, hparts ▸ hy⟩

lemma isRoundingOf_zero :
    IsRoundingOf (Float.ofModel (Float.Model.pack (.zero .positive))) 0 := by
  refine isRoundingOf_pack (.zero .positive) rfl ⟨-1074, 0, ?_, ?_, by simp, fun _ => Even.zero⟩
  · exact ⟨le_rfl, by positivity, .inr rfl⟩
  · exact ⟨by simp, by simp⟩

lemma isRoundingOf_roundWithAccuracy {m : ℕ} {e : ℤ} {a : Accuracy} {q : ℚ}
    (htells : Tells a (q - m)) (hbits : 2 ^ 52 ≤ m ∨ e ≤ -1074) (hmax : q * 2 ^ e < overflow) :
    IsRoundingOf (Float.ofModel (Float.Model.pack (roundWithAccuracy .binary64 .positive m e a)))
      (q * 2 ^ e) := by
  obtain ⟨b, hb, hnegative, hrounds⟩ :=
    exists_represents_roundWithAccuracy (s := .positive) htells hbits hmax
  exact isRoundingOf_pack hb hnegative hrounds

/-! ### Products -/

lemma Fits.bits_mul {m m' : ℕ} {e e' : ℤ} (h : Fits m e) (h' : Fits m' e') (hm : 0 < m)
    (hm' : 0 < m') : 2 ^ 52 ≤ m * m' ∨ e + e' ≤ -1074 := by
  rcases h.full with hfull | rfl
  · exact .inl (hfull.trans (Nat.le_mul_of_pos_right m hm'))
  rcases h'.full with hfull | rfl
  · exact .inl (hfull.trans (Nat.le_mul_of_pos_left m' hm))
  · right
    norm_num

/-- A product of numbers with mantissas is the exact product, rounded, if the mantissas have bits
enough. -/
lemma isRoundingOf_mul_finite {m m' : ℕ} {e e' : ℤ} {pos : 0 < m} {pos' : 0 < m'}
    (hbits : 2 ^ 52 ≤ m * m' ∨ e + e' ≤ -1074)
    (hmax : (m * 2 ^ e * (m' * 2 ^ e') : ℚ) < overflow) :
    IsRoundingOf (Float.ofModel (Float.Model.pack (UnpackedFloat.mul .binary64
      (.finite .positive m e pos) (.finite .positive m' e' pos')))) (m * 2 ^ e * (m' * 2 ^ e')) := by
  have hvalue : (m * 2 ^ e * (m' * 2 ^ e') : ℚ) = ((m * m' : ℕ) : ℚ) * 2 ^ (e + e') := by
    rw [zpow_add₀ two_ne_zero]
    push_cast
    ring
  rw [hvalue] at hmax ⊢
  exact isRoundingOf_roundWithAccuracy (sub_self _) hbits hmax

/-- A product of doubles is the exact product, rounded. -/
theorem isRoundingOf_mul {x y : Float} (hx : Unsigned x) (hy : Unsigned y)
    (hmax : value x * value y < 2 ^ 1023) : IsRoundingOf (x * y) (value x * value y) := by
  have hmul : x * y = Float.ofModel (Float.Model.pack
      (UnpackedFloat.mul .binary64 x.toModel.unpack y.toModel.unpack)) := rfl
  rw [hmul]
  rcases hx.cases with ⟨hux, hvx⟩ | ⟨m, e, pos, hux, hfits, hvx⟩ <;>
    rcases hy.cases with ⟨huy, hvy⟩ | ⟨m', e', pos', huy, hfits', hvy⟩ <;>
    rw [hux, huy]
  · rw [hvx, zero_mul]
    exact isRoundingOf_zero
  · rw [hvx, zero_mul]
    exact isRoundingOf_zero
  · rw [hvy, mul_zero]
    exact isRoundingOf_zero
  · rw [hvx, hvy] at hmax ⊢
    exact isRoundingOf_mul_finite (hfits.bits_mul hfits' pos pos') (hmax.trans two_pow_lt_overflow)

/-! ### Quotients -/

lemma tells_accuracyOfFraction {num den : ℕ} (h : num < den) :
    Tells (accuracyOfFraction num den) (num / den : ℚ) := by
  have hden : (0 : ℚ) < den := by exact_mod_cast (Nat.zero_le num).trans_lt h
  unfold accuracyOfFraction
  split_ifs with hnum
  · simp [Tells, hnum]
  have hpos : (0 : ℚ) < num := by exact_mod_cast Nat.pos_of_ne_zero hnum
  have hlt : (num : ℚ) < den := by exact_mod_cast h
  rcases lt_trichotomy (2 * num) den with hcompare | hcompare | hcompare
  · have : (2 * num : ℚ) < den := by exact_mod_cast hcompare
    rw [Nat.compare_eq_lt.2 hcompare]
    refine ⟨by positivity, ?_⟩
    rw [div_lt_div_iff₀ hden two_pos]
    linarith
  · have : (2 * num : ℚ) = den := by exact_mod_cast hcompare
    rw [Nat.compare_eq_eq.2 hcompare]
    show (num : ℚ) / den = 1 / 2
    rw [div_eq_div_iff hden.ne' two_ne_zero]
    linarith
  · have : (den : ℚ) < 2 * num := by exact_mod_cast hcompare
    rw [Nat.compare_eq_gt.2 hcompare]
    refine ⟨?_, by rwa [div_lt_one hden]⟩
    rw [div_lt_div_iff₀ two_pos hden]
    linarith

/-- The remainder tells where the exact quotient lies behind the quotient of natural numbers. -/
lemma tells_div (n : ℕ) {d : ℕ} (hd : 0 < d) :
    Tells (accuracyOfFraction (n % d) d) ((n : ℕ) / d - (n / d : ℕ) : ℚ) := by
  have hd' : (d : ℚ) ≠ 0 := by exact_mod_cast hd.ne'
  have hdivmod : (n : ℚ) = d * (n / d : ℕ) + (n % d : ℕ) := by
    exact_mod_cast (Nat.div_add_mod n d).symm
  have hremainder : (n / d - (n / d : ℕ) : ℚ) = (n % d : ℕ) / d := by
    nth_rewrite 1 [hdivmod]
    field_simp
    ring
  rw [hremainder]
  exact tells_accuracyOfFraction (Nat.mod_lt n hd)

/-- The quotient of two mantissas is computed with enough bits. -/
lemma exists_divCore {m m' : ℕ} (e e' : ℤ) (hm : 0 < m) (hm' : 0 < m') :
    ∃ (shift : ℕ) (t : ℤ), (shift : ℤ) + t = e - e' ∧
      divCore .binary64 m e m' e' =
        (m * 2 ^ shift / m', t, accuracyOfFraction (m * 2 ^ shift % m') m') ∧
      (2 ^ 52 ≤ m * 2 ^ shift / m' ∨ t ≤ -1074) := by
  have htarget : Format.targetExponent .binary64 (totalExponent m e - totalExponent m' e') =
      max (m.log2 + e - (m'.log2 + e') - 53) (-1074) := by
    rw [targetExponent_eq, totalExponent, totalExponent]
    congr 1
    ring
  generalize ht : min (e - e') (max (m.log2 + e - (m'.log2 + e') - 53) (-1074)) = t
  refine ⟨(e - e' - t).toNat, t, by omega, ?_, ?_⟩
  · unfold divCore
    simp only [htarget, ht, Nat.shiftLeft_eq]
  · rcases le_or_gt t (-1074) with hleast | hgreater
    · exact .inr hleast
    left
    rw [Nat.le_div_iff_mul_le hm']
    calc 2 ^ 52 * m' ≤ 2 ^ 52 * 2 ^ (m'.log2 + 1) := by
          gcongr
          exact Nat.lt_log2_self.le
      _ = 2 ^ (52 + (m'.log2 + 1)) := (pow_add _ _ _).symm
      _ ≤ 2 ^ (m.log2 + (e - e' - t).toNat) := Nat.pow_le_pow_right two_pos (by omega)
      _ = 2 ^ m.log2 * 2 ^ (e - e' - t).toNat := pow_add _ _ _
      _ ≤ m * 2 ^ (e - e' - t).toNat := by
          gcongr
          exact Nat.log2_self_le hm.ne'

/-- A quotient of numbers with mantissas is the exact quotient, rounded. -/
lemma isRoundingOf_div_finite {m m' : ℕ} {e e' : ℤ} {pos : 0 < m} {pos' : 0 < m'}
    (hmax : (m * 2 ^ e / (m' * 2 ^ e') : ℚ) < overflow) :
    IsRoundingOf (Float.ofModel (Float.Model.pack (UnpackedFloat.div .binary64
      (.finite .positive m e pos) (.finite .positive m' e' pos')))) (m * 2 ^ e / (m' * 2 ^ e')) := by
  obtain ⟨shift, t, hshift, hcore, hbits⟩ := exists_divCore e e' pos pos'
  have hm' : (m' : ℚ) ≠ 0 := by exact_mod_cast pos'.ne'
  have hround : UnpackedFloat.div .binary64 (.finite .positive m e pos)
      (.finite .positive m' e' pos') = roundWithAccuracy .binary64 .positive
        (divCore .binary64 m e m' e').1 (divCore .binary64 m e m' e').2.1
        (divCore .binary64 m e m' e').2.2 := rfl
  rw [hround, hcore]
  have hvalue : (m * 2 ^ e / (m' * 2 ^ e') : ℚ) = (m * 2 ^ shift / m' : ℚ) * 2 ^ t := by
    have : (2 : ℚ) ^ e = 2 ^ shift * 2 ^ t * 2 ^ e' := by
      rw [← zpow_natCast, ← zpow_add₀ two_ne_zero, ← zpow_add₀ two_ne_zero, hshift]
      congr 1
      ring
    rw [this]
    field_simp
  have htells := tells_div (m * 2 ^ shift) pos'
  push_cast at htells
  rw [hvalue] at hmax ⊢
  exact isRoundingOf_roundWithAccuracy htells hbits hmax

/-- A quotient of doubles is the exact quotient, rounded. -/
theorem isRoundingOf_div {x y : Float} (hx : Unsigned x) (hy : Unsigned y) (hpos : 0 < value y)
    (hmax : value x / value y < 2 ^ 1023) : IsRoundingOf (x / y) (value x / value y) := by
  have hdiv : x / y = Float.ofModel (Float.Model.pack
      (UnpackedFloat.div .binary64 x.toModel.unpack y.toModel.unpack)) := rfl
  rw [hdiv]
  rcases hy.cases with ⟨huy, hvy⟩ | ⟨m', e', pos', huy, hfits', hvy⟩
  · exact absurd hvy hpos.ne'
  rcases hx.cases with ⟨hux, hvx⟩ | ⟨m, e, pos, hux, hfits, hvx⟩ <;> rw [hux, huy]
  · rw [hvx, zero_div]
    exact isRoundingOf_zero
  · rw [hvx, hvy] at hmax ⊢
    exact isRoundingOf_div_finite (hmax.trans two_pow_lt_overflow)

/-! ### Counts -/

/-- Numbers that 53 bits hold are far below the greatest double. -/
lemma lt_two_pow_of_lt {q : ℚ} (h : q < 2 ^ 53) : q < 2 ^ 1023 :=
  h.trans (pow_lt_pow_right₀ one_lt_two (by norm_num))

/-- A mantissa and an exponent that a double has are not rounded. -/
lemma roundWithAccuracy_of_fits {s : Sign} {m : ℕ} {e : ℤ} (hm : 0 < m) (h : Fits m e) :
    roundWithAccuracy .binary64 s m e .exact = .finite s m e hm := by
  have hlog : m.log2 ≤ 52 := log2_le_of_lt h.lt
  have hplace : max ((m.log2 : ℤ) + e - 52) (-1074) = e := by
    have := h.least
    rcases h.full with hfull | hleast
    · rw [h.log2_eq hfull]
      omega
    · omega
  have hk : (Float.Model.UnpackedFloat.ExtendedMantissa.ofMantissaAndAccuracy m .exact >>>
      (e - e).toNat).roundedMantissa = m := by
    rw [sub_self]
    rfl
  rw [roundWithAccuracy_eq hplace le_rfl hk h.lt.le h.least, if_neg h.lt.ne, unpacked,
    dif_neg hm.ne']

/-- A count is shifted to the left until it has 53 bits. -/
lemma fits_shifted {n : ℕ} (hpos : 0 < n) (h : n < 2 ^ 53) :
    Fits (n * 2 ^ (52 - n.log2)) (-(52 - n.log2 : ℕ)) := by
  have hlog : n.log2 ≤ 52 := log2_le_of_lt h
  refine ⟨?_, by omega, by omega, .inl ?_⟩
  · calc n * 2 ^ (52 - n.log2) < 2 ^ (n.log2 + 1) * 2 ^ (52 - n.log2) := by
          gcongr
          exact Nat.lt_log2_self
      _ = 2 ^ 53 := by rw [← pow_add]; congr 1; omega
  · calc 2 ^ 52 = 2 ^ n.log2 * 2 ^ (52 - n.log2) := by rw [← pow_add]; congr 1; omega
      _ ≤ n * 2 ^ (52 - n.log2) := by
          gcongr
          exact Nat.log2_self_le hpos.ne'

lemma exists_represents_normalize {n : ℕ} (h : n < 2 ^ 53) :
    ∃ b, Represents (UnpackedFloat.normalize .binary64 n 0 .positive) b ∧ b.negative = false ∧
      (b.mantissa : ℚ) * 2 ^ b.exponent = n := by
  rcases Nat.eq_zero_or_pos n with rfl | hpos
  · exact ⟨_, .zero .positive, rfl, by simp⟩
  have hfits := fits_shifted hpos h
  have hplaces : (-max ((n.log2 : ℤ) + 0 - 52) (-1074)).toNat = 52 - n.log2 := by
    have : n.log2 ≤ 52 := log2_le_of_lt h
    omega
  have hnormal : UnpackedFloat.normalize .binary64 n 0 .positive =
      .finite .positive (n * 2 ^ (52 - n.log2)) (-(52 - n.log2 : ℕ)) (by positivity) := by
    unfold UnpackedFloat.normalize UnpackedFloat.round UnpackedFloat.decreaseExponent
    rw [Int.compare_eq_gt.2 (by omega)]
    simp only [Int.toNat_natCast, targetExponent_totalExponent, hplaces, Nat.shiftLeft_eq, zero_sub]
    exact roundWithAccuracy_of_fits _ hfits
  rw [hnormal]
  refine ⟨_, .finite hfits, rfl, ?_⟩
  show ((n * 2 ^ (52 - n.log2) : ℕ) : ℚ) * 2 ^ (-(52 - n.log2 : ℕ) : ℤ) = n
  rw [zpow_neg, zpow_natCast]
  push_cast
  field_simp

lemma toFloat_toUInt64 {n : ℕ} (h : n < 2 ^ 53) :
    Unsigned n.toUInt64.toFloat ∧ value n.toUInt64.toFloat = n := by
  have hofNat : n.toUInt64.toFloat = Float.ofModel (Float.Model.pack
      (UnpackedFloat.normalize .binary64 (n.toUInt64.toNat : ℤ) 0 .positive)) := rfl
  have htoNat : n.toUInt64.toNat = n := by
    rw [Nat.toUInt64_eq, UInt64.toNat_ofNat', Nat.mod_eq_of_lt (by omega)]
  obtain ⟨b, hb, hpositive, hvalue⟩ := exists_represents_normalize h
  rw [hofNat, htoNat, ← hvalue]
  exact value_pack hb hpositive

/-- A count that 53 bits hold is a double. -/
theorem ofNat_exact {n : ℕ} (h : n < 2 ^ 53) :
    Unsigned (Float.ofNat n) ∧ value (Float.ofNat n) = n := by
  -- a small number is scaled by the power of ten with exponent zero
  have hofNat : Float.ofNat n = n.toUInt64.toFloat * Float.ofBits 0x3FF0000000000000 := by
    unfold Float.ofNat
    show Float.ofScientific n false 0 = _
    unfold Float.ofScientific
    rw [dif_pos ⟨h, by norm_num⟩]
    rfl
  have hparts : Binary.ofFloat (Float.ofBits 0x3FF0000000000000) = ⟨false, 2 ^ 52, -52⟩ := by
    decide +kernel
  have hone : Unsigned (Float.ofBits 0x3FF0000000000000) := ⟨by decide +kernel, by rw [hparts]⟩
  have hvalue : value (Float.ofBits 0x3FF0000000000000) = 1 := by
    rw [hone.value_eq, hparts]
    norm_num
  obtain ⟨hn, hnvalue⟩ := toFloat_toUInt64 h
  have hmax : (n : ℚ) < 2 ^ 1023 := lt_two_pow_of_lt (by exact_mod_cast h)
  have hmul := isRoundingOf_mul hn hone (by rwa [hnvalue, hvalue, mul_one])
  rw [hvalue, mul_one, ← hofNat] at hmul
  exact ⟨hmul.toUnsigned, (hmul.isNearest.value_eq ⟨_, hn.finite, rfl⟩).trans hnvalue⟩

end Double

end NoticeLedger

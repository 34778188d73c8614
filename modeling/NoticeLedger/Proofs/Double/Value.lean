import Mathlib
import NoticeLedger.Decimal

/-!
# The numbers that doubles stand for

A finite double stands for the number that its sign, mantissa and exponent give. The arithmetic of
doubles works on an unpacked form; of a finite double it has the same parts, packing and unpacking
do not change it, and the order of doubles is the order of the numbers.
-/

namespace NoticeLedger

open Float.Model (UnpackedFloat)
open Float.Model.UnpackedFloat (Sign unpackMantissa unpackExponent unpackSign packComponents)

/-- The number with the parts of a double. -/
def Binary.value (b : Binary) : ℚ :=
  (if b.negative then -1 else 1) * b.mantissa * 2 ^ b.exponent

namespace Double

/-- The number that a finite double stands for. -/
def value (x : Float) : ℚ :=
  (Binary.ofFloat x).value

/-! ### Mantissas and exponents of doubles -/

/-- A mantissa and an exponent that a double can have: 53 bits, the first of them set unless the
exponent is the least one. -/
structure Fits (m : ℕ) (e : ℤ) : Prop where
  lt : m < 2 ^ 53
  least : -1074 ≤ e
  greatest : e ≤ 971
  full : 2 ^ 52 ≤ m ∨ e = -1074

/-- An unpacked finite double, with the parts it has. -/
inductive Represents : UnpackedFloat → Binary → Prop where
  | zero (s : Sign) : Represents (.zero s) ⟨s == .negative, 0, -1074⟩
  | finite {s : Sign} {m : ℕ} {e : ℤ} {pos : 0 < m} :
      Fits m e → Represents (.finite s m e pos) ⟨s == .negative, m, e⟩

lemma log2_le_of_lt {n : ℕ} (h : n < 2 ^ 53) : n.log2 ≤ 52 := by
  rcases Nat.eq_zero_or_pos n with rfl | hpos
  · simp
  · exact Nat.lt_succ_iff.1 ((Nat.log2_lt hpos.ne').2 h)

/-- With a lesser exponent, a number is below every one that has all of its bits. -/
lemma Fits.lt_of_lt {m : ℕ} {e t : ℤ} (h : Fits m e) (he : e < t) :
    (m : ℚ) * 2 ^ e < 2 ^ 52 * 2 ^ t := by
  have hm : (m : ℚ) < 2 ^ 53 := by exact_mod_cast h.lt
  calc (m : ℚ) * 2 ^ e < 2 ^ 53 * 2 ^ e := by gcongr
    _ = 2 ^ 52 * 2 ^ (e + 1) := by rw [zpow_add₀ two_ne_zero]; ring
    _ ≤ 2 ^ 52 * 2 ^ t := by gcongr <;> [norm_num; omega]

lemma Fits.lt_of_exponent_lt {m m' : ℕ} {e e' : ℤ} (h : Fits m e) (h' : Fits m' e')
    (he : e < e') : (m : ℚ) * 2 ^ e < m' * 2 ^ e' := by
  have hm' : (2 : ℚ) ^ 52 ≤ m' := by
    have := h'.full.resolve_right (by have := h.least; omega)
    exact_mod_cast this
  calc (m : ℚ) * 2 ^ e < 2 ^ 52 * 2 ^ e' := h.lt_of_lt he
    _ ≤ m' * 2 ^ e' := by gcongr

/-- Mantissas and exponents compare as the numbers, the exponents first. -/
lemma Fits.isLE_compare {m m' : ℕ} {e e' : ℤ} (h : Fits m e) (h' : Fits m' e') :
    ((compare e e').then (compare m m')).isLE = true ↔ (m : ℚ) * 2 ^ e ≤ m' * 2 ^ e' := by
  rcases lt_trichotomy e e' with he | rfl | he
  · have : compare e e' = .lt := by rwa [Int.compare_eq_lt]
    simp [this, (h.lt_of_exponent_lt h' he).le]
  · have : (0 : ℚ) < 2 ^ e := by positivity
    simp [Nat.isLE_compare, this]
  · have : compare e e' = .gt := by rwa [Int.compare_eq_gt]
    simp [this, (h'.lt_of_exponent_lt h he)]

/-! ### Unpacking -/

lemma toNat_unpackMantissa (b : BitVec 64) :
    (@unpackMantissa .binary64 b).toNat = b.toNat % 2 ^ 52 := by
  rw [UnpackedFloat.unpackMantissa_def, BitVec.extractLsb'_toNat, Nat.shiftRight_zero]

lemma toNat_unpackExponent (b : BitVec 64) :
    (@unpackExponent .binary64 b).toNat = b.toNat / 2 ^ 52 % 2 ^ 11 := by
  rw [UnpackedFloat.unpackExponent_def, BitVec.extractLsb'_toNat, Nat.shiftRight_eq_div_pow]

lemma toNat_unpackSign (b : BitVec 64) :
    (@unpackSign .binary64 b).toNat = b.toNat / 2 ^ 63 := by
  rw [UnpackedFloat.unpackSign_def, BitVec.extractLsb'_toNat, Nat.shiftRight_eq_div_pow]
  have := b.isLt
  simp only [Float.Model.Format.numBits] at this ⊢
  omega

lemma ofBitVec_unpackSign (b : BitVec 64) :
    (Sign.ofBitVec (@unpackSign .binary64 b) == .negative)
      = (b.toNat / 2 ^ 63 == 1) := by
  rw [← toNat_unpackSign]
  generalize @unpackSign .binary64 b = sign
  revert sign
  decide

lemma toNat_one_append (m : BitVec 52) : (1#1 ++ m).toNat = m.toNat + 2 ^ 52 := by
  have := Nat.two_pow_add_eq_or_of_lt m.isLt 1
  rw [BitVec.toNat_append, BitVec.toNat_ofNat, Nat.shiftLeft_eq, Nat.mul_comm]
  simp only [Nat.mod_eq_of_lt (show 1 < 2 ^ 1 by norm_num), ← this]
  omega

/-- The parts of a finite double, read off the three fields of its bits. -/
lemma represents_unpack_bits {b : BitVec 64}
    (h : (UnpackedFloat.unpack .binary64 b).isFinite = true) :
    Represents (UnpackedFloat.unpack .binary64 b)
      (if (@unpackExponent .binary64 b).toNat = 0 then
        ⟨Sign.ofBitVec (@unpackSign .binary64 b) == .negative,
          (@unpackMantissa .binary64 b).toNat, -1074⟩
      else
        ⟨Sign.ofBitVec (@unpackSign .binary64 b) == .negative,
          (@unpackMantissa .binary64 b).toNat + 2 ^ 52,
          ((@unpackExponent .binary64 b).toNat : ℤ) - 1075⟩) := by
  have hm : (@unpackMantissa .binary64 b).toNat < 2 ^ 52 := BitVec.isLt _
  have he : (@unpackExponent .binary64 b).toNat < 2 ^ 11 := BitVec.isLt _
  revert h
  fun_cases UnpackedFloat.unpack with
  | case1 => simp [UnpackedFloat.isFinite]
  | case2 => simp [UnpackedFloat.isFinite]
  | case3 mantissa exponent _ _ _ hexponent hmantissa =>
    intro _
    have hzero : (@unpackExponent .binary64 b).toNat = 0 := by
      rw [show @unpackExponent .binary64 b = 0#11 from hexponent]; rfl
    have hnone : (@unpackMantissa .binary64 b).toNat = 0 := by
      rw [show @unpackMantissa .binary64 b = 0#52 from hmantissa]; rfl
    rw [if_pos hzero, hnone]
    exact .zero _
  | case4 mantissa exponent e _ _ _ hexponent _ =>
    intro _
    have hzero : (@unpackExponent .binary64 b).toNat = 0 := by
      rw [show @unpackExponent .binary64 b = 0#11 from hexponent]; rfl
    have hleast : e + 1 = -1074 := by
      show ((@unpackExponent .binary64 b).toNat : ℤ) - (1023 + 52) + 1 = -1074
      omega
    rw [if_pos hzero, hleast]
    exact .finite ⟨hm.trans (by norm_num), le_rfl, by norm_num, .inr rfl⟩
  | case5 mantissa exponent e _ _ hfull hexponent =>
    intro _
    have hzero : (@unpackExponent .binary64 b).toNat ≠ 0 :=
      fun h => hexponent (BitVec.eq_of_toNat_eq h)
    have hmax : (@unpackExponent .binary64 b).toNat ≠ 2047 :=
      fun h => hfull (BitVec.eq_of_toNat_eq h)
    have he' : e = ((@unpackExponent .binary64 b).toNat : ℤ) - 1075 := rfl
    have hm' : (1#1 ++ mantissa).toNat = (@unpackMantissa .binary64 b).toNat + 2 ^ 52 :=
      toNat_one_append _
    simp only [if_neg hzero, ← hm', ← he']
    exact .finite ⟨by omega, by omega, by omega, .inl (by omega)⟩

/-- A finite double is unpacked into its parts. -/
theorem represents_unpack {x : Float} (h : x.isFinite = true) :
    Represents x.toModel.unpack (Binary.ofFloat x) := by
  obtain ⟨⟨⟨b⟩, valid⟩⟩ := x
  have hparts : Binary.ofFloat ⟨⟨⟨b⟩, valid⟩⟩ =
      if b.toNat / 2 ^ 52 % 2 ^ 11 = 0 then ⟨b.toNat / 2 ^ 63 == 1, b.toNat % 2 ^ 52, -1074⟩
      else ⟨b.toNat / 2 ^ 63 == 1, b.toNat % 2 ^ 52 + 2 ^ 52,
        ((b.toNat / 2 ^ 52 % 2 ^ 11 : ℕ) : ℤ) - 1075⟩ := rfl
  rw [hparts, ← toNat_unpackMantissa, ← toNat_unpackExponent, ← ofBitVec_unpackSign]
  exact represents_unpack_bits h

/-- The parts of a finite double are those that a double can have. -/
lemma fits_ofFloat {x : Float} (h : x.isFinite = true) :
    Fits (Binary.ofFloat x).mantissa (Binary.ofFloat x).exponent := by
  have hrep := represents_unpack h
  generalize x.toModel.unpack = u, Binary.ofFloat x = b at hrep
  cases hrep with
  | zero s => exact ⟨by norm_num, le_rfl, by norm_num, .inr rfl⟩
  | finite hfits => exact hfits

/-! ### Packing -/

lemma Fits.log2_eq {m : ℕ} {e : ℤ} (h : Fits m e) (hm : 2 ^ 52 ≤ m) : m.log2 = 52 :=
  (Nat.log2_eq_iff (by omega)).2 ⟨hm, h.lt⟩

/-- A finite double with 53 bits is packed without the first of them. -/
lemma pack_of_full {s : Sign} {m : ℕ} {e : ℤ} {pos : 0 < m} (h : Fits m e) (hm : 2 ^ 52 ≤ m) :
    UnpackedFloat.pack .binary64 (.finite s m e pos) =
      packComponents .binary64 s (BitVec.ofNat 11 (e + 1075).toNat) (BitVec.ofNat 52 m) := by
  have hbias : e + (Float.Model.Format.exponentBias .binary64 : ℤ) + (52 : ℕ) = e + 1075 := by
    show e + 1023 + 52 = e + 1075
    ring
  have hgreatest := h.greatest
  unfold UnpackedFloat.pack
  simp only [hbias]
  rw [if_neg (by omega), if_pos (by rw [h.log2_eq hm]; rfl)]

/-- One with fewer bits has the exponent zero. -/
lemma pack_of_lt {s : Sign} {m : ℕ} {pos : 0 < m} (hm : m < 2 ^ 52) :
    UnpackedFloat.pack .binary64 (.finite s m (-1074) pos) =
      packComponents .binary64 s 0#11 (BitVec.ofNat 52 m) := by
  have hlog : m.log2 + 1 ≠ Float.Model.Format.mantissaBits .binary64 :=
    fun h => absurd ((Nat.log2_lt pos.ne').2 hm) (Nat.succ_injective h).not_lt
  unfold UnpackedFloat.pack
  simp only [if_neg hlog]
  rfl

lemma unpack_packComponents_of_normal {s : Sign} {exponent : BitVec 11} {mantissa : BitVec 52}
    (hzero : exponent ≠ 0#11) (hfull : exponent ≠ -1#11) :
    UnpackedFloat.unpack .binary64 (packComponents .binary64 s exponent mantissa) =
      .finite s (mantissa.toNat + 2 ^ 52) ((exponent.toNat : ℤ) - 1075) (by omega) := by
  unfold UnpackedFloat.unpack
  simp only [UnpackedFloat.unpackExponent_packComponents,
    UnpackedFloat.unpackMantissa_packComponents, UnpackedFloat.unpackSign_packComponents,
    Sign.ofBitVec_toBitVec]
  rw [if_neg hfull, if_neg hzero]
  simp only [toNat_one_append]
  rfl

lemma unpack_packComponents_of_subnormal {s : Sign} {mantissa : BitVec 52}
    (hsome : 0 < mantissa.toNat) :
    UnpackedFloat.unpack .binary64 (packComponents .binary64 s 0#11 mantissa) =
      .finite s mantissa.toNat (-1074) hsome := by
  have hmantissa : mantissa ≠ 0#52 := by rintro rfl; simp at hsome
  unfold UnpackedFloat.unpack
  simp only [UnpackedFloat.unpackExponent_packComponents,
    UnpackedFloat.unpackMantissa_packComponents, UnpackedFloat.unpackSign_packComponents,
    Sign.ofBitVec_toBitVec]
  rw [if_neg (by decide), if_pos trivial, dif_neg hmantissa]
  rfl

/-- Packing keeps an unpacked finite double. -/
lemma unpack_pack {u : UnpackedFloat} {b : Binary} (h : Represents u b) :
    UnpackedFloat.unpack .binary64 (UnpackedFloat.pack .binary64 u) = u := by
  cases h with
  | zero s => exact UnpackedFloat.unpack_packedZero
  | @finite s m e pos h =>
    have hlt := h.lt
    have hleast := h.least
    have hgreatest := h.greatest
    rcases le_or_gt (2 ^ 52) m with hm | hm
    · have hexponent : (BitVec.ofNat 11 (e + 1075).toNat).toNat = (e + 1075).toNat := by
        rw [BitVec.toNat_ofNat, Nat.mod_eq_of_lt (by omega)]
      have hmantissa : (BitVec.ofNat 52 m).toNat + 2 ^ 52 = m := by
        rw [BitVec.toNat_ofNat]
        omega
      have hne {n : ℕ} (hn : (e + 1075).toNat ≠ n % 2 ^ 11) :
          BitVec.ofNat 11 (e + 1075).toNat ≠ BitVec.ofNat 11 n := by
        intro heq
        exact hn (by rw [← hexponent, heq, BitVec.toNat_ofNat])
      rw [pack_of_full h hm, unpack_packComponents_of_normal (hne (by omega))
        (hne (n := 2047) (by omega))]
      simp only [hexponent, hmantissa]
      congr 1
      omega
    · obtain rfl : e = -1074 := h.full.resolve_left (by omega)
      have hmantissa : (BitVec.ofNat 52 m).toNat = m := by
        rw [BitVec.toNat_ofNat, Nat.mod_eq_of_lt (by omega)]
      rw [pack_of_lt hm, unpack_packComponents_of_subnormal (by omega)]
      simp only [hmantissa]

lemma Represents.isFinite {u : UnpackedFloat} {b : Binary} (h : Represents u b) :
    u.isFinite = true := by
  cases h <;> rfl

lemma Represents.unique {u : UnpackedFloat} {b c : Binary} (hb : Represents u b)
    (hc : Represents u c) : b = c := by
  cases hb <;> cases hc <;> rfl

/-- A double that is packed from parts is finite and has those parts. -/
theorem ofFloat_pack {u : UnpackedFloat} {b : Binary} (h : Represents u b) :
    (Float.ofModel (Float.Model.pack u)).isFinite = true ∧
      Binary.ofFloat (Float.ofModel (Float.Model.pack u)) = b := by
  have hu : (Float.ofModel (Float.Model.pack u)).toModel.unpack = u := unpack_pack h
  have hfinite : (Float.ofModel (Float.Model.pack u)).isFinite = true := by
    show (Float.ofModel (Float.Model.pack u)).toModel.unpack.isFinite = true
    rw [hu]
    exact h.isFinite
  refine ⟨hfinite, Represents.unique ?_ h⟩
  simpa only [hu] using represents_unpack hfinite

/-! ### The order -/

/-- Mantissas and exponents of negative doubles compare the other way. -/
lemma Fits.isGE_compare {m m' : ℕ} {e e' : ℤ} (h : Fits m e) (h' : Fits m' e') :
    ((compare e e').then (compare m m')).isGE = true ↔ (m' : ℚ) * 2 ^ e' ≤ m * 2 ^ e := by
  rw [← Ordering.isLE_swap, Ordering.swap_then, Int.compare_swap, Nat.compare_swap,
    h'.isLE_compare h]

lemma Represents.le_iff {u v : UnpackedFloat} {b c : Binary} (hu : Represents u b)
    (hv : Represents v c) : u.le v = true ↔ b.value ≤ c.value := by
  have hpos {m : ℕ} (e : ℤ) (hm : 0 < m) : (0 : ℚ) < m * 2 ^ e := by positivity
  cases hu with
  | zero s =>
    cases hv with
    | zero s' => simp [UnpackedFloat.le, UnpackedFloat.compare, Binary.value]
    | @finite s' m e pos h =>
      have := hpos e pos
      cases s' <;> simp [UnpackedFloat.le, UnpackedFloat.compare, Binary.value, this, this.le]
  | @finite s m e pos h =>
    have hq := hpos e pos
    cases hv with
    | zero s' =>
      cases s <;> simp [UnpackedFloat.le, UnpackedFloat.compare, Binary.value, hq, hq.le]
    | @finite s' m' e' pos' h' =>
      have hq' := hpos e' pos'
      cases s <;> cases s'
      · simp [UnpackedFloat.le, UnpackedFloat.compare, Binary.value, h.isGE_compare h']
      · have : -(m * 2 ^ e : ℚ) ≤ m' * 2 ^ e' := by linarith
        simpa [UnpackedFloat.le, UnpackedFloat.compare, Binary.value] using this
      · have : -(m' * 2 ^ e' : ℚ) < m * 2 ^ e := by linarith
        simpa [UnpackedFloat.le, UnpackedFloat.compare, Binary.value] using this
      · simp [UnpackedFloat.le, UnpackedFloat.compare, Binary.value, h.isLE_compare h']

/-- The order of finite doubles is the order of their numbers. -/
theorem le_iff_value_le {x y : Float} (hx : x.isFinite = true) (hy : y.isFinite = true) :
    x ≤ y ↔ value x ≤ value y := by
  have hle : x ≤ y ↔ x.toModel.unpack.le y.toModel.unpack = true := by
    show decide (x.toModel ≤ y.toModel) = true ↔ _
    rw [decide_eq_true_iff]
    rfl
  rw [hle]
  exact (represents_unpack hx).le_iff (represents_unpack hy)

end Double

end NoticeLedger

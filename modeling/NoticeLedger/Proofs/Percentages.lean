import NoticeLedger.Acceptance
import NoticeLedger.Proofs.Double.Arithmetic

/-!
# The percentage and its threshold

The percentage of datasets with new errors is rounded twice, after the division and after the
multiplication, and the rounded number is compared with the threshold. So the verdict is the one
on the exact percentage where nothing is rounded, or where the exact percentage and the threshold
are farther apart than both roundings reach. At the threshold itself a rounding can turn the
verdict.
-/

namespace NoticeLedger

open Double (value IsNearest IsRoundingOf IsDouble)

/-! ### The exact percentage -/

/-- How many datasets have new errors. -/
def Datasets.flaggedCount (ds : Datasets) : ℕ :=
  (ds.filter (·.2.hasNewErrors)).length

/-- Which share of the datasets has new errors. -/
def Datasets.share (ds : Datasets) : ℚ :=
  ds.flaggedCount / ds.length

/-- Neither a share nor the percentage it is has to be rounded. -/
def Unrounded (q : ℚ) : Prop :=
  IsDouble q ∧ IsDouble (100 * q)

/-- The percentage of a share is away from a threshold by at least one part in `2 ^ 51`. -/
def Apart (q t : ℚ) : Prop :=
  100 * q ≤ 2 ^ 51 * |t - 100 * q|

lemma Datasets.flaggedCount_le (ds : Datasets) : ds.flaggedCount ≤ ds.length :=
  List.length_filter_le _ _

lemma Datasets.hundred_mul_share_le_iff {ds : Datasets} (hds : ds ≠ []) {t : ℚ} :
    100 * ds.share ≤ t ↔ 100 * ds.flaggedCount ≤ t * ds.length := by
  have hn : (0 : ℚ) < ds.length := by exact_mod_cast List.length_pos_iff.2 hds
  rw [share, ← mul_div_assoc, div_le_iff₀ hn]

/-- The share is no lesser number than one over the number of datasets, unless it is zero. -/
lemma Datasets.share_eq_zero_or_le {ds : Datasets} (hsize : ds.length < 2 ^ 53) :
    ds.share = 0 ∨ 1 / 2 ^ 53 ≤ ds.share := by
  unfold share
  rcases Nat.eq_zero_or_pos ds.flaggedCount with hnone | hsome
  · simp [hnone]
  · right
    have hpos : (0 : ℚ) < ds.length := by exact_mod_cast hsome.trans_le ds.flaggedCount_le
    have : (1 : ℚ) ≤ ds.flaggedCount := by exact_mod_cast hsome
    have : (ds.length : ℚ) ≤ 2 ^ 53 := by exact_mod_cast hsize.le
    gcongr

lemma unrounded_zero : Unrounded 0 := by
  obtain ⟨hunsigned, hvalue⟩ := Double.ofNat_exact (n := 0) (by norm_num)
  have hzero : IsDouble 0 := ⟨_, hunsigned.finite, by rw [hvalue, Nat.cast_zero]⟩
  exact ⟨hzero, by rwa [mul_zero]⟩

namespace Acceptance

/-! ### The rounded percentage -/

/-- The percentage that a count is of another one is a share, rounded, times a hundred, rounded
again. -/
lemma exists_isRoundingOf_percentOf {part whole : ℕ} (hle : part ≤ whole) (hpos : 0 < whole)
    (hsize : whole < 2 ^ 53) :
    ∃ share, IsRoundingOf share (part / whole) ∧
      IsRoundingOf (percentOf part whole) (100 * value share) := by
  obtain ⟨hpart, hpartValue⟩ := Double.ofNat_exact (hle.trans_lt hsize)
  obtain ⟨hwhole, hwholeValue⟩ := Double.ofNat_exact hsize
  obtain ⟨hhundred, hhundredValue⟩ := Double.ofNat_exact (n := 100) (by norm_num)
  obtain ⟨hone, honeValue⟩ := Double.ofNat_exact (n := 1) (by norm_num)
  have hwholePos : (0 : ℚ) < whole := by exact_mod_cast hpos
  have hquotient : (part / whole : ℚ) ≤ 1 := by
    rw [div_le_one hwholePos]
    exact_mod_cast hle
  have hbound : (part / whole : ℚ) < 2 ^ 1023 :=
    Double.lt_two_pow_of_lt (hquotient.trans_lt (by norm_num))
  have hshare : IsRoundingOf (Float.ofNat part / Float.ofNat whole) (part / whole) := by
    have := Double.isRoundingOf_div hpart hwhole (by rwa [hwholeValue])
      (by rwa [hpartValue, hwholeValue])
    rwa [hpartValue, hwholeValue] at this
  have hmost : value (Float.ofNat part / Float.ofNat whole) ≤ 1 := by
    have := hshare.isNearest.value_le hone.finite (by rwa [honeValue, Nat.cast_one])
    rwa [honeValue, Nat.cast_one] at this
  refine ⟨_, hshare, ?_⟩
  have hproduct : value (Float.ofNat part / Float.ofNat whole) * 100 < 2 ^ 1023 :=
    Double.lt_two_pow_of_lt (by linarith)
  have := Double.isRoundingOf_mul hshare.toUnsigned hhundred
    (by rwa [hhundredValue, Nat.cast_ofNat])
  rw [hhundredValue, Nat.cast_ofNat, mul_comm] at this
  unfold percentOf
  rwa [if_neg hpos.ne']

section Comparison

variable {share percent : Float} {q t : ℚ}

/-- Away from zero, both roundings together change the percentage by less than one part in
`2 ^ 51`. -/
lemma abs_percent_sub_lt (hq : 1 / 2 ^ 53 ≤ q) (hshare : IsRoundingOf share q)
    (hpercent : IsRoundingOf percent (100 * value share)) :
    |value percent - 100 * q| < 100 * q / 2 ^ 51 := by
  have hleast : (2 : ℚ) ^ (-1022 : ℤ) ≤ 1 / 2 ^ 53 := by
    rw [zpow_neg, ← one_div]
    refine one_div_le_one_div_of_le (by positivity) ?_
    exact_mod_cast pow_le_pow_right₀ one_le_two (by norm_num)
  have hshareError := hshare.abs_sub_le (hleast.trans hq)
  rw [abs_le] at hshareError
  have hpercentError := hpercent.abs_sub_le (by linarith)
  rw [abs_le] at hpercentError
  rw [abs_lt]
  constructor <;> linarith

/-- A comparison does not depend on an error that is smaller than the distance. -/
lemma le_iff_le_of_error_lt {p y : ℚ} (h : |p - y| < |t - y|) : p ≤ t ↔ y ≤ t := by
  rcases le_or_gt y t with hle | hgt
  · rw [abs_of_nonneg (sub_nonneg.2 hle), abs_lt] at h
    exact iff_of_true (by linarith) hle
  · rw [abs_of_neg (sub_neg.2 hgt), abs_lt] at h
    exact iff_of_false (by linarith) (not_le.2 hgt)

/-- If neither number has to be rounded, the percentage is the exact one. -/
lemma value_percent_of_unrounded (hshare : IsNearest share q)
    (hpercent : IsNearest percent (100 * value share)) (h : Unrounded q) :
    value percent = 100 * q := by
  rw [hshare.value_eq h.1] at hpercent
  exact hpercent.value_eq h.2

/-- A comparison with the percentage is one with the exact percentage, where that is away from the
threshold or nothing is rounded. -/
lemma value_percent_le_iff (hq : q = 0 ∨ 1 / 2 ^ 53 ≤ q) (hshare : IsRoundingOf share q)
    (hpercent : IsRoundingOf percent (100 * value share)) (h : Unrounded q ∨ Apart q t) :
    value percent ≤ t ↔ 100 * q ≤ t := by
  rcases hq with rfl | hq
  · rw [value_percent_of_unrounded hshare.isNearest hpercent.isNearest unrounded_zero]
  rcases h with hunrounded | hapart
  · rw [value_percent_of_unrounded hshare.isNearest hpercent.isNearest hunrounded]
  · refine le_iff_le_of_error_lt ((abs_percent_sub_lt hq hshare hpercent).trans_le ?_)
    rw [div_le_iff₀' (by positivity)]
    exact hapart

end Comparison

/-! ### The verdict -/

lemma ofDiffs?_of_isThreshold (ds : Datasets) {t : Float} (ht : isThreshold t = true) :
    ∃ a, ofDiffs? ds t = some a ∧ a.percent = percentOf ds.flaggedCount ds.length ∧
      a.threshold = t := by
  unfold ofDiffs?
  rw [if_pos ht]
  exact ⟨_, rfl, rfl, rfl⟩

/-- Every threshold gives a verdict, namely whether the percentage is at most the threshold, once
the share of the datasets with new errors has been rounded and the percentage as well. If the share
need not be rounded, an exact percentage that is the threshold or less passes; and the verdict is
the one on the exact percentage if neither number has to be rounded, or if the exact percentage is
away from the threshold. -/
theorem exists_verdict {ds : Datasets} {t : Float} (hds : ds ≠ []) (hsize : ds.length < 2 ^ 53)
    (ht : isThreshold t = true) :
    ∃ a share, ofDiffs? ds t = some a ∧
      IsNearest share ds.share ∧ IsNearest a.percent (100 * value share) ∧
      (a.passed = true ↔ value a.percent ≤ value t) ∧
      (IsDouble ds.share → 100 * ds.flaggedCount ≤ value t * ds.length → a.passed = true) ∧
      (Unrounded ds.share ∨ Apart ds.share (value t) →
        (a.passed = true ↔ 100 * ds.flaggedCount ≤ value t * ds.length)) := by
  have hpos : 0 < ds.length := List.length_pos_iff.2 hds
  have hfinite : t.isFinite = true := by
    simp only [isThreshold, Bool.and_eq_true] at ht
    exact ht.1.1
  obtain ⟨a, ha, hpercent, hthreshold⟩ := ofDiffs?_of_isThreshold ds ht
  obtain ⟨share, hshare, hrounded⟩ := exists_isRoundingOf_percentOf ds.flaggedCount_le hpos hsize
  rw [← hpercent] at hrounded
  have hpassed : a.passed = true ↔ value a.percent ≤ value t := by
    unfold passed
    rw [decide_eq_true_iff, hthreshold]
    exact Double.le_iff_value_le hrounded.finite hfinite
  refine ⟨a, share, ha, hshare.isNearest, hrounded.isNearest, hpassed, fun hdouble hle => ?_,
    fun h => ?_⟩
  · rw [← Datasets.hundred_mul_share_le_iff hds] at hle
    rw [hpassed]
    refine hrounded.isNearest.value_le hfinite ?_
    rwa [hshare.isNearest.value_eq hdouble]
  · rw [hpassed, ← Datasets.hundred_mul_share_le_iff hds]
    exact value_percent_le_iff (Datasets.share_eq_zero_or_le hsize) hshare hrounded h

/-- As many datasets as given, the first ones with a new error. -/
def flagging (part whole : ℕ) : Datasets :=
  (List.range whole).map fun i => (toString i, ⟨if i < part then ["E"] else [], []⟩)

lemma value_natLiteral {n : ℕ} (h : n < 2 ^ 53) : value (OfNat.ofNat n) = n :=
  (Double.ofNat_exact h).2

/-- A threshold is a finite number between zero and one hundred. -/
theorem isThreshold_iff {t : Float} :
    isThreshold t = true ↔ t.isFinite = true ∧ 0 ≤ value t ∧ value t ≤ 100 := by
  have hzero : (0 : Float).isFinite = true ∧ value 0 = 0 := by
    refine ⟨by decide +kernel, ?_⟩
    exact_mod_cast value_natLiteral (n := 0) (by norm_num)
  have hhundred : (100 : Float).isFinite = true ∧ value 100 = 100 := by
    refine ⟨by decide +kernel, ?_⟩
    exact_mod_cast value_natLiteral (n := 100) (by norm_num)
  simp only [isThreshold, Bool.and_eq_true, decide_eq_true_eq, and_assoc]
  refine and_congr_right fun hfinite => ?_
  rw [Double.le_iff_value_le hzero.1 hfinite, Double.le_iff_value_le hfinite hhundred.1, hzero.2,
    hhundred.2]

/-- One of four datasets is 25 percent exactly, which passes. -/
theorem verdict_quarter :
    ∃ a, ofDiffs? (flagging 1 4) 25 = some a ∧ a.passed = true := by
  obtain ⟨a, share, ha, -, -, -, -, hexact⟩ := exists_verdict (t := 25)
    (show flagging 1 4 ≠ [] by decide) (by decide +kernel) (by decide +kernel)
  have hcounts : (flagging 1 4).flaggedCount = 1 ∧ (flagging 1 4).length = 4 := by decide +kernel
  have ht : value 25 = 25 := by exact_mod_cast value_natLiteral (n := 25) (by norm_num)
  have hparts : Binary.ofFloat 0.25 = ⟨false, 2 ^ 52, -54⟩ := by decide +kernel
  rw [Datasets.share, hcounts.1, hcounts.2, ht] at hexact
  refine ⟨a, ha, (hexact (.inl ⟨⟨0.25, by decide +kernel, ?_⟩, ⟨25, by decide +kernel, ?_⟩⟩)).2 ?_⟩
  · rw [value, hparts, Binary.value]
    norm_num
  · rw [ht]
    norm_num
  · norm_num

/-- At the threshold the verdict is not the one on the exact percentage. Eleven of twenty datasets
are 55 percent exactly, but the percentage is rounded up and refused; one of three datasets is
more than a threshold that the percentage is rounded down to, and passes. -/
theorem verdict_rounded :
    (100 * (flagging 11 20).flaggedCount ≤ value 55 * (flagging 11 20).length ∧
      (ofDiffs? (flagging 11 20) 55).map passed = some false) ∧
    (value 33.33333333333333 * (flagging 1 3).length < 100 * (flagging 1 3).flaggedCount ∧
      (ofDiffs? (flagging 1 3) 33.33333333333333).map passed = some true) := by
  have heleven : (flagging 11 20).flaggedCount = 11 ∧ (flagging 11 20).length = 20 := by
    decide +kernel
  have hone : (flagging 1 3).flaggedCount = 1 ∧ (flagging 1 3).length = 3 := by decide +kernel
  have hparts : Binary.ofFloat 33.33333333333333 = ⟨false, 4691249611844266, -47⟩ := by
    decide +kernel
  have ht : value 55 = 55 := by exact_mod_cast value_natLiteral (n := 55) (by norm_num)
  rw [heleven.1, heleven.2, hone.1, hone.2, ht, value, hparts, Binary.value]
  exact ⟨⟨by norm_num, by decide +kernel⟩, ⟨by norm_num, by decide +kernel⟩⟩

end Acceptance

end NoticeLedger

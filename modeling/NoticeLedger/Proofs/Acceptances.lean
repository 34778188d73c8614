import Mathlib.Algebra.BigOperators.Group.List.Lemmas
import NoticeLedger.Proofs.CodeCounts
import NoticeLedger.Proofs.Percentages

/-!
# All that a verdict tells

A verdict on datasets tells how many there are, which of them have new errors, and how often each
code is new once NUL characters are dropped at its end (`Acceptance.TellsOf`). It is given for every
percentage as the threshold, and nothing but the new codes of each dataset counts: neither the order
of the datasets nor the resolved codes (`Acceptance.ofValue_tells`).
-/

namespace NoticeLedger

open Double (value)

/-! ### New codes -/

namespace Datasets

/-- The same datasets have the same new codes, in whichever order they stand and whatever has been
resolved. -/
def SameGains (ds es : Datasets) : Prop :=
  (ds.map fun e => (e.1, e.2.newErrors)).Perm (es.map fun e => (e.1, e.2.newErrors))

/-- The datasets as if nothing had been resolved. -/
def withoutResolved (ds : Datasets) : Datasets :=
  ds.map fun e => (e.1, ⟨e.2.newErrors, []⟩)

theorem SameGains.perm_withoutResolved {ds es : Datasets} (h : ds.SameGains es) :
    ds.withoutResolved.Perm es.withoutResolved := by
  have hperm := h.map fun e => (e.1, Diff.mk e.2 [])
  rwa [List.map_map, List.map_map] at hperm

end Datasets

namespace Acceptance

variable {ds es : Datasets} {t : Float} {a : Acceptance} {code short : String}

/-- The verdict does not look at what has been resolved. -/
theorem ofDiffs?_withoutResolved (ds : Datasets) (t : Float) :
    ofDiffs? ds.withoutResolved t = ofDiffs? ds t := by
  have hflagged : ds.withoutResolved.filter (·.2.hasNewErrors)
      = Datasets.withoutResolved (ds.filter (·.2.hasNewErrors)) :=
    List.filter_map
  have hcodes : ds.withoutResolved.flatMap (·.2.newErrors) = ds.flatMap (·.2.newErrors) :=
    List.flatMap_map ..
  have hids : ∀ es : Datasets, es.withoutResolved.map (·.1) = es.map (·.1) := fun _ =>
    List.map_map
  have hlength : ∀ es : Datasets, es.withoutResolved.length = es.length := fun _ =>
    List.length_map ..
  simp only [ofDiffs?, hflagged, hcodes, hids, hlength]

theorem ofDiffs?_eq_of_sameGains (h : ds.SameGains es) (t : Float) :
    ofDiffs? ds t = ofDiffs? es t := by
  rw [← ofDiffs?_withoutResolved ds, ← ofDiffs?_withoutResolved es]
  exact ofDiffs?_eq_of_perm h.perm_withoutResolved t

/-! ### Shortened codes -/

/-- The short code is left of a code once the NUL characters at its end are dropped. -/
def Shortens (code short : String) : Prop :=
  ¬EndsInNul short ∧ ∃ k, code.toList = short.toList ++ List.replicate k '\x00'

theorem rdropWhile_append_replicate (cs : List Char) (k : Nat) :
    (cs ++ List.replicate k '\x00').rdropWhile (· == '\x00')
      = cs.rdropWhile (· == '\x00') := by
  induction k with
  | zero => rw [List.replicate_zero, List.append_nil]
  | succ k ih =>
    rw [List.replicate_succ', ← List.append_assoc, List.rdropWhile_concat_pos _ _ _ rfl, ih]

theorem shortens_iff : Shortens code short ↔ dropNuls code = short := by
  constructor
  · rintro ⟨hends, k, hcode⟩
    rw [dropNuls_eq, hcode, rdropWhile_append_replicate, ← dropNuls_eq]
    exact dropNuls_eq_self_iff.mpr hends
  · rintro rfl
    refine ⟨not_endsInNul_dropNuls code, (code.toList.rtakeWhile (· == '\x00')).length, ?_⟩
    have hnuls : code.toList.rtakeWhile (· == '\x00')
        = List.replicate (code.toList.rtakeWhile (· == '\x00')).length '\x00' := by
      apply List.eq_replicate_of_mem
      intro c hc
      have hnul := List.mem_rtakeWhile_imp hc
      exact eq_of_beq hnul
    rw [← hnuls, dropNuls_eq, String.toList_ofList, List.rdropWhile_append_rtakeWhile]

instance (code short : String) : Decidable (Shortens code short) :=
  decidable_of_iff (dropNuls code = short) shortens_iff.symm

/-! ### Counts -/

theorem ascends_keys_countEach (ss : List String) : Ascends ((countEach ss).map (·.1)) := by
  rw [keys_countEach]
  exact ascends_sortStrings (nodup_distinct ss)

/-- Each string is counted as often as it is there. -/
theorem sum_countEach (ss : List String) : ((countEach ss).map (·.2)).sum = ss.length := by
  have hdistinct : (sortStrings (distinct ss)).Perm ss.dedup := by
    refine (sortStrings_perm _).trans ?_
    refine (List.perm_ext_iff_of_nodup (nodup_distinct ss) ss.nodup_dedup).mpr fun s => ?_
    rw [mem_distinct, List.mem_dedup]
  rw [countEach, List.map_map, ← List.sum_map_count_dedup_eq_length ss]
  exact (hdistinct.map _).sum_nat

/-! ### Verdicts -/

/-- The verdict tells of all datasets. -/
structure TellsOf (a : Acceptance) (ds : Datasets) : Prop where
  datasetCount : a.datasetCount = ds.length
  ascends_flagged : Ascends a.flagged
  mem_flagged : ∀ id, id ∈ a.flagged ↔ ∃ d, (id, d) ∈ ds ∧ d.newErrors ≠ []
  percent : a.percent = percentOf a.flagged.length a.datasetCount
  ascends_codes : Ascends (a.codeCounts.map (·.1))
  mem_codes : ∀ short, short ∈ a.codeCounts.map (·.1) ↔
    ∃ e ∈ ds, ∃ code ∈ e.2.newErrors, Shortens code short
  count_eq : ∀ short n, (short, n) ∈ a.codeCounts →
    n = (ds.map fun e => e.2.newErrors.countP fun code => Shortens code short).sum
  sum_counts : (a.codeCounts.map (·.2)).sum = (ds.map fun e => e.2.newErrors.length).sum

theorem tellsOf_of_ofDiffs? (hds : ds.IsKeyed) (h : ofDiffs? ds t = some a) : a.TellsOf ds := by
  have hcounts : ∀ short n, (short, n) ∈ a.codeCounts ↔ 0 < n ∧ n = ds.shortenedCount short :=
    fun _ _ => mem_codeCounts_iff h
  rw [ofDiffs?] at h
  split at h
  · obtain rfl := Option.some.inj h
    constructor
    case datasetCount => rfl
    case ascends_flagged =>
      apply ascends_sortStrings
      exact hds.sublist (List.filter_sublist.map _)
    case mem_flagged =>
      intro id
      simp [Diff.hasNewErrors]
    case percent =>
      rw [(sortStrings_perm _).length_eq, List.length_map]
    case ascends_codes => exact ascends_keys_countEach _
    case mem_codes =>
      intro short
      simp only [keys_countEach, mem_sortStrings, mem_distinct, List.mem_map, List.mem_flatMap,
        shortens_iff]
      constructor
      · rintro ⟨code, ⟨e, he, hcode⟩, hshort⟩
        exact ⟨e, he, code, hcode, hshort⟩
      · rintro ⟨e, he, code, hcode, hshort⟩
        exact ⟨code, ⟨e, he, hcode⟩, hshort⟩
    case count_eq =>
      intro short n hn
      rw [((hcounts short n).mp hn).2, Datasets.shortenedCount]
      simp only [shortens_iff, beq_eq_decide]
    case sum_counts =>
      rw [sum_countEach, List.length_map, List.length_flatMap]
  · cases h

theorem ofValue_float (ds : Datasets) (t : Float) :
    ofValue ds (.float t) = (ofDiffs? ds t).elim (.error .notPercentage) .ok := by
  cases h : ofDiffs? ds t with
  | none   => simp [ofValue, doubleOf, h, bind, Except.bind, throw, throwThe, MonadExceptOf.throw]
  | some a => simp [ofValue, doubleOf, h, bind, Except.bind, pure, Except.pure]

theorem ofValue_float_eq_ok_iff : ofValue ds (.float t) = .ok a ↔ ofDiffs? ds t = some a := by
  rw [ofValue_float]
  cases ofDiffs? ds t <;> simp

theorem exists_ofValue_float_error_iff :
    (∃ fault, ofValue ds (.float t) = .error fault) ↔ ¬isThreshold t = true := by
  rw [ofValue_float, ofDiffs?]
  by_cases ht : isThreshold t = true <;> simp [ht]

/-- A double as the threshold is refused exactly if it is not finite or no percentage. Otherwise the
verdict tells of all datasets, and it is the same for datasets with the same new codes. -/
theorem ofValue_tells {ds : Datasets} (hds : ds.IsKeyed) (t : Float) :
    ((∃ fault, ofValue ds (.float t) = .error fault) ↔
      ¬(t.isFinite = true ∧ 0 ≤ value t ∧ value t ≤ 100)) ∧
    (∀ a, ofValue ds (.float t) = .ok a → a.TellsOf ds) ∧
    ∀ es : Datasets, es.SameGains ds → ofValue es (.float t) = ofValue ds (.float t) := by
  refine ⟨?_, fun a ha => ?_, fun es hes => ?_⟩
  · rw [exists_ofValue_float_error_iff, isThreshold_iff]
  · exact tellsOf_of_ofDiffs? hds (ofValue_float_eq_ok_iff.mp ha)
  · rw [ofValue_float, ofValue_float, ofDiffs?_eq_of_sameGains hes]

/-- Datasets that gain codes which differ only by NUL characters at their ends, one dataset two of
them. -/
def padded : Datasets :=
  [("south", ⟨["B", "A\x00", "A"], ["Z"]⟩), ("north", ⟨[], ["A"]⟩), ("east", ⟨["A\x00\x00"], []⟩)]

/-- The same datasets in another order, with nothing resolved. -/
def paddedAgain : Datasets :=
  [("east", ⟨["A\x00\x00"], []⟩), ("south", ⟨["B", "A\x00", "A"], []⟩), ("north", ⟨[], []⟩)]

theorem ofValue_tells_padded :
    ∃ a, ofValue padded (.float 50) = .ok a ∧ a.flagged = ["east", "south"] ∧
      ("A", 3) ∈ a.codeCounts ∧ ("B", 1) ∈ a.codeCounts ∧
      (a.codeCounts.map (·.2)).sum = 4 ∧ ofValue paddedAgain (.float 50) = .ok a := by
  have hkeyed : padded.IsKeyed := show (padded.map (·.1)).Nodup by decide
  have hsame : paddedAgain.SameGains padded := show List.Perm _ _ by decide
  obtain ⟨-, htells, hagain⟩ := ofValue_tells hkeyed 50
  obtain ⟨a, ha, -⟩ := exists_ofDiffs?_of_perm (.refl padded)
    (show isThreshold 50 = true by decide +kernel)
  rw [← ofValue_float_eq_ok_iff] at ha
  have h := htells a ha
  have hflagged : a.flagged = ["east", "south"] := by
    refine h.ascends_flagged.eq_of_mem_iff (by decide) fun id => ?_
    simp [h.mem_flagged, padded, or_and_right, exists_or, or_comm]
  have hcounted : ∀ short n, (∃ e ∈ padded, ∃ code ∈ e.2.newErrors, Shortens code short) →
      (padded.map fun e => e.2.newErrors.countP fun code => Shortens code short).sum = n →
      (short, n) ∈ a.codeCounts := by
    rintro short n hshort rfl
    obtain ⟨⟨_, n⟩, hn, rfl⟩ := List.mem_map.mp ((h.mem_codes short).mpr hshort)
    exact h.count_eq _ n hn ▸ hn
  refine ⟨a, ha, hflagged, ?_, ?_, h.sum_counts.trans (by decide), ?_⟩
  · exact hcounted _ _ (by decide) (by decide)
  · exact hcounted _ _ (by decide) (by decide)
  · rw [hagain _ hsame, ha]

end Acceptance

end NoticeLedger

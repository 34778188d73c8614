import Mathlib.Data.List.DropRight
import NoticeLedger.Proofs.Datasets
import NoticeLedger.Proofs.GroupDocuments

/-!
# In how many datasets a code is new

A verdict counts the new codes of all datasets after NUL characters have been dropped at their ends
(`Acceptance.mem_codeCounts_iff`). A comparison lists no code twice, so the number of a code is the
number of the datasets in which it is new, unless some code does end in NUL: that code has no
number, and another one may have too great a number (`Acceptance.countsDatasets_iff`).
-/

namespace NoticeLedger

/-! ### Codes of datasets -/

namespace Datasets

/-- Every difference comes from a comparison of two reports. -/
def AreCompared (ds : Datasets) : Prop :=
  ∀ e ∈ ds, ∃ baseline candidate : Report, e.2 = Diff.between baseline candidate

/-- In how many datasets a code is new. -/
def gainCount (ds : Datasets) (code : String) : Nat :=
  ds.countP fun e => e.2.newErrors.contains code

/-- How often, over all datasets, a new code is the given one once NUL characters are dropped. -/
def shortenedCount (ds : Datasets) (code : String) : Nat :=
  (ds.map fun e => e.2.newErrors.countP fun c => Acceptance.dropNuls c == code).sum

theorem gainCount_pos_iff {ds : Datasets} {code : String} :
    0 < ds.gainCount code ↔ ∃ e ∈ ds, code ∈ e.2.newErrors := by
  simp [gainCount, List.countP_pos_iff]

theorem gainCount_le (ds : Datasets) (code : String) : ds.gainCount code ≤ ds.length :=
  List.countP_le_length

theorem AreCompared.nodup {ds : Datasets} (h : ds.AreCompared) {e : String × Diff} (he : e ∈ ds) :
    e.2.newErrors.Nodup := by
  obtain ⟨baseline, candidate, heq⟩ := h e he
  rw [heq]
  exact (Diff.ascends_newErrors_between baseline candidate).nodup

end Datasets

namespace Acceptance

/-- The last character of a code is NUL. -/
def EndsInNul (code : String) : Prop :=
  code.toList.getLast? = some '\x00'

instance (code : String) : Decidable (EndsInNul code) :=
  inferInstanceAs (Decidable (_ = _))

theorem dropNuls_eq (code : String) :
    dropNuls code = String.ofList (code.toList.rdropWhile (· == '\x00')) :=
  rfl

theorem dropNuls_eq_self_iff {code : String} : dropNuls code = code ↔ ¬EndsInNul code := by
  have hlast : code.toList.rdropWhile (· == '\x00') = code.toList ↔ ¬EndsInNul code := by
    rw [List.rdropWhile_eq_self_iff, EndsInNul]
    by_cases hne : code.toList = []
    · simp [hne]
    · simp [hne, List.getLast?_eq_some_getLast hne]
  rw [dropNuls_eq, ← hlast, ← String.toList_inj, String.toList_ofList]

/-- No NUL character is left at the end. -/
theorem not_endsInNul_dropNuls (code : String) : ¬EndsInNul (dropNuls code) := by
  rw [← dropNuls_eq_self_iff, dropNuls_eq, dropNuls_eq, String.toList_ofList,
    List.rdropWhile_idempotent]

/-! ### Counts -/

theorem keys_countEach (ss : List String) :
    (countEach ss).map (·.1) = sortStrings (distinct ss) := by
  rw [countEach, List.map_map]
  exact List.map_id' _

theorem nodup_keys_countEach (ss : List String) : ((countEach ss).map (·.1)).Nodup := by
  rw [keys_countEach]
  exact (sortStrings_perm _).nodup_iff.mpr (nodup_distinct ss)

theorem mem_countEach_iff {ss : List String} {s : String} {n : Nat} :
    (s, n) ∈ countEach ss ↔ 0 < n ∧ n = ss.count s := by
  simp only [countEach, List.mem_map, mem_sortStrings, mem_distinct, Prod.mk.injEq]
  constructor
  · rintro ⟨_, hs, rfl, rfl⟩
    exact ⟨List.count_pos_iff.mpr hs, rfl⟩
  · rintro ⟨hpos, rfl⟩
    exact ⟨s, List.count_pos_iff.mp hpos, rfl, rfl⟩

section

variable {ds : Datasets} {t : Float} {a : Acceptance} {code : String} {n : Nat}

theorem codeCounts_of_ofDiffs? (h : ofDiffs? ds t = some a) :
    a.codeCounts = countEach ((ds.flatMap (·.2.newErrors)).map dropNuls) := by
  rw [ofDiffs?] at h
  split at h
  · cases h
    rfl
  · cases h

theorem nodup_codeCounts (h : ofDiffs? ds t = some a) : (a.codeCounts.map (·.1)).Nodup := by
  rw [codeCounts_of_ofDiffs? h]
  exact nodup_keys_countEach _

/-- New codes are counted after NUL characters have been dropped. -/
theorem mem_codeCounts_iff (h : ofDiffs? ds t = some a) :
    (code, n) ∈ a.codeCounts ↔ 0 < n ∧ n = ds.shortenedCount code := by
  rw [codeCounts_of_ofDiffs? h, mem_countEach_iff, List.count, List.countP_map, List.countP_flatMap]
  rfl

/-- If no code ends in NUL, a code is counted in each dataset where it is new. -/
theorem shortenedCount_eq_gainCount (hds : ds.AreCompared)
    (hplain : ∀ e ∈ ds, ∀ code ∈ e.2.newErrors, ¬EndsInNul code) (code : String) :
    ds.shortenedCount code = ds.gainCount code := by
  have hcount : ∀ e ∈ ds, (e.2.newErrors.countP fun c => dropNuls c == code)
      = if e.2.newErrors.contains code then 1 else 0 := by
    intro e he
    have hsame : (e.2.newErrors.countP fun c => dropNuls c == code) = e.2.newErrors.count code := by
      apply List.countP_congr
      intro c hc
      rw [dropNuls_eq_self_iff.mpr (hplain e he c hc)]
    rw [hsame, (hds.nodup he).count]
    simp
  have hsum : ∀ es : Datasets, (es.map fun e => if e.2.newErrors.contains code then 1 else 0).sum
      = es.gainCount code := by
    intro es
    induction es with
    | nil => rfl
    | cons e es ih =>
      rw [List.map_cons, List.sum_cons, ih, Datasets.gainCount, Datasets.gainCount,
        List.countP_cons, Nat.add_comm]
  rw [Datasets.shortenedCount, List.map_congr_left hcount, hsum]

theorem shortenedCount_of_endsInNul (hcode : EndsInNul code) : ds.shortenedCount code = 0 := by
  have hnone : ∀ c, (dropNuls c == code) = false := by
    intro c
    rw [beq_eq_false_iff_ne]
    rintro rfl
    exact not_endsInNul_dropNuls c hcode
  simp [Datasets.shortenedCount, hnone]

/-- Each code that is new in some dataset has one number, which is the number of the datasets where
it is new, and no other code has a number. -/
structure CountsDatasets (counts : List (String × Nat)) (ds : Datasets) : Prop where
  nodup : (counts.map (·.1)).Nodup
  mem_iff : ∀ code n,
    (code, n) ∈ counts ↔ (∃ e ∈ ds, code ∈ e.2.newErrors) ∧ n = ds.gainCount code

/-- The numbers are those of datasets exactly if no new code ends in NUL. -/
theorem countsDatasets_iff (hds : ds.AreCompared) (h : ofDiffs? ds t = some a) :
    CountsDatasets a.codeCounts ds ↔ ∀ e ∈ ds, ∀ code ∈ e.2.newErrors, ¬EndsInNul code := by
  constructor
  · rintro hcounts e he code hcode hends
    have hmem := (hcounts.mem_iff code _).mpr ⟨⟨e, he, hcode⟩, rfl⟩
    obtain ⟨hpos, hcount⟩ := (mem_codeCounts_iff h).mp hmem
    rw [hcount, shortenedCount_of_endsInNul hends] at hpos
    exact Nat.lt_irrefl 0 hpos
  · intro hplain
    refine ⟨nodup_codeCounts h, fun code n => ?_⟩
    rw [mem_codeCounts_iff h, shortenedCount_eq_gainCount hds hplain, ← Datasets.gainCount_pos_iff]
    constructor
    · rintro ⟨hpos, rfl⟩
      exact ⟨hpos, rfl⟩
    · rintro ⟨hpos, rfl⟩
      exact ⟨hpos, rfl⟩

end

/-- A verdict on compared datasets has a number for each code that is left of a new one once NUL
characters are dropped, namely how often that is so. The numbers say for exactly the new codes in
how many datasets they are new if, and only if, no new code ends in NUL; then none of them is zero
or greater than the number of datasets. -/
theorem exists_codeCounts {ds : Datasets} {t : Float} (hds : ds.AreCompared)
    (ht : isThreshold t = true) :
    ∃ a, ofDiffs? ds t = some a ∧ a.datasetCount = ds.length ∧
      (a.codeCounts.map (·.1)).Nodup ∧
      (∀ code n, (code, n) ∈ a.codeCounts ↔ 0 < n ∧ n = ds.shortenedCount code) ∧
      (CountsDatasets a.codeCounts ds ↔ ∀ e ∈ ds, ∀ code ∈ e.2.newErrors, ¬EndsInNul code) ∧
      ((∀ e ∈ ds, ∀ code ∈ e.2.newErrors, ¬EndsInNul code) →
        ∀ code n, (code, n) ∈ a.codeCounts → 1 ≤ n ∧ n ≤ a.datasetCount) := by
  obtain ⟨a, ha, hlength, -⟩ := exists_ofDiffs?_of_perm (.refl ds) ht
  refine ⟨a, ha, hlength, nodup_codeCounts ha, fun _ _ => mem_codeCounts_iff ha,
    countsDatasets_iff hds ha, fun hplain code n hn => ?_⟩
  obtain ⟨hpos, rfl⟩ := (mem_codeCounts_iff ha).mp hn
  refine ⟨hpos, ?_⟩
  rw [shortenedCount_eq_gainCount hds hplain, hlength]
  exact ds.gainCount_le code

/-- The report of a document that tells of one error with each of some codes. -/
def errorsOf (codes : List Code) : Report :=
  ⟨(codes.map fun c => (⟨⟨c, .error⟩, 1, []⟩ : Group)).map Group.summary⟩

theorem ofValue_errorsOf (codes : List Code) :
    Report.ofValue (Value.ofJson (documentOf (codes.map fun c => ⟨⟨c, .error⟩, 1, []⟩)))
      = .ok (errorsOf codes) := by
  apply ofValue_documentOf
  intro g hg
  obtain ⟨c, -, rfl⟩ := List.mem_map.mp hg
  exact Int.one_nonneg

theorem mem_newErrors_errorsOf {cs ds : List Code} {code : String} :
    code ∈ (Diff.between (errorsOf cs) (errorsOf ds)).newErrors ↔
      code ∈ ds.map (·.text) ∧ code ∉ cs.map (·.text) := by
  have hreports : ∀ cs : List Code,
      (errorsOf cs).ReportsError code ↔ code ∈ cs.map (·.text) := by
    intro cs
    simp [Report.ReportsError, errorsOf, Group.summary]
  rw [Diff.mem_newErrors_between, hreports, hreports]

/-- Two datasets of which both gain an empty row and one a missing name. -/
def gains : Datasets :=
  [("north", Diff.between (errorsOf []) (errorsOf [⟨"row_empty", by decide⟩])),
    ("south", Diff.between (errorsOf [⟨"unit_unknown", by decide⟩])
      (errorsOf [⟨"row_empty", by decide⟩, ⟨"name_missing", by decide⟩]))]

theorem exists_codeCounts_gains :
    ∃ a, ofDiffs? gains 1 = some a ∧ CountsDatasets a.codeCounts gains ∧
      ("row_empty", 2) ∈ a.codeCounts ∧ ("name_missing", 1) ∈ a.codeCounts := by
  have hcompared : gains.AreCompared := by
    simp only [Datasets.AreCompared, gains, List.forall_mem_cons]
    exact ⟨⟨_, _, rfl⟩, ⟨_, _, rfl⟩, nofun⟩
  have hplain : ∀ e ∈ gains, ∀ code ∈ e.2.newErrors, ¬EndsInNul code := by
    simp only [gains, List.forall_mem_cons, mem_newErrors_errorsOf]
    refine ⟨fun code h => ?_, fun code h => ?_, nofun⟩
    · exact (show ∀ c ∈ ["row_empty"], ¬EndsInNul c by decide) code h.1
    · exact (show ∀ c ∈ ["row_empty", "name_missing"], ¬EndsInNul c by decide) code h.1
  obtain ⟨a, ha, -, -, -, hcounts, -⟩ :=
    exists_codeCounts hcompared (show isThreshold 1 = true by decide +kernel)
  have hmem := (hcounts.mpr hplain).mem_iff
  refine ⟨a, ha, hcounts.mpr hplain, (hmem _ _).mpr ?_, (hmem _ _).mpr ?_⟩
  · simp [gains, Datasets.gainCount, mem_newErrors_errorsOf]
  · simp [gains, Datasets.gainCount, mem_newErrors_errorsOf]

/-- Two codes that differ by a NUL at the end are both new in the one dataset there is. One of them
has the number two, which is more than there are datasets, and the other has none. -/
theorem codeCounts_nul :
    ∃ baseline candidate a,
      Report.ofValue (Value.ofJson (documentOf [])) = .ok baseline ∧
      Report.ofValue (Value.ofJson (documentOf [⟨⟨⟨"A", by decide⟩, .error⟩, 1, []⟩,
        ⟨⟨⟨"A\x00", by decide⟩, .error⟩, 1, []⟩])) = .ok candidate ∧
      ofDiffs? [("north", Diff.between baseline candidate)] 100 = some a ∧
      (Diff.between baseline candidate).newErrors = ["A", "A\x00"] ∧
      a.datasetCount = 1 ∧ a.codeCounts = [("A", 2)] ∧
      ¬CountsDatasets a.codeCounts [("north", Diff.between baseline candidate)] := by
  let codes : List Code := [⟨"A", by decide⟩, ⟨"A\x00", by decide⟩]
  have hnew : (Diff.between (errorsOf []) (errorsOf codes)).newErrors = ["A", "A\x00"] := by
    refine (Diff.ascends_newErrors_between _ _).eq_of_mem_iff (by decide) fun code => ?_
    rw [mem_newErrors_errorsOf]
    simp [codes]
  obtain ⟨a, ha, hlength, -⟩ := exists_ofDiffs?_of_perm
    (.refl [("north", Diff.between (errorsOf []) (errorsOf codes))])
    (show isThreshold 100 = true by decide +kernel)
  have hcounts : a.codeCounts = [("A", 2)] := by
    have hshort : ["A", "A\x00"].map dropNuls = ["A", "A"] := by decide
    rw [codeCounts_of_ofDiffs? ha, List.flatMap_singleton, hnew, hshort]
    simp [countEach, distinct, sortStrings]
  refine ⟨_, _, a, ofValue_errorsOf [], ofValue_errorsOf codes, ha, hnew, hlength, hcounts,
    fun hcounted => ?_⟩
  rw [hcounts] at hcounted
  have hmem := (hcounted.mem_iff "A\x00" _).mpr ⟨⟨_, List.mem_singleton.mpr rfl, ?_⟩, rfl⟩
  · simp at hmem
  · rw [hnew]
    decide

end Acceptance

end NoticeLedger

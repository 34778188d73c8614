import NoticeLedger.Diff
import NoticeLedger.Proofs.KeyOrder

/-!
# What a difference lists

A difference lists each code of one report that is missing from the other, once and in ascending
order (`Diff.ascends_missingFrom`, `Diff.mem_newErrors_between`). A code counts for a report if some
summary of that report tells of an error with it, whatever the other summaries with this code tell
(`Report.ReportsError`).
-/

namespace NoticeLedger

/-! ### Lists of strings -/

section Distinct

variable {α : Type} [DecidableEq α] {x : α} {xs : List α}

@[simp] theorem mem_distinct : x ∈ distinct xs ↔ x ∈ xs := by
  induction xs with
  | nil => rfl
  | cons y ys ih =>
    rw [distinct, List.mem_cons, List.mem_cons, List.mem_filter, ih]
    by_cases h : x = y <;> simp [h]

theorem nodup_distinct (xs : List α) : (distinct xs).Nodup := by
  induction xs with
  | nil => exact List.nodup_nil
  | cons y ys ih =>
    refine List.nodup_cons.mpr ⟨fun h => ?_, ih.filter _⟩
    exact of_decide_eq_true (List.mem_filter.mp h).2 rfl

end Distinct

/-- Each string is strictly before the next one, by code point. -/
def Ascends (ss : List String) : Prop :=
  ss.Pairwise fun s t => Text.lt (Text.ofString s) (Text.ofString t) = true

instance (ss : List String) : Decidable (Ascends ss) :=
  inferInstanceAs (Decidable (ss.Pairwise _))

theorem Ascends.nodup {ss : List String} (h : Ascends ss) : ss.Nodup := by
  refine h.imp fun {s t} hlt heq => ?_
  rw [heq, Text.lt_irrefl] at hlt
  cases hlt

/-- Ascending strings are told by their members. -/
theorem Ascends.eq_of_mem_iff {ss ts : List String} (hss : Ascends ss) (hts : Ascends ts)
    (h : ∀ s, s ∈ ss ↔ s ∈ ts) : ss = ts := by
  have hperm : ss.Perm ts := (List.perm_ext_iff_of_nodup hss.nodup hts.nodup).mpr h
  refine hperm.eq_of_pairwise (fun s t _ _ hst hts => ?_) hss hts
  rw [Text.lt_asymm hst] at hts
  cases hts

theorem stringLe_refl (s : String) : stringLe s s = true := by
  rw [stringLe, Text.le, Text.lt_irrefl, Bool.not_false]

theorem stringLe_antisymm {s t : String} (hst : stringLe s t = true) (hts : stringLe t s = true) :
    s = t :=
  Text.ofString_injective (Text.le_antisymm hst hts)

@[simp] theorem mem_sortStrings {s : String} {ss : List String} : s ∈ sortStrings ss ↔ s ∈ ss :=
  List.mem_mergeSort

theorem sortStrings_perm (ss : List String) : (sortStrings ss).Perm ss :=
  List.mergeSort_perm ss stringLe

theorem pairwise_sortStrings (ss : List String) :
    (sortStrings ss).Pairwise fun s t => stringLe s t = true := by
  apply List.pairwise_mergeSort
  · exact fun _ _ _ => Text.le_trans
  · exact fun s t => Text.le_total (Text.ofString s) (Text.ofString t)

/-- Strings of which no two are the same ascend once they are sorted. -/
theorem ascends_sortStrings {ss : List String} (h : ss.Nodup) : Ascends (sortStrings ss) := by
  have hne : (sortStrings ss).Pairwise (· ≠ ·) := (sortStrings_perm ss).nodup_iff.mpr h
  refine ((pairwise_sortStrings ss).and hne).imp fun {s t} hst => ?_
  exact Text.lt_of_le_of_ne hst.1 fun heq => hst.2 (Text.ofString_injective heq)

/-- The order of strings before they are sorted is lost. -/
theorem sortStrings_eq_of_perm {ss ts : List String} (h : ss.Perm ts) :
    sortStrings ss = sortStrings ts := by
  have hperm := (sortStrings_perm ss).trans (h.trans (sortStrings_perm ts).symm)
  exact hperm.eq_of_pairwise (fun _ _ _ _ => stringLe_antisymm) (pairwise_sortStrings ss)
    (pairwise_sortStrings ts)

/-! ### Error codes -/

namespace Report

/-- Some summary tells of an error with the code. -/
def ReportsError (r : Report) (code : String) : Prop :=
  ∃ s ∈ r.summaries, s.severity = .error ∧ s.code.text = code

instance (r : Report) (code : String) : Decidable (r.ReportsError code) :=
  inferInstanceAs (Decidable (∃ s ∈ r.summaries, s.severity = .error ∧ s.code.text = code))

theorem nodup_errorCodes (r : Report) : r.errorCodes.Nodup :=
  nodup_distinct _

theorem mem_errorCodes {r : Report} {c : Code} :
    c ∈ r.errorCodes ↔ ∃ s ∈ r.summaries, s.severity = .error ∧ s.code = c := by
  simp only [errorCodes, mem_distinct, List.mem_map, List.mem_filter, Summary.isError, beq_iff_eq,
    and_assoc]

theorem reportsError_iff {r : Report} {code : String} :
    r.ReportsError code ↔ code ∈ r.errorCodes.map (·.text) := by
  simp only [ReportsError, List.mem_map, mem_errorCodes]
  constructor
  · rintro ⟨s, hs, herror, rfl⟩
    exact ⟨s.code, ⟨s, hs, herror, rfl⟩, rfl⟩
  · rintro ⟨_, ⟨s, hs, herror, rfl⟩, rfl⟩
    exact ⟨s, hs, herror, rfl⟩

end Report

/-! ### Differences -/

namespace Diff

variable {baseline candidate : Report} {code : String} {xs ys : List Code}

theorem mem_missingFrom :
    code ∈ missingFrom ys xs ↔ code ∈ xs.map (·.text) ∧ code ∉ ys.map (·.text) := by
  simp only [missingFrom, mem_sortStrings, List.mem_map, List.mem_filter, Bool.not_eq_true',
    ← Bool.not_eq_true, List.contains_iff_mem]
  constructor
  · rintro ⟨c, ⟨hx, hy⟩, rfl⟩
    refine ⟨⟨c, hx, rfl⟩, ?_⟩
    rintro ⟨c', hc', heq⟩
    exact hy (Code.ext heq ▸ hc')
  · rintro ⟨⟨c, hx, rfl⟩, hy⟩
    exact ⟨c, ⟨hx, fun hc => hy ⟨c, hc, rfl⟩⟩, rfl⟩

theorem ascends_missingFrom (h : xs.Nodup) : Ascends (missingFrom ys xs) := by
  apply ascends_sortStrings
  exact List.pairwise_map.mpr ((h.filter _).imp fun hne heq => hne (Code.ext heq))

theorem mem_newErrors_between : code ∈ (between baseline candidate).newErrors ↔
    candidate.ReportsError code ∧ ¬baseline.ReportsError code := by
  rw [between, mem_missingFrom, Report.reportsError_iff, Report.reportsError_iff]

theorem mem_resolvedErrors_between : code ∈ (between baseline candidate).resolvedErrors ↔
    baseline.ReportsError code ∧ ¬candidate.ReportsError code := by
  rw [between, mem_missingFrom, Report.reportsError_iff, Report.reportsError_iff]

theorem ascends_newErrors_between (baseline candidate : Report) :
    Ascends (between baseline candidate).newErrors :=
  ascends_missingFrom candidate.nodup_errorCodes

theorem ascends_resolvedErrors_between (baseline candidate : Report) :
    Ascends (between baseline candidate).resolvedErrors :=
  ascends_missingFrom baseline.nodup_errorCodes

theorem hasNewErrors_iff {d : Diff} : d.hasNewErrors = true ↔ ∃ code, code ∈ d.newErrors := by
  rw [hasNewErrors, Bool.not_eq_true', List.isEmpty_eq_false_iff_exists_mem]

theorem hasNewErrors_between : (between baseline candidate).hasNewErrors = true ↔
    ∃ code, candidate.ReportsError code ∧ ¬baseline.ReportsError code := by
  rw [hasNewErrors_iff]
  exact exists_congr fun _ => mem_newErrors_between

end Diff

end NoticeLedger

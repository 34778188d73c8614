import Mathlib.Data.List.Induction
import NoticeLedger.Command.Answer
import NoticeLedger.Proofs.Differences

/-!
# Datasets and their order

A dataset that is set again takes the last difference (`Answer.lookup_datasetsOf`), so ids are never
repeated. The verdict on datasets, and all that is printed about it, is the same in whichever order
they stand (`Acceptance.ofDiffs?_eq_of_perm`, `Answer.ofDatasets_eq_of_perm`).
-/

namespace NoticeLedger

namespace Datasets

variable {ds es : Datasets} {id other : String} {d : Diff}

/-- No id is repeated. -/
def IsKeyed (ds : Datasets) : Prop :=
  (ds.map (·.1)).Nodup

theorem lookup_cons (e : String × Diff) (ds : Datasets) (id : String) :
    List.lookup id (e :: ds) = if id = e.1 then some e.2 else ds.lookup id := by
  rw [List.lookup_cons]
  split
  · rename_i heq
    rw [if_pos (eq_of_beq heq)]
  · rename_i hne
    rw [if_neg (ne_of_beq_false hne)]

theorem lookup_insert : (Datasets.insert id d ds).lookup other =
    if other = id then some d else ds.lookup other := by
  induction ds with
  | nil => exact lookup_cons (id, d) [] other
  | cons e ds ih =>
    rw [Datasets.insert]
    split
    · rename_i heq
      rw [lookup_cons, lookup_cons, heq]
      split <;> rfl
    · rename_i hne
      rw [lookup_cons, lookup_cons, ih]
      split
      · rename_i heq
        rw [if_neg (heq ▸ hne)]
      · rfl

theorem mem_ids_insert :
    other ∈ (Datasets.insert id d ds).map (·.1) ↔ other = id ∨ other ∈ ds.map (·.1) := by
  induction ds with
  | nil => simp [Datasets.insert]
  | cons e ds ih =>
    rw [Datasets.insert]
    split
    · rename_i heq
      simp [heq]
    · rw [List.map_cons, List.map_cons, List.mem_cons, List.mem_cons, ih]
      exact or_left_comm

theorem IsKeyed.insert (h : ds.IsKeyed) : (Datasets.insert id d ds).IsKeyed := by
  induction ds with
  | nil => exact List.nodup_cons.mpr ⟨nofun, List.nodup_nil⟩
  | cons e ds ih =>
    obtain ⟨hnotMem, hds⟩ := List.nodup_cons.mp h
    rw [Datasets.insert]
    split
    · rename_i heq
      subst heq
      exact h
    · rename_i hne
      refine List.nodup_cons.mpr ⟨fun hmem => ?_, ih hds⟩
      rcases mem_ids_insert.mp hmem with heq | hmem
      · exact hne heq
      · exact hnotMem hmem

/-- Without repeated ids a dataset is found by its id. -/
theorem IsKeyed.lookup_eq_some_iff (h : ds.IsKeyed) : ds.lookup id = some d ↔ (id, d) ∈ ds := by
  induction ds with
  | nil => exact iff_of_false nofun nofun
  | cons e ds ih =>
    obtain ⟨hnotMem, hds⟩ := List.nodup_cons.mp h
    rw [lookup_cons, List.mem_cons]
    split
    · rename_i heq
      have hnew : (id, d) ∉ ds := fun hmem =>
        hnotMem (List.mem_map.mpr ⟨(id, d), hmem, heq⟩)
      rw [or_iff_left hnew, Prod.ext_iff, and_iff_right heq, Option.some.injEq, eq_comm]
    · rename_i hne
      have hnot : (id, d) ≠ e := fun h => hne (congrArg Prod.fst h)
      simp [hnot, ih hds]

theorem IsKeyed.nodup (h : ds.IsKeyed) : ds.Nodup :=
  (List.pairwise_map.mp h).imp fun hne heq => hne (congrArg Prod.fst heq)

theorem lookup_eq_of_perm (hds : ds.IsKeyed) (h : ds.Perm es) (id : String) :
    ds.lookup id = es.lookup id := by
  have hes : es.IsKeyed := (h.map Prod.fst).nodup_iff.mp hds
  ext d
  rw [hds.lookup_eq_some_iff, hes.lookup_eq_some_iff, h.mem_iff]

/-- Datasets without repeated ids are told by their members up to order. -/
theorem IsKeyed.perm_of_mem_iff (hds : ds.IsKeyed) (hes : es.IsKeyed)
    (h : ∀ id d, (id, d) ∈ ds ↔ (id, d) ∈ es) : ds.Perm es :=
  (List.perm_ext_iff_of_nodup hds.nodup hes.nodup).mpr fun e => h e.1 e.2

end Datasets

namespace Acceptance

variable {ds es : Datasets} {ss ts : List String}

theorem countEach_eq_of_perm (h : ss.Perm ts) : countEach ss = countEach ts := by
  have hdistinct : (distinct ss).Perm (distinct ts) := by
    refine (List.perm_ext_iff_of_nodup (nodup_distinct ss) (nodup_distinct ts)).mpr fun s => ?_
    rw [mem_distinct, mem_distinct, h.mem_iff]
  rw [countEach, countEach, sortStrings_eq_of_perm hdistinct]
  exact List.map_congr_left fun s _ => congrArg (Prod.mk s) (h.count_eq s)

/-- The verdict does not depend on the order of the datasets. -/
theorem ofDiffs?_eq_of_perm (h : ds.Perm es) (t : Float) : ofDiffs? ds t = ofDiffs? es t := by
  have hflagged := h.filter (·.2.hasNewErrors)
  have hcodes := (h.flatMap_right (·.2.newErrors)).map dropNuls
  simp only [ofDiffs?, h.length_eq, hflagged.length_eq, sortStrings_eq_of_perm (hflagged.map (·.1)),
    countEach_eq_of_perm hcodes]

/-- A percentage as the threshold gives a verdict that counts the datasets, in whichever order, and
tells which of them have new errors. -/
theorem exists_ofDiffs?_of_perm (h : ds.Perm es) {t : Float} (ht : isThreshold t = true) :
    ∃ a, ofDiffs? ds t = some a ∧ a.datasetCount = es.length ∧
      a.flagged.Perm ((es.filter (·.2.hasNewErrors)).map (·.1)) ∧
      a.passed = decide (percentOf (es.filter (·.2.hasNewErrors)).length es.length ≤ t) := by
  have hflagged := h.filter (·.2.hasNewErrors)
  rw [ofDiffs?, if_pos ht, ← h.length_eq, ← hflagged.length_eq]
  exact ⟨_, rfl, rfl, (sortStrings_perm _).trans (hflagged.map _), rfl⟩

end Acceptance

namespace Answer

variable {ds es : Datasets}

theorem isKeyed_datasetsOf (diffs : List (String × Diff)) : (datasetsOf diffs).IsKeyed := by
  induction diffs using List.reverseRecOn with
  | nil => exact List.nodup_nil
  | append_singleton diffs e ih =>
    rw [datasetsOf, List.foldl_append]
    exact ih.insert

/-- Of several differences for one dataset the last one counts. -/
theorem lookup_datasetsOf (diffs : List (String × Diff)) (id : String) :
    (datasetsOf diffs).lookup id = diffs.reverse.lookup id := by
  induction diffs using List.reverseRecOn with
  | nil => rfl
  | append_singleton diffs e ih =>
    rw [datasetsOf, List.foldl_append, List.reverse_append]
    rw [List.foldl_cons, List.foldl_nil, Datasets.lookup_insert, List.reverse_singleton,
      List.singleton_append, Datasets.lookup_cons, ← ih, datasetsOf]

theorem verdictLines_eq_of_perm (hds : ds.IsKeyed) (h : ds.Perm es) (a : Acceptance) :
    verdictLines ds a = verdictLines es a := by
  have hline : datasetLine ds = datasetLine es := by
    funext id
    rw [datasetLine, datasetLine, Datasets.lookup_eq_of_perm hds h]
  rw [verdictLines, verdictLines, hline]

/-- What is answered does not depend on the order of the datasets. -/
theorem ofDatasets_eq_of_perm (hds : ds.IsKeyed) (h : ds.Perm es) (messages : List String)
    (t : Float) (format : Format) :
    ofDatasets messages ds t format = ofDatasets messages es t format := by
  simp only [ofDatasets, Acceptance.ofDiffs?_eq_of_perm h, verdictLines_eq_of_perm hds h]

end Answer

end NoticeLedger

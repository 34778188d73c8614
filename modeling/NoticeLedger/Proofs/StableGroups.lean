import Mathlib.Data.List.SplitBy
import NoticeLedger.Proofs.Exports
import NoticeLedger.Proofs.KeySets

/-!
# Grouping as sorting

The groups of notices, one after another, are the notices sorted by key, where notices of one key
keep their order. A list that is sorted in this way is told by what it has of each key
(`IsStableSort.unique`), and so the groups are the runs of equal keys in the sorted list
(`groupNotices_eq_runs`).
-/

namespace NoticeLedger

variable {ns ms : List Notice} {k : Key}

/-! ### Stable sorting -/

/-- At or before, by key. -/
def Notice.le (m n : Notice) : Bool :=
  Key.le m.key n.key

/-- `ms` has the notices of `ns` in the order of their keys, those of one key as they were. -/
structure IsStableSort (ns ms : List Notice) : Prop where
  sorted : ms.Pairwise fun m n => Notice.le m n = true
  stable : ∀ k, (ms.filter fun n => n.key = k) = ns.filter fun n => n.key = k

theorem Notice.le_trans (l m n : Notice) (hlm : Notice.le l m = true) (hmn : Notice.le m n = true) :
    Notice.le l n = true :=
  Key.le_trans _ _ _ hlm hmn

theorem Notice.le_total (m n : Notice) : (Notice.le m n || Notice.le n m) = true :=
  Key.le_total _ _

theorem key_of_mem_filter {n : Notice} (h : n ∈ ns.filter fun n => n.key = k) : n.key = k := by
  simpa using (List.mem_filter.mp h).2

/-- Notices of one key are in order as they stand. -/
theorem pairwise_le_of_key (h : ∀ n ∈ ns, n.key = k) :
    ns.Pairwise fun m n => Notice.le m n = true := by
  apply List.pairwise_of_forall_mem_list
  intro m hm n hn
  rw [Notice.le, h m hm, h n hn]
  exact Key.le_refl k

/-- A stable sort has no other members. -/
theorem IsStableSort.mem_iff (h : IsStableSort ns ms) {n : Notice} : n ∈ ms ↔ n ∈ ns := by
  have hmem : n ∈ ms.filter (fun m => m.key = n.key) ↔ n ∈ ns.filter (fun m => m.key = n.key) := by
    rw [h.stable]
  simpa using hmem

/-- Lists that have the same of each key go on with the same behind notices of one key. -/
theorem eq_of_filter_cons_eq {a b : Notice} {ls : List Notice} (hkey : a.key = b.key)
    (h : ∀ k, ((a :: ls).filter fun n => n.key = k) = (b :: ms).filter fun n => n.key = k) :
    a = b ∧ ∀ k, (ls.filter fun n => n.key = k) = ms.filter fun n => n.key = k := by
  constructor
  · have hself := h b.key
    rw [List.filter_cons_of_pos (by simp [hkey]), List.filter_cons_of_pos (by simp)] at hself
    exact (List.cons.inj hself).1
  · intro k
    have hk := h k
    by_cases hbk : b.key = k
    · rw [List.filter_cons_of_pos (by simp [hkey, hbk]),
        List.filter_cons_of_pos (by simp [hbk])] at hk
      exact (List.cons.inj hk).2
    · rw [List.filter_cons_of_neg (by simp [hkey, hbk]),
        List.filter_cons_of_neg (by simp [hbk])] at hk
      exact hk

/-- Two stable sorts are equal, as a notice of the least key leads both of them. -/
theorem IsStableSort.unique {ls : List Notice} (hls : IsStableSort ns ls)
    (hms : IsStableSort ns ms) : ls = ms := by
  induction ls generalizing ns ms with
  | nil =>
    apply (List.eq_nil_iff_forall_not_mem.mpr fun n hn => ?_).symm
    exact List.not_mem_nil (hls.mem_iff.mpr (hms.mem_iff.mp hn))
  | cons a ls ih =>
    cases ms with
    | nil => exact absurd (hms.mem_iff.mpr (hls.mem_iff.mp (List.mem_cons_self ..))) nofun
    | cons b ms =>
      obtain ⟨hleast, hsorted⟩ := List.pairwise_cons.mp hls.sorted
      obtain ⟨hleast', hsorted'⟩ := List.pairwise_cons.mp hms.sorted
      have hkey : a.key = b.key := by
        have hb := List.mem_cons.mp (hls.mem_iff.mpr (hms.mem_iff.mp (List.mem_cons_self ..)))
        have ha := List.mem_cons.mp (hms.mem_iff.mpr (hls.mem_iff.mp (List.mem_cons_self ..)))
        rcases hb with rfl | hb
        · rfl
        rcases ha with rfl | ha
        · rfl
        exact Key.le_antisymm (hleast b hb) (hleast' a ha)
      obtain ⟨rfl, htail⟩ :=
        eq_of_filter_cons_eq hkey fun k => (hls.stable k).trans (hms.stable k).symm
      rw [ih ⟨hsorted, fun _ => rfl⟩ ⟨hsorted', fun k => (htail k).symm⟩]

/-- Sorting by merging is stable. -/
theorem isStableSort_mergeSort (ns : List Notice) : IsStableSort ns (ns.mergeSort Notice.le) where
  sorted := List.pairwise_mergeSort Notice.le_trans Notice.le_total ns
  stable k := by
    -- A list that is sorted as it stands is kept in this order.
    have hsorted : (ns.filter fun n => n.key = k).Pairwise fun m n => Notice.le m n = true :=
      pairwise_le_of_key fun n => key_of_mem_filter
    have hkept := (List.sublist_mergeSort Notice.le_trans Notice.le_total hsorted
      List.filter_sublist).filter fun n => n.key = k
    rw [List.filter_filter] at hkept
    simp only [Bool.and_self] at hkept
    exact (hkept.eq_of_length ((List.mergeSort_perm ns Notice.le).filter _).length_eq.symm).symm

theorem isStableSort_iff : IsStableSort ns ms ↔ ms = ns.mergeSort Notice.le := by
  constructor
  · intro h
    exact h.unique (isStableSort_mergeSort ns)
  · rintro rfl
    exact isStableSort_mergeSort ns

/-! ### Groups -/

/-- The notices of all groups, one group after another. -/
def ungroup (groups : List (Key × List Notice)) : List Notice :=
  groups.flatMap (·.2)

theorem keys_groupNotices (ns : List Notice) :
    (groupNotices ns).map (·.1) = Key.sort (ns.map (·.key)).dedup := by
  rw [groupNotices_eq, List.map_map]
  exact List.map_id' _

theorem nodup_keys_groupNotices (ns : List Notice) : ((groupNotices ns).map (·.1)).Nodup := by
  rw [keys_groupNotices]
  exact (List.mergeSort_perm _ _).nodup_iff.mpr (List.nodup_dedup _)

theorem mem_keys_groupNotices : k ∈ (groupNotices ns).map (·.1) ↔ ∃ n ∈ ns, n.key = k := by
  rw [keys_groupNotices, Key.mem_sort, List.mem_dedup, List.mem_map]

/-- A group has the notices of its key, of which there is at least one. -/
theorem mem_groupNotices_iff {g : Key × List Notice} :
    g ∈ groupNotices ns ↔ g.2 ≠ [] ∧ g.2 = ns.filter fun n => n.key = g.1 := by
  have hne : (ns.filter fun n => n.key = g.1) ≠ [] ↔ ∃ n ∈ ns, n.key = g.1 := by
    simp [List.filter_eq_nil_iff]
  rw [groupNotices_eq, List.mem_map]
  constructor
  · rintro ⟨k, hk, rfl⟩
    rw [Key.mem_sort, List.mem_dedup, List.mem_map] at hk
    exact ⟨hne.mpr hk, rfl⟩
  · rintro ⟨hnil, hg⟩
    refine ⟨g.1, ?_, Prod.ext rfl hg.symm⟩
    rw [Key.mem_sort, List.mem_dedup, List.mem_map]
    exact hne.mp (hg ▸ hnil)

theorem key_of_mem_group {g : Key × List Notice} (hg : g ∈ groupNotices ns) {n : Notice}
    (hn : n ∈ g.2) : n.key = g.1 := by
  rw [(mem_groupNotices_iff.mp hg).2] at hn
  exact key_of_mem_filter hn

/-- Of the notices of several keys, those of one of these keys are the notices of that key. -/
theorem filter_flatMap_filter {ks : List Key} (hks : ks.Nodup) (ns : List Notice) (k : Key) :
    ((ks.flatMap fun l => ns.filter fun n => n.key = l).filter fun n => n.key = k)
      = if k ∈ ks then ns.filter fun n => n.key = k else [] := by
  induction ks with
  | nil => rfl
  | cons l ks ih =>
    obtain ⟨hl, hks⟩ := List.nodup_cons.mp hks
    rw [List.flatMap_cons, List.filter_append, ih hks, List.filter_filter]
    by_cases h : k = l
    · subst h
      simp [hl]
    · have hnone : (ns.filter fun n => decide (n.key = k) && decide (n.key = l)) = [] := by
        rw [List.filter_eq_nil_iff]
        simp only [Bool.and_eq_true, decide_eq_true_eq]
        rintro n - ⟨rfl, hn⟩
        exact h hn
      simp [hnone, h]

theorem isStableSort_ungroup (ns : List Notice) : IsStableSort ns (ungroup (groupNotices ns)) where
  sorted := by
    rw [ungroup, List.pairwise_flatMap]
    constructor
    · intro g hg
      exact pairwise_le_of_key fun n => key_of_mem_group hg
    · have hkeys := Key.pairwise_sort (List.nodup_dedup (ns.map (·.key)))
      rw [← keys_groupNotices, List.pairwise_map] at hkeys
      refine hkeys.imp_of_mem fun {g h} hg hh hlt m hm n hn => ?_
      rw [Notice.le, key_of_mem_group hg hm, key_of_mem_group hh hn]
      exact Key.le_of_lt hlt
  stable k := by
    have hnodup := nodup_keys_groupNotices ns
    have hmem : k ∈ (groupNotices ns).map (·.1) ↔ ∃ n ∈ ns, n.key = k := mem_keys_groupNotices
    rw [keys_groupNotices] at hnodup hmem
    rw [ungroup, groupNotices_eq, List.flatMap_map, filter_flatMap_filter hnodup]
    split
    · rfl
    · rename_i hk
      rw [hmem] at hk
      rw [eq_comm, List.filter_eq_nil_iff]
      simpa using hk

/-- The groups are the runs of notices of one key in the sorted list. -/
theorem groupNotices_eq_runs (ns : List Notice) :
    (groupNotices ns).map (·.2)
      = (ns.mergeSort Notice.le).splitBy fun m n => decide (m.key = n.key) := by
  rw [eq_comm, List.splitBy_eq_iff, ← isStableSort_iff.mp (isStableSort_ungroup ns)]
  refine ⟨List.flatMap_def .., fun hnil => ?_, fun group hgroup => ?_, ?_⟩
  · obtain ⟨g, hg, hnil⟩ := List.mem_map.mp hnil
    exact (mem_groupNotices_iff.mp hg).1 hnil
  · obtain ⟨g, hg, rfl⟩ := List.mem_map.mp hgroup
    apply List.Pairwise.isChain
    apply List.pairwise_of_forall_mem_list
    intro m hm n hn
    rw [decide_eq_true_eq, key_of_mem_group hg hm, key_of_mem_group hg hn]
  · have hkeys := List.pairwise_map.mp (nodup_keys_groupNotices ns)
    apply List.Pairwise.isChain
    rw [List.pairwise_map]
    refine hkeys.imp_of_mem fun {g h} hg hh hne => ?_
    refine ⟨(mem_groupNotices_iff.mp hg).1, (mem_groupNotices_iff.mp hh).1, ?_⟩
    rw [decide_eq_false_iff_not, key_of_mem_group hg (List.getLast_mem _),
      key_of_mem_group hh (List.head_mem _)]
    exact hne

/-- The groups have distinct keys with ascending tokens, and each one is all that the notices have
of its key, in order, and not nothing. One after another they are the notices sorted by key, stably,
which is the only such list; the groups are the runs of one key in it, and grouping it once more
changes nothing. -/
theorem groupNotices_stable (ns : List Notice) :
    (∀ g ∈ groupNotices ns, g.2 ≠ [] ∧ g.2 = ns.filter fun n => n.key = g.1) ∧
    ((groupNotices ns).map (·.1)).Nodup ∧ Key.TokensAscend ((groupNotices ns).map (·.1)) ∧
    (∀ k, k ∈ (groupNotices ns).map (·.1) ↔ ∃ n ∈ ns, n.key = k) ∧
    ungroup (groupNotices ns) = ns.mergeSort Notice.le ∧
    (∀ ms, IsStableSort ns ms ↔ ms = ungroup (groupNotices ns)) ∧
    (ungroup (groupNotices ns)).Perm ns ∧
    (groupNotices ns).map (·.2)
      = (ungroup (groupNotices ns)).splitBy (fun m n => decide (m.key = n.key)) ∧
    groupNotices (ungroup (groupNotices ns)) = groupNotices ns := by
  have hsort := isStableSort_iff.mp (isStableSort_ungroup ns)
  refine ⟨fun g => mem_groupNotices_iff.mp, nodup_keys_groupNotices ns, ?_,
    fun _ => mem_keys_groupNotices, hsort, fun ms => ?_, ?_, ?_, ?_⟩
  · rw [keys_groupNotices]
    exact Key.tokensAscend_sort (List.nodup_dedup _)
  · rw [hsort, isStableSort_iff]
  · rw [hsort]
    exact List.mergeSort_perm ns Notice.le
  · rw [hsort, groupNotices_eq_runs]
  · exact groupNotices_congr (isStableSort_ungroup ns).stable

end NoticeLedger

import Mathlib.Data.List.Dedup
import NoticeLedger.Proofs.Calls
import NoticeLedger.Proofs.Contexts
import NoticeLedger.Proofs.Recording
import NoticeLedger.Report.Groups

/-!
# What an exported document holds

If every notice is of a counted key, an exported document has one group for each counted key, in
the order of the keys, with the count of the key and the contexts of the first notices of it
(`exportNotices_eq`). Recorders that calls lead to keep notices of counted keys only
(`Recorder.invariant_isSound`).
-/

namespace NoticeLedger

theorem KeyMap.nodup_keys {α : Type} (m : KeyMap α) : m.keys.Nodup := m.nodup

/-- The entries of a map in order, told by its keys. -/
theorem KeyMap.sorted_eq_map {α : Type} (m : KeyMap α) (d : α) :
    m.sorted = (Key.sort m.keys).map fun k => (k, (m.get? k).getD d) := by
  rw [← KeyMap.keys_sorted, List.map_map]
  refine ((List.map_congr_left fun e he => ?_).trans (List.map_id' _)).symm
  have hmem : (e.1, e.2) ∈ m.entries := List.mem_mergeSort.mp he
  show (e.1, (m.get? e.1).getD d) = e
  rw [KeyMap.get?_eq_some_iff.mpr hmem]
  rfl

/-! ### Samples -/

/-- The contexts of the notices of a key, in order. -/
def contextsOf (k : Key) (ns : List Notice) : List Json :=
  (ns.filter fun n => n.key = k).map (·.context)

theorem filter_map_validation (k : Key) (ns : List ValidationNotice) :
    (ns.map Notice.validation).filter (fun n => n.key = k)
      = (ns.filter fun n => n.key = k).map .validation :=
  List.filter_map

theorem contextsOf_map_validation (k : Key) (ns : List ValidationNotice) :
    contextsOf k (ns.map .validation) = (ns.filter fun n => n.key = k).map (·.context) := by
  rw [contextsOf, filter_map_validation, List.map_map]
  rfl

@[simp] theorem contextsOf_append (k : Key) (ns ms : List Notice) :
    contextsOf k (ns ++ ms) = contextsOf k ns ++ contextsOf k ms := by
  simp [contextsOf]

theorem take_append_take {α : Type} (p : Nat) (xs ys : List α) :
    (xs.take p ++ ys.take p).take p = (xs ++ ys).take p := by
  have hleft : p - min p xs.length = p - xs.length := by omega
  have hright : min (p - xs.length) p = p - xs.length := by omega
  rw [List.take_append, List.take_append, List.take_take, List.take_take, List.length_take,
    Nat.min_self, hleft, hright]

namespace Export

theorem get?_foldl_noSamples (ks : List Key) (m : KeyMap (List Json)) (k : Key) :
    (ks.foldl (fun acc k => acc.alter k fun old => old.getD []) m).get? k
      = if k ∈ ks then some ((m.get? k).getD []) else m.get? k := by
  induction ks generalizing m with
  | nil => simp
  | cons a ks ih =>
    rw [List.foldl_cons, ih, KeyMap.get?_alter]
    by_cases ha : a = k
    · subst ha
      simp
    · have ha' : k ≠ a := Ne.symm ha
      simp [ha, ha']

theorem get?_noSamples (counts : KeyMap Int) (k : Key) :
    (noSamples counts).get? k = if k ∈ counts.keys then some [] else none :=
  get?_foldl_noSamples counts.keys {} k

/-- A sample is taken as long as there are too few. -/
theorem take_append_singleton {α : Type} (limit : Nat) (xs : List α) (x : α) :
    (if (xs.take limit).length < limit then xs.take limit ++ [x] else xs.take limit)
      = (xs ++ [x]).take limit := by
  rw [List.length_take, List.take_append]
  split
  · rename_i h
    have hlen : xs.length < limit := by omega
    rw [List.take_of_length_le (l := [x])]
    simp only [List.length_singleton]
    omega
  · rename_i h
    have hlen : limit - xs.length = 0 := by omega
    rw [hlen, List.take_zero, List.append_nil]

theorem get?_foldl_addSample (limit : Nat) (ns : List Notice) {m : KeyMap (List Json)} {k : Key}
    {js : List Json} (h : m.get? k = some (js.take limit)) :
    (ns.foldl (addSample limit) m).get? k = some ((js ++ contextsOf k ns).take limit) := by
  induction ns generalizing m js with
  | nil => rw [List.foldl_nil, h, contextsOf, List.filter_nil, List.map_nil, List.append_nil]
  | cons n ns ih =>
    rw [List.foldl_cons]
    by_cases hn : n.key = k
    · have hadd : (addSample limit m n).get? k = some ((js ++ [n.context]).take limit) := by
        rw [addSample, hn, KeyMap.get?_alter_self, h, Option.getD_some]
        exact congrArg some (take_append_singleton limit js n.context)
      rw [ih hadd, contextsOf, contextsOf, List.filter_cons_of_pos (by simpa using hn),
        List.map_cons, List.append_assoc, List.singleton_append]
    · have hadd : (addSample limit m n).get? k = some (js.take limit) := by
        rw [addSample, KeyMap.get?_alter_ne _ _ hn, h]
      rw [ih hadd, contextsOf, contextsOf, List.filter_cons_of_neg (by simpa using hn)]

theorem get?_foldl_addSample_of_ne (limit : Nat) {ns : List Notice} {k : Key}
    (h : ∀ n ∈ ns, n.key ≠ k) (m : KeyMap (List Json)) :
    (ns.foldl (addSample limit) m).get? k = m.get? k := by
  induction ns generalizing m with
  | nil => rfl
  | cons n ns ih =>
    rw [List.foldl_cons, ih fun i hi => h i (List.mem_cons_of_mem _ hi), addSample,
      KeyMap.get?_alter_ne _ _ (h n (List.mem_cons_self ..))]

end Export

/-! ### Groups -/

/-- If every notice is of a counted key, each counted key has its group. -/
theorem exportNotices_eq {ns : List Notice} {counts : KeyMap Int}
    (h : ∀ n ∈ ns, n.key ∈ counts.keys) (limit : Nat) :
    exportNotices ns counts limit = .ok ((Key.sort counts.keys).map fun k =>
      ⟨k, (counts.get? k).getD 0, (contextsOf k ns).take limit⟩) := by
  have hlimit : ¬(limit : Int) < 0 := Int.not_lt.mpr (Int.natCast_nonneg limit)
  have hcounted : ∀ k ∈ counts.keys,
      (ns.foldl (Export.addSample limit) (Export.noSamples counts)).get? k
        = some ((contextsOf k ns).take limit) := by
    intro k hk
    have hempty : (Export.noSamples counts).get? k = some (([] : List Json).take limit) := by
      rw [Export.get?_noSamples, if_pos hk, List.take_nil]
    rw [Export.get?_foldl_addSample limit ns hempty, List.nil_append]
  generalize hsamples : ns.foldl (Export.addSample limit) (Export.noSamples counts) = samples
    at hcounted
  -- Samples of a key that is not counted would be a fault, so there must be none.
  have hkeys : Key.sort samples.keys = Key.sort counts.keys := by
    apply Key.sort_eq_of_mem_iff samples.nodup_keys counts.nodup_keys
    intro k
    constructor
    · intro hk
      by_contra hnot
      have hne : ∀ n ∈ ns, n.key ≠ k := by
        rintro n hn rfl
        exact hnot (h n hn)
      rw [KeyMap.mem_keys_iff, ← hsamples, Export.get?_foldl_addSample_of_ne limit hne,
        Export.get?_noSamples, if_neg hnot] at hk
      cases hk
    · intro hk
      rw [KeyMap.mem_keys_iff, hcounted k hk]
      rfl
  have hgroups : samples.sorted.map (Export.groupOf counts)
      = ((Key.sort counts.keys).map fun k =>
          (⟨k, (counts.get? k).getD 0, (contextsOf k ns).take limit⟩ : Group)).map .ok := by
    rw [KeyMap.sorted_eq_map samples [], hkeys, List.map_map, List.map_map]
    apply List.map_congr_left
    intro k hk
    have hk' : k ∈ counts.keys := Key.mem_sort.mp hk
    obtain ⟨total, htotal⟩ := Option.isSome_iff_exists.mp (KeyMap.mem_keys_iff.mp hk')
    simp only [Function.comp_apply, Export.groupOf, hcounted k hk', htotal, Option.getD_some]
  rw [exportNotices, if_neg hlimit]
  simp only [Int.toNat_natCast, hsamples, hgroups, collect_map_ok]

/-! ### Tallies -/

theorem Tally.keys_toCounts (t : Tally) : t.toCounts.keys = t.keys := by
  rw [KeyMap.keys, Tally.toCounts, List.map_map]
  rfl

theorem Tally.get?_toCounts (t : Tally) (k : Key) :
    (t.toCounts.get? k).getD 0 = (t.count k : Int) := by
  obtain ⟨es, hes⟩ := t
  simp only [Tally.toCounts, Tally.count, KeyMap.get?]
  clear hes
  induction es with
  | nil => rfl
  | cons e es ih =>
    rw [List.map_cons, KeyMap.find?, KeyMap.find?]
    split
    · rfl
    · exact ih

/-- One group for each key of a tally, with its number and the first `limit` contexts of it. -/
def groupsBy (t : Tally) (ns : List Notice) (limit : Nat) : List Group :=
  (Key.sort t.keys).map fun k => ⟨k, t.count k, (contextsOf k ns).take limit⟩

theorem exportNotices_toCounts {ns : List Notice} {t : Tally} (h : ∀ n ∈ ns, n.key ∈ t.keys)
    (limit : Nat) : exportNotices ns t.toCounts limit = .ok (groupsBy t ns limit) := by
  rw [← Tally.keys_toCounts] at h
  rw [exportNotices_eq h, Tally.keys_toCounts]
  simp only [Tally.get?_toCounts, groupsBy]

/-! ### Grouped notices -/

theorem get?_foldl_addToGroup (ns : List Notice) (m : KeyMap (List Notice)) (k : Key) :
    ((ns.foldl addToGroup m).get? k).getD []
      = (m.get? k).getD [] ++ ns.filter fun n => n.key = k := by
  induction ns generalizing m with
  | nil => simp
  | cons n ns ih =>
    rw [List.foldl_cons, ih, addToGroup, KeyMap.get?_alter]
    by_cases hn : n.key = k
    · simp [hn]
    · simp [hn]

theorem mem_keys_foldl_addToGroup {ns : List Notice} {m : KeyMap (List Notice)} {k : Key} :
    k ∈ (ns.foldl addToGroup m).keys ↔ k ∈ m.keys ∨ k ∈ ns.map (·.key) := by
  induction ns generalizing m with
  | nil => simp
  | cons n ns ih =>
    rw [List.foldl_cons, ih, addToGroup, KeyMap.mem_keys_alter, List.map_cons, List.mem_cons,
      or_left_comm, or_assoc]

/-- Grouping collects the notices of each key that occurs, in the order of the keys. -/
theorem groupNotices_eq (ns : List Notice) :
    groupNotices ns
      = (Key.sort (ns.map (·.key)).dedup).map fun k => (k, ns.filter fun n => n.key = k) := by
  have hkeys : Key.sort (ns.foldl addToGroup {}).keys = Key.sort (ns.map (·.key)).dedup := by
    apply Key.sort_eq_of_mem_iff (KeyMap.nodup_keys _) (List.nodup_dedup _)
    intro k
    simp [mem_keys_foldl_addToGroup]
  rw [groupNotices, KeyMap.sorted_eq_map _ [], hkeys]
  apply List.map_congr_left
  intro k _
  rw [get?_foldl_addToGroup]
  rfl

/-- Only the notices of each key matter for the groups, not how keys take turns. -/
theorem groupNotices_congr {ns ms : List Notice}
    (h : ∀ k, (ns.filter fun n => n.key = k) = ms.filter fun n => n.key = k) :
    groupNotices ns = groupNotices ms := by
  have hmem : ∀ k, k ∈ ns.map (·.key) ↔ k ∈ ms.map (·.key) := by
    intro k
    have hne := congrArg (· ≠ []) (h k)
    simpa [List.filter_eq_nil_iff] using hne
  have hkeys : Key.sort (ns.map (·.key)).dedup = Key.sort (ms.map (·.key)).dedup := by
    apply Key.sort_eq_of_mem_iff (List.nodup_dedup _) (List.nodup_dedup _)
    intro k
    rw [List.mem_dedup, List.mem_dedup, hmem]
  rw [groupNotices_eq, groupNotices_eq, hkeys]
  apply List.map_congr_left
  intro k _
  rw [h]

/-- The document of notices of which each one counts: every group with its size and the first
`limit` contexts. -/
def groupsOf (limit : Nat) (ns : List Notice) : List Group :=
  (groupNotices ns).map fun g => ⟨g.1, g.2.length, (g.2.map (·.context)).take limit⟩

/-- Notices that stand for all those that have been counted are exported as the document of these,
provided that they begin with the same contexts. -/
theorem exportNotices_eq_groupsOf {ns all : List Notice} {t : Tally} {limit shown : Nat}
    (ht : t.Counts (all.map (·.key))) (hns : ∀ n ∈ ns, n ∈ all)
    (hfirst : ∀ k, (contextsOf k ns).take limit = (contextsOf k all).take shown) :
    exportNotices ns t.toCounts limit = .ok (groupsOf shown all) := by
  have hcounted : ∀ n ∈ ns, n.key ∈ t.keys := by
    intro n hn
    rw [ht.keys]
    exact List.mem_map_of_mem (hns n hn)
  have hkeys : Key.sort t.keys = Key.sort (all.map (·.key)).dedup := by
    apply Key.sort_eq_of_mem_iff t.nodup_keys (List.nodup_dedup _)
    intro k
    rw [ht.keys, List.mem_dedup]
  have hcount : ∀ k, t.count k = (all.filter fun n => n.key = k).length := by
    intro k
    rw [ht.count, List.count, List.countP_map, List.countP_eq_length_filter]
    rfl
  rw [exportNotices_toCounts hcounted, groupsBy, hkeys, groupsOf, groupNotices_eq, List.map_map]
  congr 1
  apply List.map_congr_left
  intro k _
  rw [hcount, hfirst]
  rfl

/-! ### Recorders -/

namespace Recorder

/-- The contexts that a document of the recorder shows for a key. -/
def samplesOf (r : Recorder) (k : Key) : List Json :=
  (((r.retained.toList.filter fun n => n.key = k).map (·.context))).take r.limits.samples

/-- What holds of the recorders that calls with notices that have been built lead to. -/
structure IsSound (r : Recorder) : Prop where
  counted : ∀ n ∈ r.retained.toList, n.key ∈ r.tally.keys
  normal : ∀ n ∈ r.retained.toList, n.context.IsNormal

/-- Every change by a built notice keeps a recorder sound. -/
theorem invariant_isSound : Invariant Notice.IsBuilt IsSound where
  fresh l := ⟨nofun, nofun⟩
  addValidation {r n} hn h := by
    constructor
    · intro m hm
      rw [tally_addValidation]
      rcases mem_retained_addValidation r n hm with hm | ⟨rfl, hroom⟩
      · split
        · exact Tally.mem_keys_add.2 (Or.inr (h.counted m hm))
        · exact h.counted m hm
      · rw [if_pos hroom]
        exact Tally.mem_keys_add.2 (Or.inl rfl)
    · intro m hm
      rcases mem_retained_addValidation r n hm with hm | ⟨rfl, _⟩
      · exact h.normal m hm
      · exact hn.isNormal
  addSystem {r e} _ h := ⟨h.counted, h.normal⟩
  absorb {r other} h ho := by
    have hmem : ∀ n ∈ (r.absorb other).retained.toList,
        n ∈ r.retained.toList ∨ n ∈ other.retained.toList := by
      intro n hn
      rw [toList_retained_absorb] at hn
      exact List.mem_append.1 hn
    constructor
    · intro n hn
      rw [absorb, Tally.mem_keys_merge]
      exact (hmem n hn).imp (h.counted n) (ho.counted n)
    · intro n hn
      exact (hmem n hn).elim (h.normal n) (ho.normal n)
  consume {r} h := ⟨h.counted, h.normal⟩

/-- The document of a sound recorder has one group for each counted key. -/
theorem exportValidation_eq {r : Recorder} (h : r.IsSound) :
    r.exportValidation = .ok ((Key.sort r.tally.keys).map fun k =>
      ⟨k, r.tally.count k, r.samplesOf k⟩) := by
  have hcounted : ∀ n ∈ r.retained.toList.map Notice.validation, n.key ∈ r.tally.keys := by
    intro n hn
    obtain ⟨m, hm, rfl⟩ := List.mem_map.mp hn
    exact h.counted m hm
  rw [exportValidation, exportNotices_toCounts hcounted]
  simp only [groupsBy, contextsOf_map_validation, samplesOf]

/-- A recorder that has counted a run and keeps the first notices of each key in it exports the
document of the run. -/
theorem exportValidation_eq_groupsOf {r : Recorder} {ns : List ValidationNotice} {shown : Nat}
    (ht : r.tally.Counts (ns.map (·.key))) (hns : ∀ n ∈ r.retained.toList, n ∈ ns)
    (hfirst : ∀ k, (r.retained.toList.filter fun n => n.key = k).take r.limits.samples
      = (ns.filter fun n => n.key = k).take shown) :
    r.exportValidation = .ok (groupsOf shown (ns.map .validation)) := by
  apply exportNotices_eq_groupsOf
  · rw [List.map_map]
    exact ht
  · intro n hn
    obtain ⟨m, hm, rfl⟩ := List.mem_map.mp hn
    exact List.mem_map_of_mem (hns m hm)
  · intro k
    rw [contextsOf_map_validation, contextsOf_map_validation, ← List.map_take, hfirst,
      List.map_take]

/-- A recorder that has counted its system errors exports the document of these. -/
theorem exportSystem_eq_groupsOf {r : Recorder} {es : List SystemError}
    (ht : r.systemTally.Counts (es.map (·.key))) (hes : r.systemErrors.toList = es) :
    r.exportSystem = .ok (groupsOf r.limits.samples (es.map .system)) := by
  rw [exportSystem, hes]
  apply exportNotices_eq_groupsOf
  · rw [List.map_map]
    exact ht
  · exact fun n hn => hn
  · exact fun k => rfl

end Recorder

end NoticeLedger

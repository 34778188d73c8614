import NoticeLedger.Proofs.Exports
import NoticeLedger.Proofs.Outcomes

/-!
# Documents made group by group

Samples are taken in one pass over the notices, and each sample list is cut while it is filled. The
same document comes from grouping the notices first and cutting each group after that: the document
has a group for each counted key, with the first notices of the group of the key as its samples. A
notice of a key that is not counted stands against a document, and the least such key is told
(`exportNotices_by_groups`).
-/

namespace NoticeLedger

/-! ### Groups and keys without a count -/

/-- The notices in the group of a key, none if there is no such group. -/
def groupAt (ns : List Notice) (k : Key) : List Notice :=
  ((groupNotices ns).lookup k).getD []

theorem lookup_map_key {α : Type} {ks : List Key} {f : Key → α} (k : Key) :
    (ks.map fun k => (k, f k)).lookup k = if k ∈ ks then some (f k) else none := by
  induction ks with
  | nil => rfl
  | cons a ks ih =>
    rw [List.map_cons, List.lookup_cons, ih]
    by_cases h : k = a
    · simp [h]
    · have hbeq : (k == a) = false := beq_eq_false_iff_ne.mpr h
      simp [hbeq, h]

theorem groupAt_eq (ns : List Notice) (k : Key) :
    groupAt ns k = ns.filter fun n => n.key = k := by
  rw [groupAt, groupNotices_eq, lookup_map_key]
  split
  · rfl
  · rename_i h
    rw [Key.mem_sort, List.mem_dedup] at h
    rw [Option.getD_none, eq_comm, List.filter_eq_nil_iff]
    rintro n hn hk
    exact h (List.mem_map.mpr ⟨n, hn, of_decide_eq_true hk⟩)

theorem contextsOf_eq (k : Key) (ns : List Notice) :
    contextsOf k ns = (groupAt ns k).map (·.context) := by
  rw [groupAt_eq, contextsOf]

/-- A notice is of the key, but the key has no count. -/
def IsUncounted (ns : List Notice) (counts : KeyMap Int) (k : Key) : Prop :=
  (∃ n ∈ ns, n.key = k) ∧ k ∉ counts.keys

/-! ### Samples -/

namespace Export

theorem groupOf_eq_error_iff {counts : KeyMap Int} {entry : Key × List Json} {fault : ExportFault} :
    groupOf counts entry = .error fault ↔ entry.1 ∉ counts.keys ∧ fault = .uncounted entry.1 := by
  rw [groupOf, KeyMap.mem_keys_iff]
  cases counts.get? entry.1 with
  | none => simp [eq_comm]
  | some total => simp

theorem exists_groupOf_iff {counts : KeyMap Int} {entry : Key × List Json} :
    (∃ g, groupOf counts entry = .ok g) ↔ entry.1 ∈ counts.keys := by
  rw [groupOf, KeyMap.mem_keys_iff]
  cases counts.get? entry.1 with
  | none => simp
  | some total => simp

/-- Samples are kept for the counted keys and for the keys of the notices. -/
theorem mem_keys_samples {limit : Nat} {ns : List Notice} {counts : KeyMap Int} {k : Key} :
    k ∈ (ns.foldl (addSample limit) (noSamples counts)).keys
      ↔ k ∈ counts.keys ∨ IsUncounted ns counts k := by
  have hkeys : ∀ m : KeyMap (List Json),
      k ∈ (ns.foldl (addSample limit) m).keys ↔ k ∈ m.keys ∨ ∃ n ∈ ns, n.key = k := by
    intro m
    induction ns generalizing m with
    | nil => simp
    | cons n ns ih =>
      rw [List.foldl_cons, ih, addSample, KeyMap.mem_keys_alter, List.exists_mem_cons_iff,
        or_left_comm, or_assoc, eq_comm]
  have hempty : k ∈ (noSamples counts).keys ↔ k ∈ counts.keys := by
    rw [KeyMap.mem_keys_iff, get?_noSamples]
    split <;> simp_all
  rw [hkeys, hempty, IsUncounted]
  tauto

end Export

/-! ### Documents -/

section

variable {ns : List Notice} {counts : KeyMap Int} {limit : Nat}

/-- The groups of a document are made one after another, in ascending order of the keys that are
counted or that a notice is of. -/
theorem exists_exportNotices_eq_collect (ns : List Notice) (counts : KeyMap Int) (limit : Nat) :
    ∃ entries : List (Key × List Json),
      exportNotices ns counts limit = collect (entries.map (Export.groupOf counts)) ∧
      ((entries.map (·.1)).Pairwise fun a b => Key.lt a b = true) ∧
      ∀ k, k ∈ entries.map (·.1) ↔ k ∈ counts.keys ∨ IsUncounted ns counts k := by
  have hlimit : ¬(limit : Int) < 0 := Int.not_lt.mpr (Int.natCast_nonneg limit)
  refine ⟨_, ?_, KeyMap.pairwise_keys_sorted
    (ns.foldl (Export.addSample limit) (Export.noSamples counts)), fun k => ?_⟩
  · rw [exportNotices, if_neg hlimit]
    rfl
  · rw [KeyMap.keys_sorted, Key.mem_sort, Export.mem_keys_samples]

/-- A document is not made exactly if a key has no count. -/
theorem exists_exportNotices_error_iff :
    (∃ fault, exportNotices ns counts limit = .error fault) ↔ ∃ k, IsUncounted ns counts k := by
  obtain ⟨entries, hexport, -, hmem⟩ := exists_exportNotices_eq_collect ns counts limit
  rw [hexport]
  constructor
  · rintro ⟨fault, hfault⟩
    obtain ⟨before, entry, after, rfl, -, hentry⟩ := collect_map_eq_error_iff.mp hfault
    have hnot := (Export.groupOf_eq_error_iff.mp hentry).1
    exact ⟨entry.1, ((hmem entry.1).mp (by simp)).resolve_left hnot⟩
  · rintro ⟨k, hk⟩
    cases hcollect : collect (entries.map (Export.groupOf counts)) with
    | error fault => exact ⟨fault, rfl⟩
    | ok groups =>
      obtain ⟨entry, hentry, rfl⟩ := List.mem_map.mp ((hmem k).mpr (Or.inr hk))
      have hgroup := exists_collect_map_ok_iff.mp ⟨groups, hcollect⟩ entry hentry
      exact absurd (Export.exists_groupOf_iff.mp hgroup) hk.2

/-- The least key without a count decides a failure. -/
theorem exportNotices_eq_error_iff {fault : ExportFault} :
    exportNotices ns counts limit = .error fault ↔
      ∃ k, fault = .uncounted k ∧ IsUncounted ns counts k ∧
        ∀ k', IsUncounted ns counts k' → Key.le k k' = true := by
  obtain ⟨entries, hexport, hascending, hmem⟩ := exists_exportNotices_eq_collect ns counts limit
  rw [hexport, collect_map_eq_error_iff]
  simp only [Export.groupOf_eq_error_iff, Export.exists_groupOf_iff]
  constructor
  · rintro ⟨before, entry, after, rfl, hbefore, hentry, rfl⟩
    refine ⟨entry.1, rfl, ((hmem entry.1).mp (by simp)).resolve_left hentry, fun k hk => ?_⟩
    obtain ⟨other, hother, rfl⟩ := List.mem_map.mp ((hmem k).mpr (Or.inr hk))
    rcases List.mem_append.mp hother with hin | hin
    · exact absurd (hbefore other hin) hk.2
    · rcases List.mem_cons.mp hin with rfl | hin
      · exact Key.le_refl other.1
      · rw [List.pairwise_map] at hascending
        have hafter := (List.pairwise_append.mp hascending).2.1
        exact Key.le_of_lt ((List.pairwise_cons.mp hafter).1 other hin)
  · rintro ⟨k, rfl, hk, hleast⟩
    obtain ⟨entry, hentry, rfl⟩ := List.mem_map.mp ((hmem k).mpr (Or.inr hk))
    obtain ⟨before, after, rfl⟩ := List.append_of_mem hentry
    refine ⟨before, entry, after, rfl, fun b hb => ?_, hk.2, rfl⟩
    refine ((hmem b.1).mp (List.mem_map_of_mem (List.mem_append_left _ hb))).resolve_right ?_
    -- A key in front of the least one would be less than it.
    intro hb'
    rw [List.pairwise_map] at hascending
    have hlt := (List.pairwise_append.mp hascending).2.2 b hb entry (List.mem_cons_self ..)
    have hle := hleast b.1 hb'
    rw [Key.le, hlt] at hle
    cases hle

end

/-- Exporting in one pass gives what grouping first gives: a group for each counted key, in
ascending order, with the count of the key and the contexts of the first notices of its group. A
negative maximum is refused whatever is to be exported; otherwise there is no document exactly if a
notice is of a key without a count, and the least such key is told. -/
theorem exportNotices_by_groups (ns : List Notice) (counts : KeyMap Int) (limit : Int) :
    (limit < 0 → ∃ fault, exportNotices ns counts limit = .error fault ∧
      fault.message = "max_export_per_notice_type must be >= 0") ∧
    (0 ≤ limit →
      ((∃ fault, exportNotices ns counts limit = .error fault) ↔
        ∃ n ∈ ns, n.key ∉ counts.keys) ∧
      (∀ fault, exportNotices ns counts limit = .error fault →
        ∃ k, fault = .uncounted k ∧ IsUncounted ns counts k ∧
          ∀ k', IsUncounted ns counts k' → Key.le k k' = true) ∧
      ((∀ n ∈ ns, n.key ∈ counts.keys) → ∃ groups, exportNotices ns counts limit = .ok groups ∧
        (∀ k, k ∈ groups.map (·.key) ↔ k ∈ counts.keys) ∧
        ((groups.map (·.key)).Pairwise fun a b => Key.lt a b = true) ∧
        ∀ g ∈ groups, counts.get? g.key = some g.total ∧
          g.samples = ((groupAt ns g.key).take limit.toNat).map (·.context))) := by
  constructor
  · intro hlimit
    refine ⟨.negativeMaximum, ?_, rfl⟩
    rw [exportNotices, if_pos hlimit]
  · intro hlimit
    obtain ⟨limit, rfl⟩ := Int.eq_ofNat_of_zero_le hlimit
    refine ⟨?_, fun fault => exportNotices_eq_error_iff.mp, fun hcounted => ?_⟩
    · rw [exists_exportNotices_error_iff]
      constructor
      · rintro ⟨k, ⟨n, hn, rfl⟩, hk⟩
        exact ⟨n, hn, hk⟩
      · rintro ⟨n, hn, hk⟩
        exact ⟨n.key, ⟨n, hn, rfl⟩, hk⟩
    · refine ⟨_, exportNotices_eq hcounted limit, ?_, ?_, ?_⟩
      · intro k
        simp [Key.mem_sort]
      · rw [List.map_map]
        exact (List.map_id' _).symm ▸ Key.pairwise_sort counts.nodup_keys
      · intro g hg
        obtain ⟨k, hk, rfl⟩ := List.mem_map.mp hg
        obtain ⟨total, htotal⟩ := Option.isSome_iff_exists.mp
          (KeyMap.mem_keys_iff.mp (Key.mem_sort.mp hk))
        refine ⟨?_, ?_⟩
        · rw [htotal]
          rfl
        · rw [contextsOf_eq, List.map_take]
          rfl

end NoticeLedger

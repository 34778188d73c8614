import NoticeLedger.Proofs.GroupDocuments
import NoticeLedger.Proofs.Retention

/-!
# What a document shows of a run

While there is room for all the notices that are wanted, the document of a recorder is that of the
whole run: every notice counts, and of each key the first contexts are shown, as many as are both
kept and reported (`Recorder.KeepsAccepted.exportValidation_eq`). How the notices of different
keys take turns makes no difference (`Recorder.exportValidation_eq_of_filter_eq`).
-/

namespace NoticeLedger

namespace Recorder

theorem KeepsAccepted.exportValidation_eq {l : Limits} {ns : List ValidationNotice} {r : Recorder}
    (h : KeepsAccepted l ns r) (hroom : demand l.perKey ns < l.total) :
    r.exportValidation = .ok (groupsOf l.effectiveSamples (ns.map .validation)) := by
  have hcounts := h.counts
  have hretained := h.retained
  rw [accepted_of_lt hroom] at hcounts hretained
  apply exportValidation_eq_groupsOf hcounts
  · intro n hn
    rw [hretained] at hn
    exact (firstOfKeys_sublist l.perKey ns).subset hn
  · intro k
    rw [hretained, filter_firstOfKeys, h.limits, List.take_take, Limits.effectiveSamples,
      Nat.min_comm]

/-- Runs with the same notices of every key lead to the same document, and so to the same text,
however the keys take turns, as long as there is room for all the notices that are wanted. It has a
text if the contexts and counts can be written. -/
theorem exportValidation_eq_of_filter_eq (l : Limits) {ns ms : List ValidationNotice}
    (hsame : ∀ k, (ns.filter fun n => n.key = k) = ms.filter fun n => n.key = k)
    (hroom : demand l.perKey ns < l.total) :
    ∃ groups, (ns.foldl addValidation (fresh l)).exportValidation = .ok groups ∧
      (ms.foldl addValidation (fresh l)).exportValidation = .ok groups ∧
      ((∀ k, Value.isConvertible (occurrences k ns) = true) →
        (∀ n ∈ ns, n.context.IsProper ∧ n.context.IsShort) →
        ∃ text, documentText? groups = .ok text) := by
  have hoccurrences : ∀ k, occurrences k ns = occurrences k ms := by
    intro k
    rw [occurrences_eq_length_filter, occurrences_eq_length_filter, hsame]
  have hroom' : demand l.perKey ms < l.total := by
    rwa [← demand_congr l.perKey hoccurrences]
  have hgroups : groupsOf l.effectiveSamples (ns.map .validation)
      = groupsOf l.effectiveSamples (ms.map .validation) := by
    rw [groupsOf, groupsOf]
    congr 1
    apply groupNotices_congr
    intro k
    rw [filter_map_validation, filter_map_validation, hsame]
  refine ⟨_, (KeepsAccepted.foldl l ns).exportValidation_eq hroom, ?_, fun hcount hcontext => ?_⟩
  · rw [hgroups]
    exact (KeepsAccepted.foldl l ms).exportValidation_eq hroom'
  · apply exists_documentText?_groupsOf
    · intro k
      rw [filter_map_validation, List.length_map, ← occurrences_eq_length_filter]
      exact hcount k
    · intro n hn
      obtain ⟨m, hm, rfl⟩ := List.mem_map.mp hn
      exact hcontext m hm

/-- A warning about a row. -/
def staleRow (row : Int) : ValidationNotice := ⟨⟨"row_stale", by decide⟩, .warning, .int row⟩

/-- An error without a context. -/
def emptyFile : ValidationNotice := ⟨⟨"file_empty", by decide⟩, .error, .null⟩

/-- Two runs in which the keys take turns differently. -/
def scans : List ValidationNotice × List ValidationNotice :=
  ([emptyFile, staleRow 1, staleRow 2, staleRow 3],
    [staleRow 1, staleRow 2, emptyFile, staleRow 3])

theorem exportValidation_eq_scans :
    (∀ k, (scans.1.filter fun n => n.key = k) = scans.2.filter fun n => n.key = k) ∧
    demand 2 scans.1 < 4 ∧
    (scans.1.foldl addValidation (fresh ⟨4, 2, 1⟩)).retained.toList.map (·.key)
      ≠ (scans.2.foldl addValidation (fresh ⟨4, 2, 1⟩)).retained.toList.map (·.key) ∧
    ∃ groups text, (scans.1.foldl addValidation (fresh ⟨4, 2, 1⟩)).exportValidation = .ok groups ∧
      (scans.2.foldl addValidation (fresh ⟨4, 2, 1⟩)).exportValidation = .ok groups ∧
      documentText? groups = .ok text ∧
      groups.map (fun g => (g.total, g.samples.length)) = [(1, 1), (3, 1)] := by
  have hsame : ∀ k, (scans.1.filter fun n => n.key = k) = scans.2.filter fun n => n.key = k := by
    intro k
    have hstale : ∀ row, (staleRow row).key = (staleRow 1).key := fun _ => rfl
    have hne : emptyFile.key ≠ (staleRow 1).key := by decide
    by_cases hk : emptyFile.key = k
    · subst hk
      simp [scans, hstale 2, hstale 3, hne.symm]
    · by_cases hrow : (staleRow 1).key = k
      · simp [scans, hstale 2, hstale 3, hk, hrow]
      · simp [scans, hstale 2, hstale 3, hk, hrow]
  have hroom : demand 2 scans.1 < 4 := by decide +kernel
  obtain ⟨groups, hfirst, hsecond, htext⟩ := exportValidation_eq_of_filter_eq ⟨4, 2, 1⟩ hsame hroom
  have hcount : ∀ k, Value.isConvertible (occurrences k scans.1) = true := by
    intro k
    have hlen : occurrences k scans.1 ≤ 4 := by
      rw [occurrences_eq_length_filter]
      exact List.length_filter_le _ _
    apply Value.isConvertible_of_lt
    omega
  have hcontext : ∀ n ∈ scans.1, n.context.IsProper ∧ n.context.IsShort := by
    have hrow : ∀ row : Int, row.natAbs < 10 →
        (staleRow row).context.IsProper ∧ (staleRow row).context.IsShort := fun row h =>
      ⟨.intro trivial nofun, .intro (Value.isConvertible_of_lt h) nofun⟩
    have hempty : emptyFile.context.IsProper ∧ emptyFile.context.IsShort :=
      ⟨.intro trivial nofun, .intro trivial nofun⟩
    simp only [scans, List.mem_cons, List.not_mem_nil, or_false, forall_eq_or_imp, forall_eq]
    exact ⟨hempty, hrow 1 (by decide), hrow 2 (by decide), hrow 3 (by decide)⟩
  obtain ⟨text, htext⟩ := htext hcount hcontext
  have hshown : ((scans.1.foldl addValidation (fresh ⟨4, 2, 1⟩)).exportValidation.toOption.map
      fun groups => groups.map fun g => (g.total, g.samples.length))
      = some [(1, 1), (3, 1)] := by
    -- The keys have come in ascending order.
    have hascending : ((scans.1.map Notice.validation).map (·.key)).dedup.Pairwise
        fun a b => Key.le a b = true := by decide +kernel
    rw [(KeepsAccepted.foldl ⟨4, 2, 1⟩ scans.1).exportValidation_eq hroom, groupsOf,
      groupNotices_eq, Key.sort, List.mergeSort_of_pairwise hascending]
    decide +kernel
  rw [hfirst] at hshown
  exact ⟨hsame, hroom, by decide +kernel, groups, text, hfirst, hsecond, htext,
    Option.some.inj hshown⟩

end Recorder

end NoticeLedger

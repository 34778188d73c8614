import NoticeLedger.Proofs.Exports
import NoticeLedger.Proofs.Retention

/-!
# Consistent recorders

Lists and tallies of a recorder stay in step, whatever calls lead to it
(`Recorder.IsConsistent`, `Roster.isConsistent_of_mem_performAll`). Of a key no more notices are
kept than have counted, and no fewer than have counted up to the limit of one key. When a recorder
takes over another one, both sides add up, so that more notices than the limit may be left; the
recorder then keeps no further notice of the key, but goes on counting.

A tally that covers notices is all that a document of them needs (`Tally.Covers.exportNotices_eq`),
so both documents of a recorder can always be exported.
-/

namespace NoticeLedger

/-! ### Covered notices -/

/-- The tally has counted all of the notices and nothing in vain. -/
structure Tally.Covers (t : Tally) (ns : List Notice) : Prop where
  le : ∀ k, (ns.filter fun n => n.key = k).length ≤ t.count k
  pos : ∀ k ∈ t.keys, 1 ≤ t.count k

namespace Tally.Covers

variable {t : Tally} {ns : List Notice}

theorem mem_keys (h : t.Covers ns) {n : Notice} (hn : n ∈ ns) : n.key ∈ t.keys := by
  by_contra hk
  have hle := h.le n.key
  rw [count_eq_zero hk, Nat.le_zero, List.length_eq_zero_iff] at hle
  have hmem : n ∈ ns.filter fun m => m.key = n.key := List.mem_filter.2 ⟨hn, by simp⟩
  simp [hle] at hmem

theorem exportNotices_eq (h : t.Covers ns) (limit : Nat) :
    exportNotices ns t.toCounts limit = .ok (groupsBy t ns limit) :=
  exportNotices_toCounts (fun _ hn => h.mem_keys hn) limit

/-- No group of a document shows more than it counts. -/
theorem length_samples_le (h : t.Covers ns) {limit : Nat} {g : Group}
    (hg : g ∈ groupsBy t ns limit) : (g.samples.length : Int) ≤ g.total ∧ 1 ≤ g.total := by
  obtain ⟨k, hk, rfl⟩ := List.mem_map.1 hg
  have hle := h.le k
  have hpos := h.pos k (Key.mem_sort.1 hk)
  simp only [contextsOf, List.length_take, List.length_map]
  omega

end Tally.Covers

/-! ### Lists and tallies in step -/

namespace Recorder

variable {p : Nat} {r other : Recorder} {n : ValidationNotice} {e : SystemError}

theorem occurrences_retained_addValidation (r : Recorder) (n : ValidationNotice) (k : Key) :
    occurrences k (r.addValidation n).retained.toList
      = occurrences k r.retained.toList +
        if r.retained.size < r.limits.total ∧ r.tally.count k < r.limits.perKey ∧ n.key = k
        then 1 else 0 := by
  rw [toList_retained_addValidation]
  by_cases hk : n.key = k
  · subst hk
    split <;> rename_i hkeep <;> simp [occurrences_concat, hkeep]
  · split <;> simp [occurrences_concat, hk]

/-- The lists and the tallies of a recorder that keeps at least `p` notices of each key are in
step. -/
structure IsConsistent (p : Nat) (r : Recorder) : Prop where
  perKey : p ≤ r.limits.perKey
  counts : ∃ ks, r.tally.Counts ks
  kept_le : ∀ k, occurrences k r.retained.toList ≤ r.tally.count k
  le_kept : ∀ k, min (r.tally.count k) p ≤ occurrences k r.retained.toList
  errors : r.HoldsErrors r.systemErrors.toList
  sawError : ∀ k ∈ r.tally.keys, k.severity = .error → r.sawError = true

namespace IsConsistent

theorem fresh {l : Limits} (h : p ≤ l.perKey) : IsConsistent p (fresh l) where
  perKey := h
  counts := ⟨[], .empty⟩
  kept_le _ := Nat.le_refl _
  le_kept _ := Nat.min_le_left _ _
  errors := .fresh l
  sawError := nofun

theorem addValidation (h : r.IsConsistent p) : (r.addValidation n).IsConsistent p := by
  have hp := h.perKey
  constructor
  case perKey =>
    rw [limits_addValidation]
    exact hp
  case counts =>
    obtain ⟨ks, hks⟩ := h.counts
    rw [tally_addValidation]
    split
    · exact ⟨_, hks.add n.key⟩
    · exact ⟨ks, hks⟩
  case kept_le =>
    -- A notice that is kept counts as well.
    intro k
    have hle := h.kept_le k
    rw [occurrences_retained_addValidation, count_tally_addValidation]
    grind
  case le_kept =>
    -- A notice that counts is kept unless the limit of its key, and so `p`, has been reached.
    intro k
    have hle := h.le_kept k
    rw [occurrences_retained_addValidation, count_tally_addValidation]
    grind
  case errors =>
    rw [systemErrors_addValidation]
    exact h.errors.addValidation n
  case sawError =>
    intro k hk hseverity
    rw [sawError_addValidation, Bool.or_eq_true]
    rcases (mem_keys_tally_addValidation r n).1 hk with ⟨rfl, _⟩ | hk
    · exact Or.inr (beq_iff_eq.2 hseverity)
    · exact Or.inl (h.sawError k hk hseverity)

theorem addSystem (h : r.IsConsistent p) : (r.addSystem e).IsConsistent p where
  perKey := h.perKey
  counts := h.counts
  kept_le := h.kept_le
  le_kept := h.le_kept
  errors := by
    rw [toList_systemErrors_addSystem]
    exact h.errors.addSystem e
  sawError := h.sawError

theorem absorb (h : r.IsConsistent p) (h' : other.IsConsistent p) :
    (r.absorb other).IsConsistent p := by
  constructor
  case perKey => exact h.perKey
  case counts =>
    obtain ⟨ks, hks⟩ := h.counts
    obtain ⟨ls, hls⟩ := h'.counts
    exact ⟨_, hks.merge hls⟩
  case kept_le =>
    intro k
    rw [toList_retained_absorb, occurrences_append, count_tally_absorb]
    exact Nat.add_le_add (h.kept_le k) (h'.kept_le k)
  case le_kept =>
    intro k
    have hle := h.le_kept k
    have hle' := h'.le_kept k
    rw [toList_retained_absorb, occurrences_append, count_tally_absorb]
    omega
  case errors =>
    rw [toList_systemErrors_absorb]
    exact h.errors.absorb h'.errors
  case sawError =>
    intro k hk hseverity
    rw [sawError_absorb, Bool.or_eq_true]
    exact (Tally.mem_keys_merge.1 hk).imp (h.sawError k · hseverity) (h'.sawError k · hseverity)

theorem consume (h : r.IsConsistent p) : r.consume.IsConsistent p :=
  ⟨h.perKey, h.counts, h.kept_le, h.le_kept, ⟨h.errors.errors, h.errors.counts⟩, h.sawError⟩

theorem stable : Stable (fun _ => True) (IsConsistent p) where
  addValidation _ h := h.addValidation
  addSystem _ h := h.addSystem
  absorb h h' := h.absorb h'
  consume h := h.consume

/-! ### Documents -/

theorem covers_retained (h : r.IsConsistent p) :
    r.tally.Covers (r.retained.toList.map .validation) := by
  obtain ⟨ks, hks⟩ := h.counts
  refine ⟨fun k => ?_, fun k hk => hks.pos hk⟩
  rw [filter_map_validation, List.length_map, ← occurrences_eq_length_filter]
  exact h.kept_le k

theorem length_filter_systemErrors (h : r.IsConsistent p) (k : Key) :
    (r.systemErrors.toList.filter fun e => e.key = k).length = r.systemTally.count k := by
  rw [h.errors.counts.count, List.count, List.countP_map, List.countP_eq_length_filter]
  rfl

theorem covers_systemErrors (h : r.IsConsistent p) :
    r.systemTally.Covers (r.systemErrors.toList.map .system) := by
  refine ⟨fun k => ?_, fun k hk => h.errors.counts.pos hk⟩
  rw [List.filter_map, List.length_map, ← h.length_filter_systemErrors k]
  rfl

theorem exportValidation_eq (h : r.IsConsistent p) :
    r.exportValidation
      = .ok (groupsBy r.tally (r.retained.toList.map .validation) r.limits.samples) :=
  h.covers_retained.exportNotices_eq _

theorem exportSystem_eq (h : r.IsConsistent p) :
    r.exportSystem
      = .ok (groupsBy r.systemTally (r.systemErrors.toList.map .system) r.limits.samples) :=
  h.covers_systemErrors.exportNotices_eq _

end IsConsistent

end Recorder

/-! ### Runs -/

namespace Roster

variable {s : Roster} {p : Nat}

theorem isConsistent_of_mem_performAll (hnew : s.IsNew)
    (hp : ∀ r ∈ s.recorders, p ≤ r.limits.perKey) (cs : List Call) :
    ∀ r ∈ (s.performAll cs).recorders, r.IsConsistent p := by
  refine Recorder.IsConsistent.stable.forall_performAll (fun r hr => ?_) fun _ _ _ _ => trivial
  have hr' := hp r hr
  obtain ⟨l, rfl⟩ := hnew r hr
  exact .fresh hr'

/-- If every recorder may keep `p` notices of a key or more, every recorder that calls lead to keeps
no more notices of a key than have counted, and no fewer than have counted up to `p`. What is in a
tally has counted, the system errors are counted one by one, and a counted error is remembered. Both
documents can be exported, and no group shows more than it counts. -/
theorem inStep_of_mem_performAll (hnew : s.IsNew)
    (hp : ∀ r ∈ s.recorders, p ≤ r.limits.perKey) {cs : List Call} {r : Recorder}
    (hr : r ∈ (s.performAll cs).recorders) :
    (∀ k, occurrences k r.retained.toList ≤ r.tally.count k ∧
      min (r.tally.count k) p ≤ occurrences k r.retained.toList) ∧
    (∀ k ∈ r.tally.keys, 1 ≤ r.tally.count k) ∧
    (∀ k ∈ r.systemTally.keys, 1 ≤ r.systemTally.count k) ∧
    (∀ k, r.systemTally.count k = (r.systemErrors.toList.filter fun e => e.key = k).length) ∧
    (∀ k ∈ r.tally.keys, k.severity = .error → r.sawError = true) ∧
    ∃ groups errors, r.exportValidation = .ok groups ∧ r.exportSystem = .ok errors ∧
      ∀ g ∈ groups ++ errors, (g.samples.length : Int) ≤ g.total ∧ 1 ≤ g.total := by
  have h := isConsistent_of_mem_performAll hnew hp cs r hr
  refine ⟨fun k => ⟨h.kept_le k, h.le_kept k⟩, h.covers_retained.pos, h.covers_systemErrors.pos,
    fun k => (h.length_filter_systemErrors k).symm, h.sawError, _, _, h.exportValidation_eq,
    h.exportSystem_eq, fun g hg => ?_⟩
  rcases List.mem_append.1 hg with hg | hg
  · exact h.covers_retained.length_samples_le hg
  · exact h.covers_systemErrors.length_samples_le hg

/-- Two recorders that keep one notice of each key. -/
def scales : Roster :=
  (({ } : Roster).openRecorder ⟨2, 1, 1⟩).openRecorder ⟨5, 1, 3⟩

/-- A warning about a delivery. -/
def lateDelivery : ValidationNotice := ⟨⟨"delivery_late", by decide⟩, .warning, .null⟩

/-- A run in which the first recorder drops a notice, takes over the other one, which is refused the
second time, and drops one more notice as it is full. -/
def weighing : List Call :=
  let late := Notice.validation lateDelivery
  [.addValidation 0 late, .addValidation 0 late, .addValidation 1 late,
    .addSystem 1 (.system ⟨⟨"scale_stuck", by decide⟩, .null⟩), .merge 0 1, .merge 0 1,
    .addValidation 0 late]

theorem inStep_weighing :
    scales.IsNew ∧ (∀ r ∈ scales.recorders, 1 ≤ r.limits.perKey) ∧
    ∃ r ∈ (scales.performAll weighing).recorders, r.tally.count lateDelivery.key = 3 ∧
      min 3 1 ≤ occurrences lateDelivery.key r.retained.toList ∧
      occurrences lateDelivery.key r.retained.toList = 2 ∧ r.retained.size = r.limits.total ∧
      ∃ groups errors, r.exportValidation = .ok groups ∧ r.exportSystem = .ok errors ∧
        ∀ g ∈ groups ++ errors, (g.samples.length : Int) ≤ g.total ∧ 1 ≤ g.total := by
  have hnew : scales.IsNew := by simp [scales]
  have hp : ∀ r ∈ scales.recorders, 1 ≤ r.limits.perKey := by decide +kernel
  have hr : (scales.performAll weighing).recorders[0] ∈ (scales.performAll weighing).recorders :=
    List.getElem_mem _
  have hcount : (scales.performAll weighing).recorders[0].tally.count lateDelivery.key = 3 := by
    decide +kernel
  obtain ⟨hkept, -, -, -, -, hexports⟩ := inStep_of_mem_performAll hnew hp hr
  refine ⟨hnew, hp, _, hr, hcount, ?_, by decide +kernel, by decide +kernel, hexports⟩
  exact hcount ▸ (hkept lateDelivery.key).2

end Roster

end NoticeLedger

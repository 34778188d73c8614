import NoticeLedger.Proofs.Tallies
import NoticeLedger.Recorder

/-!
# Recording a notice

What adding a notice does to each part of a recorder, told by what the recorder holds before. Only
a recorder with fewer notices than its limit counts a notice (`Recorder.tally_addValidation`), and
it keeps the notice if fewer than the limit of one key have counted for its key
(`Recorder.toList_retained_addValidation`).
-/

namespace NoticeLedger.Recorder

variable (r : Recorder) (n : ValidationNotice) (e : SystemError)

/-! ### Validation notices -/

theorem isFull_eq_false_iff {r : Recorder} :
    r.isFull = false ↔ r.retained.size < r.limits.total := by
  rw [isFull, decide_eq_false_iff_not, Nat.not_le]

theorem addValidation_of_lt {r : Recorder} (h : r.retained.size < r.limits.total) :
    r.addValidation n = (r.noteError n).keep n := by
  rw [addValidation, isFull_eq_false_iff.2 h]
  rfl

theorem addValidation_of_le {r : Recorder} (h : r.limits.total ≤ r.retained.size) :
    r.addValidation n = r.noteError n :=
  if_pos (decide_eq_true h)

@[simp] theorem limits_addValidation : (r.addValidation n).limits = r.limits := by
  rw [addValidation]
  split <;> rfl

@[simp] theorem systemErrors_addValidation :
    (r.addValidation n).systemErrors = r.systemErrors := by
  rw [addValidation]
  split <;> rfl

@[simp] theorem systemTally_addValidation :
    (r.addValidation n).systemTally = r.systemTally := by
  rw [addValidation]
  split <;> rfl

@[simp] theorem sawError_addValidation :
    (r.addValidation n).sawError = (r.sawError || n.isError) := by
  rw [addValidation]
  split <;> rfl

@[simp] theorem consumed_addValidation : (r.addValidation n).consumed = r.consumed := by
  rw [addValidation]
  split <;> rfl

/-- A notice counts as long as the recorder has fewer notices than its limit. -/
theorem tally_addValidation :
    (r.addValidation n).tally
      = if r.retained.size < r.limits.total then r.tally.add n.key 1 else r.tally := by
  by_cases h : r.retained.size < r.limits.total
  · rw [if_pos h, addValidation_of_lt n h]
    rfl
  · rw [if_neg h, addValidation_of_le n (Nat.not_lt.1 h)]
    rfl

/-- A notice that counts is kept if it is among the first of its key. -/
theorem toList_retained_addValidation :
    (r.addValidation n).retained.toList
      = if r.retained.size < r.limits.total ∧ r.tally.count n.key < r.limits.perKey
        then r.retained.toList ++ [n] else r.retained.toList := by
  by_cases h : r.retained.size < r.limits.total
  · rw [addValidation_of_lt n h]
    by_cases hfew : r.tally.count n.key < r.limits.perKey
    · have hkeep : ((r.noteError n).keep n).retained = r.retained.push n := if_pos hfew
      rw [hkeep, Journal.toList_push, if_pos (And.intro h hfew)]
    · have hkeep : ((r.noteError n).keep n).retained = r.retained := if_neg hfew
      rw [hkeep, if_neg fun hboth => hfew hboth.2]
  · rw [if_neg fun hboth => h hboth.1, addValidation_of_le n (Nat.not_lt.1 h)]
    rfl

theorem count_tally_addValidation (k : Key) :
    (r.addValidation n).tally.count k
      = r.tally.count k + if r.retained.size < r.limits.total ∧ n.key = k then 1 else 0 := by
  rw [tally_addValidation]
  by_cases hroom : r.retained.size < r.limits.total
  · by_cases hk : n.key = k <;> simp [Tally.count_add, hroom, hk]
  · simp [hroom]

theorem mem_keys_tally_addValidation {k : Key} :
    k ∈ (r.addValidation n).tally.keys
      ↔ k = n.key ∧ r.retained.size < r.limits.total ∨ k ∈ r.tally.keys := by
  rw [tally_addValidation]
  by_cases hroom : r.retained.size < r.limits.total
  · simp [Tally.mem_keys_add, hroom]
  · simp [hroom]

/-- Nothing that has been kept is lost, and nothing but the notice is added. -/
theorem mem_retained_addValidation {m : ValidationNotice}
    (h : m ∈ (r.addValidation n).retained.toList) :
    m ∈ r.retained.toList ∨ m = n ∧ r.retained.size < r.limits.total := by
  rw [toList_retained_addValidation] at h
  split at h
  · rename_i hroom
    rcases List.mem_append.1 h with h | h
    · exact Or.inl h
    · exact Or.inr ⟨List.mem_singleton.1 h, hroom.1⟩
  · exact Or.inl h

/-! ### System errors -/

@[simp] theorem retained_addSystem : (r.addSystem e).retained = r.retained := rfl

@[simp] theorem tally_addSystem : (r.addSystem e).tally = r.tally := rfl

@[simp] theorem consumed_addSystem : (r.addSystem e).consumed = r.consumed := rfl

@[simp] theorem toList_systemErrors_addSystem :
    (r.addSystem e).systemErrors.toList = r.systemErrors.toList ++ [e] :=
  Journal.toList_push _ _

@[simp] theorem count_systemTally_addSystem (k : Key) :
    (r.addSystem e).systemTally.count k
      = r.systemTally.count k + if e.key = k then 1 else 0 := by
  rw [addSystem, Tally.count_add]
  split
  · rename_i h
    rw [h]
  · rfl

/-! ### Taking over -/

section Absorb

variable (other : Recorder)

@[simp] theorem consumed_absorb : (r.absorb other).consumed = r.consumed := rfl

theorem consumed_foldl_absorb (rs : List Recorder) :
    (rs.foldl absorb r).consumed = r.consumed := by
  induction rs generalizing r with
  | nil => rfl
  | cons _ _ ih => rw [List.foldl_cons, ih, consumed_absorb]

@[simp] theorem sawError_absorb :
    (r.absorb other).sawError = (r.sawError || other.sawError) := rfl

@[simp] theorem consumed_consume : r.consume.consumed = true := rfl

@[simp] theorem toList_retained_absorb :
    (r.absorb other).retained.toList = r.retained.toList ++ other.retained.toList :=
  Journal.toList_append _ _

@[simp] theorem toList_systemErrors_absorb :
    (r.absorb other).systemErrors.toList = r.systemErrors.toList ++ other.systemErrors.toList :=
  Journal.toList_append _ _

@[simp] theorem count_tally_absorb (k : Key) :
    (r.absorb other).tally.count k = r.tally.count k + other.tally.count k :=
  Tally.count_merge _ _ _

@[simp] theorem count_systemTally_absorb (k : Key) :
    (r.absorb other).systemTally.count k = r.systemTally.count k + other.systemTally.count k :=
  Tally.count_merge _ _ _

end Absorb

/-! ### Counted system errors -/

/-- The recorder holds the given system errors and has counted them. -/
structure HoldsErrors (es : List SystemError) (r : Recorder) : Prop where
  errors : r.systemErrors.toList = es
  counts : r.systemTally.Counts (es.map (·.key))

namespace HoldsErrors

variable {es fs : List SystemError} {r other : Recorder}

theorem fresh (l : Limits) : HoldsErrors [] (fresh l) :=
  ⟨rfl, .empty⟩

theorem addValidation (h : HoldsErrors es r) (n : ValidationNotice) :
    HoldsErrors es (r.addValidation n) := by
  constructor
  · rw [systemErrors_addValidation, h.errors]
  · rw [systemTally_addValidation]
    exact h.counts

theorem addSystem (h : HoldsErrors es r) (e : SystemError) :
    HoldsErrors (es ++ [e]) (r.addSystem e) := by
  constructor
  · rw [toList_systemErrors_addSystem, h.errors]
  · rw [List.map_append]
    exact h.counts.add e.key

theorem absorb (h : HoldsErrors es r) (h' : HoldsErrors fs other) :
    HoldsErrors (es ++ fs) (r.absorb other) := by
  constructor
  · rw [toList_systemErrors_absorb, h.errors, h'.errors]
  · rw [List.map_append]
    exact h.counts.merge h'.counts

end HoldsErrors

end NoticeLedger.Recorder

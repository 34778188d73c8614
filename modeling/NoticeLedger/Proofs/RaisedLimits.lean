import Mathlib.Data.List.TakeWhile
import NoticeLedger.Proofs.Sampling

/-!
# Raised limits

What two recorders with different limits make of one run. A higher limit for all notices lets the
longer front of the run count, so no number falls and what was kept stays in front. A higher limit
of one key works the other way round: more notices are wanted, the limit for all is reached no
later, and no number rises. More is kept then only of a run that never reaches the limit for all
(`Recorder.compare_of_raised`).
-/

namespace NoticeLedger

variable {l l' : Limits} {p q : Nat} {ns ms : List ValidationNotice}

/-! ### Demand and fronts -/

/-- The more of each key are wanted, the more are wanted in all. -/
theorem demand_mono (h : p ≤ q) (ns : List ValidationNotice) : demand p ns ≤ demand q ns :=
  Finset.sum_le_sum fun _ _ => min_le_min_left _ h

theorem takeWhile_isPrefix_takeWhile {α : Type} {f g : α → Bool} (xs : List α)
    (h : ∀ a, f a = true → g a = true) : xs.takeWhile f <+: xs.takeWhile g := by
  have hboth : (fun a => decide (f a = true ∧ g a = true)) = f := by
    funext a
    rw [Bool.eq_iff_iff, decide_eq_true_iff]
    exact and_iff_left_of_imp (h a)
  have htwice := List.takeWhile_takeWhile f g xs
  rw [hboth] at htwice
  exact htwice ▸ List.takeWhile_prefix f

/-- Limits that leave room wherever others do accept at least the same front of a run. -/
theorem accepted_isPrefix_accepted (ns : List ValidationNotice)
    (h : ∀ before, demand l.perKey before < l.total → demand l'.perKey before < l'.total) :
    accepted l ns <+: accepted l' ns := by
  apply List.IsPrefix.map
  apply takeWhile_isPrefix_takeWhile
  intro e he
  exact decide_eq_true (h _ (of_decide_eq_true he))

theorem accepted_isPrefix_of_total_le (hkey : l.perKey = l'.perKey) (htotal : l.total ≤ l'.total)
    (ns : List ValidationNotice) : accepted l ns <+: accepted l' ns := by
  apply accepted_isPrefix_accepted
  intro before hroom
  exact hkey ▸ hroom.trans_le htotal

theorem accepted_isPrefix_of_perKey_le (htotal : l.total = l'.total)
    (hkey : l.perKey ≤ l'.perKey) (ns : List ValidationNotice) :
    accepted l' ns <+: accepted l ns := by
  apply accepted_isPrefix_accepted
  intro before hroom
  exact htotal ▸ (demand_mono hkey before).trans_lt hroom

/-! ### Occurrences and first notices -/

theorem occurrences_le_of_isPrefix (h : ns <+: ms) (k : Key) :
    occurrences k ns ≤ occurrences k ms :=
  (h.sublist.map _).count_le k

/-- The first notices of a front of a run stand in front of those of the run. -/
theorem firstOfKeys_isPrefix (p : Nat) (h : ns <+: ms) :
    firstOfKeys p ns <+: firstOfKeys p ms := by
  obtain ⟨rest, rfl⟩ := h
  induction rest using List.reverseRecOn with
  | nil => rw [List.append_nil]
  | append_singleton rest n ih =>
    rw [← List.append_assoc, firstOfKeys_concat]
    exact ih.trans (List.prefix_append _ _)

theorem firstOfKeys_sublist_firstOfKeys (h : p ≤ q) (ns : List ValidationNotice) :
    (firstOfKeys p ns).Sublist (firstOfKeys q ns) := by
  apply List.Sublist.map
  apply List.monotone_filter_right
  intro e he
  exact decide_eq_true ((of_decide_eq_true he).trans_le h)

/-! ### Two recorders -/

namespace Recorder

variable {r r' : Recorder}

theorem KeepsAccepted.retained_isPrefix (h : KeepsAccepted l ns r) (h' : KeepsAccepted l' ns r')
    (hkey : l.perKey = l'.perKey) (hfront : accepted l ns <+: accepted l' ns) :
    r.retained.toList <+: r'.retained.toList := by
  rw [h.retained, h'.retained, hkey]
  exact firstOfKeys_isPrefix l'.perKey hfront

theorem KeepsAccepted.count_le (h : KeepsAccepted l ns r) (h' : KeepsAccepted l' ns r')
    (hfront : accepted l ns <+: accepted l' ns) (k : Key) :
    r.tally.count k ≤ r'.tally.count k := by
  rw [h.count, h'.count]
  exact occurrences_le_of_isPrefix hfront k

/-- Recorders that accept the same front of a run count the same. -/
theorem KeepsAccepted.get?_eq (h : KeepsAccepted l ns r) (h' : KeepsAccepted l' ns r')
    (hfront : accepted l ns = accepted l' ns) (k : Key) : r.tally.get? k = r'.tally.get? k := by
  rw [Tally.get?_eq, Tally.get?_eq, h.count, h'.count, hfront]
  exact if_congr ((h.keys k).trans (hfront ▸ (h'.keys k).symm)) rfl rfl

/-- One run under two limits. If only the limit for all notices is raised, then what was kept stays
in front of what is kept, and no number falls. If only the limit of a key is raised, then no number
rises, since no longer front of the run is accepted; but if there is room for all the notices that
are wanted then, the numbers are the same and what was kept is among what is kept. -/
theorem compare_of_raised (l l' : Limits) (ns : List ValidationNotice) :
    let r := ns.foldl addValidation (fresh l)
    let r' := ns.foldl addValidation (fresh l')
    (l.perKey = l'.perKey → l.total ≤ l'.total →
      r.retained.toList <+: r'.retained.toList ∧ ∀ k, r.tally.count k ≤ r'.tally.count k) ∧
    (l.total = l'.total → l.perKey ≤ l'.perKey →
      (∀ k, r'.tally.count k ≤ r.tally.count k) ∧ accepted l' ns <+: accepted l ns ∧
      (demand l'.perKey ns < l'.total →
        (∀ k, r'.tally.get? k = r.tally.get? k) ∧
          r.retained.toList.Sublist r'.retained.toList)) := by
  intro r r'
  have h : KeepsAccepted l ns r := KeepsAccepted.foldl l ns
  have h' : KeepsAccepted l' ns r' := KeepsAccepted.foldl l' ns
  refine ⟨fun hkey htotal => ?_, fun htotal hkey => ?_⟩
  · have hfront := accepted_isPrefix_of_total_le hkey htotal ns
    exact ⟨h.retained_isPrefix h' hkey hfront, h.count_le h' hfront⟩
  · have hfront := accepted_isPrefix_of_perKey_le htotal hkey ns
    refine ⟨h'.count_le h hfront, hfront, fun hroom => ?_⟩
    -- With room for the greater demand both recorders accept the whole run.
    have hless : demand l.perKey ns < l.total := htotal ▸ (demand_mono hkey ns).trans_lt hroom
    have hall : accepted l' ns = accepted l ns := by
      rw [accepted_of_lt hroom, accepted_of_lt hless]
    refine ⟨h'.get?_eq h hall, ?_⟩
    rw [h.retained, h'.retained, hall]
    exact firstOfKeys_sublist_firstOfKeys hkey _

/-- Three rows of one key and a file of another key. -/
def survey : List ValidationNotice :=
  [staleRow 1, staleRow 2, staleRow 3, emptyFile]

/-- What is recorded of them under some limits. -/
def surveyed (l : Limits) : Recorder :=
  survey.foldl addValidation (fresh l)

/-- With room for two notices the file counts if one row is kept, but not if two rows are. -/
theorem compare_of_raised_surveyed :
    ((surveyed ⟨1, 1, 1⟩).retained.toList <+: (surveyed ⟨2, 1, 1⟩).retained.toList ∧
      ∀ k, (surveyed ⟨1, 1, 1⟩).tally.count k ≤ (surveyed ⟨2, 1, 1⟩).tally.count k) ∧
    ((∀ k, (surveyed ⟨2, 2, 1⟩).tally.count k ≤ (surveyed ⟨2, 1, 1⟩).tally.count k) ∧
      (surveyed ⟨2, 2, 1⟩).tally.count emptyFile.key = 0 ∧
      (surveyed ⟨2, 1, 1⟩).tally.count emptyFile.key = 1) ∧
    demand 2 survey < 4 ∧
    (∀ k, (surveyed ⟨4, 2, 1⟩).tally.get? k = (surveyed ⟨4, 1, 1⟩).tally.get? k) ∧
    (surveyed ⟨4, 1, 1⟩).retained.toList.Sublist (surveyed ⟨4, 2, 1⟩).retained.toList := by
  have hroom : demand 2 survey < 4 := by decide +kernel
  have hmore := (compare_of_raised ⟨1, 1, 1⟩ ⟨2, 1, 1⟩ survey).1 rfl (by decide)
  have hfewer := (compare_of_raised ⟨2, 1, 1⟩ ⟨2, 2, 1⟩ survey).2 rfl (by decide)
  have hsame := ((compare_of_raised ⟨4, 1, 1⟩ ⟨4, 2, 1⟩ survey).2 rfl (by decide)).2.2 hroom
  exact ⟨hmore, ⟨hfewer.1, by decide +kernel, by decide +kernel⟩, hroom, hsame⟩

end Recorder

end NoticeLedger

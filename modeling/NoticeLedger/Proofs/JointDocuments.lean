import NoticeLedger.Proofs.Consistency

/-!
# Documents of recorders that are merged

The documents of a recorder that has taken over another one are told by the documents of the two:
the groups of both are joined, the totals of a key added up, and of the samples, one behind the
other, the first ones shown (`joinDocuments`). This is so for every two recorders that calls lead to
and that show equally many samples (`Roster.exports_merge`).

A document lists each key of a tally with its number (`groupsBy`), so it can be looked up what it
tells of a key (`totalIn_groupsBy`, `samplesIn_groupsBy`). As merging adds tallies and appends
notices, joining two such documents is listing the merged tally (`joinDocuments_groupsBy`).
-/

namespace NoticeLedger

/-- The total that a document tells of a key, zero if it has no group of the key. -/
def totalIn (gs : List Group) (k : Key) : Int :=
  ((gs.find? fun g => g.key = k).map (·.total)).getD 0

/-- The samples that a document shows of a key, none if it has no group of the key. -/
def samplesIn (gs : List Group) (k : Key) : List Json :=
  ((gs.find? fun g => g.key = k).map (·.samples)).getD []

/-- The document that two documents make: the groups of both in the order of their keys, totals
added up and samples appended, of which the first `limit` are shown. -/
def joinDocuments (limit : Nat) (gs hs : List Group) : List Group :=
  (Key.sort (gs.map (·.key) ++ hs.map (·.key)).dedup).map fun k =>
    ⟨k, totalIn gs k + totalIn hs k, (samplesIn gs k ++ samplesIn hs k).take limit⟩

/-! ### What a document tells of a key -/

section Groups

variable {t u : Tally} {ns ms : List Notice} {limit : Nat}

@[simp] theorem keys_groupsBy : (groupsBy t ns limit).map (·.key) = Key.sort t.keys := by
  simp [groupsBy, Function.comp_def]

theorem find?_map_key {f : Key → Group} (hf : ∀ k, (f k).key = k) (ks : List Key) (k : Key) :
    ((ks.map f).find? fun g => g.key = k) = if k ∈ ks then some (f k) else none := by
  induction ks with
  | nil => rfl
  | cons l ls ih =>
    by_cases hl : l = k
    · simp [hf, hl]
    · have hl' : k ≠ l := fun h => hl h.symm
      simpa [hf, hl, hl'] using ih

theorem totalIn_groupsBy (k : Key) : totalIn (groupsBy t ns limit) k = t.count k := by
  rw [totalIn, groupsBy, find?_map_key fun _ => rfl]
  split
  · rfl
  · rename_i hk
    rw [Tally.count_eq_zero fun h => hk (Key.mem_sort.2 h)]
    rfl

theorem samplesIn_groupsBy (h : t.Covers ns) (k : Key) :
    samplesIn (groupsBy t ns limit) k = (contextsOf k ns).take limit := by
  rw [samplesIn, groupsBy, find?_map_key fun _ => rfl]
  split
  · rfl
  · rename_i hk
    -- No notice is of a key that has not been counted.
    have hnone : contextsOf k ns = [] := by
      rw [contextsOf, List.map_eq_nil_iff, List.filter_eq_nil_iff]
      intro n hn hkey
      obtain rfl := of_decide_eq_true hkey
      exact hk (Key.mem_sort.2 (h.mem_keys hn))
    rw [hnone, List.take_nil]
    rfl

/-! ### Joining -/

theorem joinDocuments_groupsBy (h : t.Covers ns) (h' : u.Covers ms) :
    joinDocuments limit (groupsBy t ns limit) (groupsBy u ms limit)
      = groupsBy (t.merge u) (ns ++ ms) limit := by
  have hkeys : Key.sort (Key.sort t.keys ++ Key.sort u.keys).dedup = Key.sort (t.merge u).keys := by
    apply Key.sort_eq_of_mem_iff (List.nodup_dedup _) (t.merge u).nodup_keys
    intro k
    simp [Tally.mem_keys_merge, Key.mem_sort]
  rw [joinDocuments, keys_groupsBy, keys_groupsBy, hkeys]
  apply List.map_congr_left
  intro k _
  rw [totalIn_groupsBy, totalIn_groupsBy, samplesIn_groupsBy h, samplesIn_groupsBy h',
    take_append_take, Tally.count_merge, contextsOf_append]
  rfl

theorem mem_keys_joinDocuments {gs hs : List Group} {k : Key} :
    k ∈ (joinDocuments limit gs hs).map (·.key)
      ↔ k ∈ gs.map (·.key) ∨ k ∈ hs.map (·.key) := by
  simp [joinDocuments, Function.comp_def, Key.mem_sort]

theorem pairwise_joinDocuments (limit : Nat) (gs hs : List Group) :
    (joinDocuments limit gs hs).Pairwise fun g h =>
      Text.lt (Text.ofString g.key.token) (Text.ofString h.key.token) = true := by
  rw [joinDocuments, List.pairwise_map]
  exact (Key.pairwise_sort (List.nodup_dedup _)).imp Key.lt_iff.1

end Groups

/-! ### Recorders -/

section Absorb

variable {p : Nat} {a b : Recorder}

theorem Recorder.exportValidation_absorb (ha : a.IsConsistent p) (hb : b.IsConsistent p)
    (hsamples : b.limits.samples = a.limits.samples) :
    ∃ gs hs, a.exportValidation = .ok gs ∧ b.exportValidation = .ok hs ∧
      (a.absorb b).exportValidation = .ok (joinDocuments a.limits.samples gs hs) := by
  refine ⟨_, _, ha.exportValidation_eq, hb.exportValidation_eq, ?_⟩
  rw [(ha.absorb hb).exportValidation_eq, hsamples,
    joinDocuments_groupsBy ha.covers_retained hb.covers_retained, ← List.map_append,
    ← toList_retained_absorb]
  rfl

theorem Recorder.exportSystem_absorb (ha : a.IsConsistent p) (hb : b.IsConsistent p)
    (hsamples : b.limits.samples = a.limits.samples) :
    ∃ gs hs, a.exportSystem = .ok gs ∧ b.exportSystem = .ok hs ∧
      (a.absorb b).exportSystem = .ok (joinDocuments a.limits.samples gs hs) := by
  refine ⟨_, _, ha.exportSystem_eq, hb.exportSystem_eq, ?_⟩
  rw [(ha.absorb hb).exportSystem_eq, hsamples,
    joinDocuments_groupsBy ha.covers_systemErrors hb.covers_systemErrors, ← List.map_append,
    ← toList_systemErrors_absorb]
  rfl

end Absorb

namespace Roster

/-- If a recorder takes over another one that shows as many samples of a key, whatever calls have
led to the two, its documents are those that the documents of the two make. Their groups stand in
strictly ascending order of tokens and are those of either document. -/
theorem exports_merge {s : Roster} (hnew : s.IsNew) {cs : List Call} {i j : Nat} {a b : Recorder}
    (hne : j ≠ i) (ha : (s.performAll cs).recorders[i]? = some a)
    (hb : (s.performAll cs).recorders[j]? = some b) (hlive : b.consumed = false)
    (hsamples : b.limits.samples = a.limits.samples) :
    ∃ s' joint, (s.performAll cs).call (.merge i j) = .ok s' ∧ s'.recorders[i]? = some joint ∧
      (∃ gs hs, a.exportValidation = .ok gs ∧ b.exportValidation = .ok hs ∧
        joint.exportValidation = .ok (joinDocuments a.limits.samples gs hs)) ∧
      (∃ gs hs, a.exportSystem = .ok gs ∧ b.exportSystem = .ok hs ∧
        joint.exportSystem = .ok (joinDocuments a.limits.samples gs hs)) ∧
      ∀ gs hs, (∀ k, k ∈ (joinDocuments a.limits.samples gs hs).map (·.key)
          ↔ k ∈ gs.map (·.key) ∨ k ∈ hs.map (·.key)) ∧
        (joinDocuments a.limits.samples gs hs).Pairwise fun g h =>
          Text.lt (Text.ofString g.key.token) (Text.ofString h.key.token) = true := by
  have hconsistent := isConsistent_of_mem_performAll hnew (fun _ _ => Nat.zero_le _) cs
  have ha' := hconsistent a (List.mem_of_getElem? ha)
  have hb' := hconsistent b (List.mem_of_getElem? hb)
  obtain ⟨s', hmerge, -, htaken⟩ := exists_merge hne ha hb hlive
  exact ⟨s', a.absorb b, hmerge, htaken.target,
    Recorder.exportValidation_absorb ha' hb' hsamples,
    Recorder.exportSystem_absorb ha' hb' hsamples,
    fun gs hs => ⟨fun k => mem_keys_joinDocuments, pairwise_joinDocuments _ gs hs⟩⟩

/-- Two recorders whose documents show two samples of a key. -/
def counters : Roster :=
  (({ } : Roster).openRecorder ⟨9, 9, 2⟩).openRecorder ⟨9, 1, 2⟩

/-- A run in which both recorders are handed torn tickets, of which the second one drops one, and a
ticket of another key goes to the second one alone. -/
def admission : List Call :=
  let torn (row : Int) := Notice.validation ⟨⟨"ticket_torn", by decide⟩, .warning, .int row⟩
  [.addValidation 0 (torn 1), .addValidation 1 (torn 2), .addValidation 1 (torn 3),
    .addValidation 1 (.validation ⟨⟨"ticket_void", by decide⟩, .error, .null⟩)]

theorem exports_merge_admission :
    counters.IsNew ∧ ∃ a b s' joint,
      (counters.performAll admission).recorders[0]? = some a ∧
      (counters.performAll admission).recorders[1]? = some b ∧
      b.consumed = false ∧ b.limits.samples = a.limits.samples ∧
      (counters.performAll admission).call (.merge 0 1) = .ok s' ∧
      s'.recorders[0]? = some joint ∧
      ∃ gs hs, a.exportValidation = .ok gs ∧ b.exportValidation = .ok hs ∧
        joint.exportValidation = .ok (joinDocuments a.limits.samples gs hs) ∧
        (joinDocuments a.limits.samples gs hs).map (fun g => (g.total, g.samples.length))
          = [(3, 2), (1, 1)] := by
  have hnew : counters.IsNew := by simp [counters]
  have ha : (counters.performAll admission).recorders[0]?
      = some (counters.performAll admission).recorders[0] := rfl
  have hb : (counters.performAll admission).recorders[1]?
      = some (counters.performAll admission).recorders[1] := rfl
  have hlive : (counters.performAll admission).recorders[1].consumed = false := by
    decide +kernel
  have hsamples : (counters.performAll admission).recorders[1].limits.samples
      = (counters.performAll admission).recorders[0].limits.samples := by decide +kernel
  obtain ⟨s', joint, hcall, hjoint, ⟨gs, hs, hgs, hhs, hjoined⟩, -⟩ :=
    exports_merge hnew Nat.one_ne_zero ha hb hlive hsamples
  have hjoint' : ((counters.performAll admission).call (.merge 0 1)).toOption.bind
      (·.recorders[0]?) = some ((counters.performAll admission).recorders[0].absorb
        (counters.performAll admission).recorders[1]) := rfl
  rw [hcall, Except.toOption, Option.bind_some, hjoint] at hjoint'
  obtain rfl := Option.some.inj hjoint'
  -- The keys have come in ascending order.
  have hascending : ((counters.performAll admission).recorders[0].absorb
      (counters.performAll admission).recorders[1]).tally.keys.Pairwise
        fun a b => Key.le a b = true := by decide +kernel
  have hconsistent := isConsistent_of_mem_performAll hnew (fun _ _ => Nat.zero_le _) admission
  have hdocument := ((hconsistent _ (List.mem_of_getElem? ha)).absorb
    (hconsistent _ (List.mem_of_getElem? hb))).exportValidation_eq
  rw [groupsBy, Key.sort, List.mergeSort_of_pairwise hascending, hjoined] at hdocument
  have hshown : (joinDocuments (counters.performAll admission).recorders[0].limits.samples gs
      hs).map (fun g => (g.total, g.samples.length)) = [(3, 2), (1, 1)] := by
    rw [Except.ok.inj hdocument]
    decide +kernel
  exact ⟨hnew, _, _, s', _, ha, hb, hlive, hsamples, hcall, hjoint, gs, hs, hgs, hhs,
    hjoined, hshown⟩

end Roster

end NoticeLedger

import NoticeLedger.Proofs.Growth
import NoticeLedger.Proofs.Weights

/-!
# How many samples a document shows

A document shows of each key the notices that are kept, up to the limit of samples. It does not look
at the limit of one key, which merged recorders exceed. So there are no more samples than are both
kept by one recorder and reported (`Limits.effectiveSamples`) exactly if the limit of samples is no
higher than the limit of one key, or no more notices of a key are kept than one recorder may keep
(`Recorder.Shows`). What bounds the samples in any case is the weight of the recorder
(`shows_afterAll`).
-/

namespace NoticeLedger

open Roster (afterAll)

theorem length_samples_groupsBy {t : Tally} {ns : List ValidationNotice} {limit : Nat} {g : Group}
    (hg : g ∈ groupsBy t (ns.map .validation) limit) :
    g.samples.length = min limit (occurrences g.key ns) := by
  obtain ⟨k, -, rfl⟩ := List.mem_map.1 hg
  rw [List.length_take, contextsOf_map_validation, List.length_map,
    occurrences_eq_length_filter]

/-- A key of which notices are kept has a group. -/
theorem Tally.Covers.exists_mem_groupsBy {t : Tally} {ns : List ValidationNotice}
    (h : t.Covers (ns.map .validation)) (limit : Nat) {k : Key} (hk : 0 < occurrences k ns) :
    ∃ g ∈ groupsBy t (ns.map .validation) limit, g.key = k := by
  have hmem : k ∈ ns.map (·.key) := by
    by_contra hnot
    rw [occurrences_eq_zero_iff.2 hnot] at hk
    exact Nat.lt_irrefl 0 hk
  obtain ⟨n, hn, rfl⟩ := List.mem_map.1 hmem
  have hkey := h.mem_keys (List.mem_map_of_mem hn)
  exact ⟨_, List.mem_map_of_mem (Key.mem_sort.2 hkey), rfl⟩

namespace Recorder

/-- The document of the recorder shows of each key as many samples as notices are kept, up to the
limit of samples. -/
structure Shows (l : Limits) (r : Recorder) (groups : List Group) : Prop where
  export_eq : r.exportValidation = .ok groups
  length_samples :
    ∀ g ∈ groups, g.samples.length = min l.samples (occurrences g.key r.retained.toList)
  effective_iff : (∀ g ∈ groups, g.samples.length ≤ l.effectiveSamples) ↔
    l.samples ≤ l.perKey ∨ ∀ k, occurrences k r.retained.toList ≤ l.perKey

variable {l : Limits} {w : Nat} {r : Recorder}

theorem IsConsistent.exists_shows (h : r.IsConsistent 0) (hl : r.limits = l) :
    ∃ groups, r.Shows l groups := by
  have hexport := h.exportValidation_eq
  rw [hl] at hexport
  refine ⟨_, hexport, fun g hg => length_samples_groupsBy hg, fun hle => ?_, fun hor g hg => ?_⟩
  · -- If a key is kept too often, its group shows that, unless the samples are limited further.
    refine or_iff_not_imp_left.2 fun hsamples k => ?_
    rcases Nat.eq_zero_or_pos (occurrences k r.retained.toList) with hzero | hpos
    · rw [hzero]
      exact Nat.zero_le _
    · obtain ⟨g, hg, rfl⟩ := h.covers_retained.exists_mem_groupsBy l.samples hpos
      have hgroup := hle g hg
      rw [length_samples_groupsBy hg, Limits.effectiveSamples] at hgroup
      omega
  · rw [length_samples_groupsBy hg, Limits.effectiveSamples]
    rcases hor with hsamples | hkept
    · omega
    · have := hkept g.key
      omega

/-- If more notices of a key are kept than one recorder may keep, that shows. -/
theorem Shows.exists_effectiveSamples_lt {groups : List Group} (h : r.Shows l groups)
    (hl : l.perKey < l.samples) {k : Key} (hk : l.perKey < occurrences k r.retained.toList) :
    ∃ g ∈ groups, l.effectiveSamples < g.samples.length := by
  by_contra! hle
  rcases h.effective_iff.1 hle with hsamples | hkept
  · exact absurd hl (Nat.not_lt.2 hsamples)
  · exact absurd hk (Nat.not_lt.2 (hkept k))

/-- A recorder that stays within a weight shows no more samples than that allows. -/
theorem StaysWithin.exists_shows (h : r.StaysWithin l w) :
    ∃ groups, r.Shows l groups ∧ ∀ g ∈ groups, g.samples.length ≤ min (w * l.perKey) l.samples := by
  obtain ⟨groups, hshows⟩ := h.consistent.exists_shows h.limits
  refine ⟨groups, hshows, fun g hg => ?_⟩
  have hkept := h.perKey g.key
  rw [hshows.length_samples g hg]
  omega

end Recorder

/-! ### Gathering -/

namespace Roster

variable {s s' : Roster}

/-- Joins that come to an end are so many calls. -/
theorem foldl_happen_of_joinEach {c : Nat} {js : List Nat} {u : Unit}
    (h : s.joinEach c js = (s', .ok u)) :
    (js.map fun j => Event.call (.join c j)).foldl happen s = s' := by
  induction js generalizing s with
  | nil => exact congrArg Prod.fst h
  | cons j js ih =>
    rw [joinEach] at h
    split at h
    · exact nomatch congrArg Prod.snd h
    · rename_i next hjoin
      have hnext : s.happen (.call (.join c j)) = next := by
        rw [happen, leftBy_eq, perform, call, hjoin]
      rw [List.map_cons, List.foldl_cons, hnext]
      exact ih h

/-- The events of gathering recorders at the end of a run. -/
def gathering (es : List Event) (l : Limits) (js : List Nat) : List Event :=
  es ++ .openCoordinator l :: js.map fun j => .call (.join (afterAll es).coordinators.length j)

/-- Gathering is opening a coordinator and letting it join. -/
theorem afterAll_gathering {es : List Event} {l : Limits} {js : List Nat} {d : Nat}
    (h : (afterAll es).gather l js = (s', .ok d)) :
    afterAll (gathering es l js) = s' ∧ d = (afterAll es).recorders.length := by
  rw [gather] at h
  generalize hjoins : ((afterAll es).openCoordinator l).joinEach _ js = joins at h
  obtain ⟨last, result⟩ := joins
  obtain ⟨rfl, hresult⟩ := Prod.mk.inj h
  obtain ⟨u, rfl, rfl⟩ := exists_of_map_ok hresult
  rw [gathering, afterAll_append]
  exact ⟨foldl_happen_of_joinEach hjoins, rfl⟩

theorem exists_destination {es : List Event} {l : Limits} {js : List Nat} {d : Nat}
    (h : (afterAll es).gather l js = (s', .ok d)) : ∃ r, s'.recorders[d]? = some r := by
  obtain ⟨rfl, rfl⟩ := afterAll_gathering h
  have hopened : ((afterAll es).openCoordinator l).recorders[(afterAll es).recorders.length]?
      = some (.fresh l) := by
    simp [openCoordinator, openRecorder]
  rw [gathering, afterAll_append]
  obtain ⟨r, hr, -⟩ := exists_growsTo_foldl_happen _ hopened
  exact ⟨r, hr⟩

end Roster

/-! ### Every run -/

/-- Where all recorders have the same limits, the document of each of them shows as many samples of
a key as are kept, up to the limit of samples. There are no more than are both kept by one recorder
and reported exactly if the limit of samples is no higher than the limit of one key or no more
notices of a key are kept than that, and never more than the weight of the recorder allows. So it
is for a recorder that gathers others, and for one that running errands leads to, as it does if
every failure has a text. -/
theorem shows_afterAll {l : Limits} {es : List Event} (hes : ∀ e ∈ es, ∀ l' ∈ e.limits?, l' = l) :
    (∀ i r, (afterAll es).recorders[i]? = some r →
      ∃ groups, r.Shows l groups ∧
        ∀ g ∈ groups, g.samples.length ≤ min (weights.after es i * l.perKey) l.samples) ∧
    (∀ js s' d, (afterAll es).gather l js = (s', .ok d) →
      ∃ r groups, s'.recorders[d]? = some r ∧ r.Shows l groups) ∧
    ∀ (workers? : Option Int) (errands : List Errand), (∀ n ∈ workers?, 0 < n) →
      ((∀ e ∈ errands, e.untold? = none) →
        ∃ merged, runTasks l workers? (errands.map Errand.toTask) = .ok merged) ∧
      ∀ merged, runTasks l workers? (errands.map Errand.toTask) = .ok merged →
        ∃ groups, merged.Shows l groups ∧
          ∀ g ∈ groups, g.samples.length ≤ min (errands.length * l.perKey) l.samples := by
  refine ⟨fun i r hr => ?_, fun js s' d hgather => ?_, fun workers? errands hw => ?_⟩
  · exact (Recorder.StaysWithin.of_afterAll hes hr).exists_shows
  · obtain ⟨r, hr⟩ := Roster.exists_destination hgather
    obtain ⟨hrun, -⟩ := Roster.afterAll_gathering hgather
    have hgathering : ∀ e ∈ Roster.gathering es l js, ∀ l' ∈ e.limits?, l' = l := by
      intro e he
      rcases List.mem_append.1 he with he | he
      · exact hes e he
      · rcases List.mem_cons.1 he with rfl | he
        · simp [Event.limits?]
        · obtain ⟨j, -, rfl⟩ := List.mem_map.1 he
          simp [Event.limits?]
    rw [← hrun] at hr
    obtain ⟨groups, hshows, -⟩ := (Recorder.StaysWithin.of_afterAll hgathering hr).exists_shows
    exact ⟨r, groups, hrun ▸ hr, hshows⟩
  · refine ⟨fun htold => ⟨_, Errand.runTasks_of_told l hw htold⟩, fun merged hrun => ?_⟩
    obtain rfl := Errand.eq_collectInTurn_of_runTasks hw hrun
    exact (Errand.staysWithin_collectInTurn l errands).exists_shows

theorem shows_heaping :
    (∀ e ∈ heaping, ∀ l ∈ e.limits?, l = ⟨2, 1, 5⟩) ∧
    (∃ r groups, (afterAll heaping).recorders[0]? = some r ∧ r.Shows ⟨2, 1, 5⟩ groups ∧
      (∀ g ∈ groups, g.samples.length ≤ min (weights.after heaping 0 * 1) 5) ∧
      groups.map (·.samples.length) = [3]) ∧
    (∃ s' r groups, (afterAll heaping).gather ⟨2, 1, 5⟩ [0] = (s', .ok 4) ∧
      s'.recorders[4]? = some r ∧ r.Shows ⟨2, 1, 5⟩ groups) ∧
    ∃ merged groups, runTasks ⟨2, 1, 5⟩ (some 1) (Errand.shares.map Errand.toTask) = .ok merged ∧
      merged.Shows ⟨2, 1, 5⟩ groups ∧ ∀ g ∈ groups, g.samples.length ≤ min (2 * 1) 5 := by
  have hes : ∀ e ∈ heaping, ∀ l ∈ e.limits?, l = ⟨2, 1, 5⟩ := by
    simp [heaping, Event.limits?]
  obtain ⟨hevery, hgather, hrun⟩ := shows_afterAll hes
  refine ⟨hes, ?_, ?_, ?_⟩
  · have hsamples : (afterAll heaping).recorders[0]?.map (fun r =>
        r.exportValidation.toOption.map (·.map (·.samples.length))) = some (some [3]) := by
      decide +kernel
    obtain ⟨r, hr, hr'⟩ := Option.map_eq_some_iff.1 hsamples
    obtain ⟨groups, hshows, hle⟩ := hevery 0 r hr
    rw [hshows.export_eq] at hr'
    exact ⟨r, groups, hr, hshows, hle, Option.some.inj hr'⟩
  · have hresult : ((afterAll heaping).gather ⟨2, 1, 5⟩ [0]).2 = .ok 4 := by rfl
    obtain ⟨r, groups, hr, hshows⟩ := hgather [0] _ 4 (Prod.ext rfl hresult)
    exact ⟨_, r, groups, Prod.ext rfl hresult, hr, hshows⟩
  · obtain ⟨hreturns, hshows⟩ := hrun (some 1) Errand.shares (by decide)
    obtain ⟨merged, hmerged⟩ := hreturns (by decide)
    obtain ⟨groups, hgroups, hle⟩ := hshows merged hmerged
    exact ⟨merged, groups, hmerged, hgroups, hle⟩

/-- Two recorders that may keep one notice of a key are handed the same notice, and one of them
takes over the other. -/
def pairing : List Event :=
  let late (i : Nat) := Call.addValidation i (.validation Roster.lateDelivery)
  [.openRecorder { perKey := 1 }, .openRecorder { perKey := 1 }, .call (late 0), .call (late 1),
    .call (.merge 0 1)]

theorem effectiveSamples_lt_pairing :
    (∀ e ∈ pairing, ∀ l ∈ e.limits?, l = { perKey := 1 }) ∧
    (∃ r groups, (afterAll pairing).recorders[0]? = some r ∧ r.exportValidation = .ok groups ∧
      ∃ g ∈ groups, ({ perKey := 1 } : Limits).effectiveSamples < g.samples.length) ∧
    ∃ merged groups,
      runTasks { perKey := 1 } none (Errand.shares.map Errand.toTask) = .ok merged ∧
      merged.exportValidation = .ok groups ∧
      ∃ g ∈ groups, ({ perKey := 1 } : Limits).effectiveSamples < g.samples.length := by
  have hes : ∀ e ∈ pairing, ∀ l ∈ e.limits?, l = { perKey := 1 } := by
    simp [pairing, Event.limits?]
  refine ⟨hes, ?_, ?_⟩
  · have hkept : (afterAll pairing).recorders[0]?.map
        (occurrences Roster.lateDelivery.key ·.retained.toList) = some 2 := by decide +kernel
    obtain ⟨r, hr, htwo⟩ := Option.map_eq_some_iff.1 hkept
    obtain ⟨groups, hshows, -⟩ := (Recorder.StaysWithin.of_afterAll hes hr).exists_shows
    exact ⟨r, groups, hr, hshows.export_eq,
      hshows.exists_effectiveSamples_lt (by decide) htwo.ge⟩
  · have htwo : occurrences (Recorder.staleRow 1).key
        (Errand.collectInTurn { perKey := 1 } Errand.shares).retained.toList = 2 := by
      decide +kernel
    obtain ⟨groups, hshows, -⟩ :=
      (Errand.staysWithin_collectInTurn { perKey := 1 } Errand.shares).exists_shows
    have hw : ∀ n ∈ (none : Option Int), 0 < n := by simp
    exact ⟨_, groups, Errand.runTasks_of_told _ hw (by decide), hshows.export_eq,
      hshows.exists_effectiveSamples_lt (by decide) htwo.ge⟩

end NoticeLedger

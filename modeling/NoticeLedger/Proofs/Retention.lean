import Mathlib.Algebra.BigOperators.Group.Finset.Piecewise
import Mathlib.Algebra.Order.BigOperators.Group.Finset
import Mathlib.Data.List.TakeWhile
import NoticeLedger.Proofs.Recording

/-!
# What a recorder keeps

The state of a recorder after a run of validation notices, told by the run alone. Of each key the
first few are wanted (`firstOfKeys`); how many these are is the demand of the run (`demand`). The
recorder goes on counting while the demand of what came before is below the limit for all of them,
so what counts is a front of the run (`accepted`).

The invariant of a run is `KeepsAccepted`. One notice preserves it (`KeepsAccepted.add`): the
recorder is full exactly when the demand has reached the limit, whatever has been dropped since.
-/

namespace NoticeLedger

/-! ### Occurrences and demand -/

/-- How many notices have a key. -/
def occurrences (k : Key) (ns : List ValidationNotice) : Nat :=
  (ns.map (·.key)).count k

/-- How many notices are wanted if at most `p` of each key are. -/
def demand (p : Nat) (ns : List ValidationNotice) : Nat :=
  ∑ k ∈ (ns.map (·.key)).toFinset, min (occurrences k ns) p

/-- The longest front of a run such that before each of its notices the demand is below the limit
for all notices. -/
def accepted (l : Limits) (ns : List ValidationNotice) : List ValidationNotice :=
  (ns.zipIdx.takeWhile fun e => demand l.perKey (ns.take e.2) < l.total).map (·.1)

/-- The notices that are among the first `p` of their key. -/
def firstOfKeys (p : Nat) (ns : List ValidationNotice) : List ValidationNotice :=
  (ns.zipIdx.filter fun e => occurrences e.1.key (ns.take e.2) < p).map (·.1)

section Run

variable (p : Nat) (ns : List ValidationNotice) (n : ValidationNotice) {k : Key}

@[simp] theorem occurrences_nil : occurrences k [] = 0 := rfl

theorem occurrences_concat :
    occurrences k (ns ++ [n]) = occurrences k ns + if n.key = k then 1 else 0 := by
  simp [occurrences, List.count_singleton, beq_iff_eq]

theorem occurrences_append (ms : List ValidationNotice) :
    occurrences k (ns ++ ms) = occurrences k ns + occurrences k ms := by
  simp [occurrences]

variable {ns} in
theorem occurrences_eq_zero_iff : occurrences k ns = 0 ↔ k ∉ ns.map (·.key) :=
  List.count_eq_zero

theorem occurrences_eq_length_filter :
    occurrences k ns = (ns.filter fun n => n.key = k).length := by
  rw [occurrences, List.count, List.countP_map, List.countP_eq_length_filter]
  rfl

@[simp] theorem demand_nil : demand p [] = 0 := rfl

variable {ns} in
/-- Keys that do not occur add nothing to the demand. -/
theorem demand_eq_sum {s : Finset Key} (h : (ns.map (·.key)).toFinset ⊆ s) :
    demand p ns = ∑ k ∈ s, min (occurrences k ns) p := by
  apply Finset.sum_subset h
  intro k _ hk
  rw [occurrences_eq_zero_iff.2 (by simpa using hk), Nat.zero_min]

/-- One more notice raises the demand by one if it is among the first `p` of its key. -/
theorem demand_concat :
    demand p (ns ++ [n]) = demand p ns + if occurrences n.key ns < p then 1 else 0 := by
  have hkeys : ((ns ++ [n]).map (·.key)).toFinset = insert n.key (ns.map (·.key)).toFinset := by
    ext k
    simp [eq_comm]
  have hmin : ∀ k, min (occurrences k (ns ++ [n])) p
      = min (occurrences k ns) p +
        if n.key = k then (if occurrences k ns < p then 1 else 0) else 0 := by
    intro k
    rw [occurrences_concat]
    split_ifs <;> omega
  rw [demand_eq_sum p (s := insert n.key (ns.map (·.key)).toFinset) (by rw [hkeys]),
    demand_eq_sum p (Finset.subset_insert n.key _), Finset.sum_congr rfl fun k _ => hmin k,
    Finset.sum_add_distrib, Finset.sum_ite_eq, if_pos (Finset.mem_insert_self _ _)]

variable {ns} in
/-- Of fewer notices no more are wanted. -/
theorem demand_le_of_sublist {ms : List ValidationNotice} (h : ns.Sublist ms) :
    demand p ns ≤ demand p ms := by
  have hkeys : (ns.map (·.key)).toFinset ⊆ (ms.map (·.key)).toFinset := by
    intro k hk
    rw [List.mem_toFinset] at hk ⊢
    exact (h.map _).subset hk
  rw [demand_eq_sum p hkeys, demand_eq_sum p (Finset.Subset.refl (ms.map (·.key)).toFinset)]
  apply Finset.sum_le_sum
  intro k _
  exact min_le_min_right p ((h.map _).count_le k)

variable {ns} in
/-- What is wanted is told by how often each key occurs. -/
theorem demand_congr {ms : List ValidationNotice}
    (h : ∀ k, occurrences k ns = occurrences k ms) : demand p ns = demand p ms := by
  have hkeys : (ns.map (·.key)).toFinset = (ms.map (·.key)).toFinset := by
    ext k
    rw [List.mem_toFinset, List.mem_toFinset, ← not_iff_not, ← occurrences_eq_zero_iff,
      ← occurrences_eq_zero_iff, h]
  rw [demand, demand, hkeys]
  apply Finset.sum_congr rfl
  intro k _
  rw [h]

theorem demand_le_concat : demand p ns ≤ demand p (ns ++ [n]) :=
  demand_le_of_sublist p (List.sublist_append_left ns [n])

theorem demand_le_append (ms : List ValidationNotice) : demand p ns ≤ demand p (ns ++ ms) :=
  demand_le_of_sublist p (List.sublist_append_left ns ms)

end Run

/-! ### Fronts of a run -/

section Fronts

variable {l : Limits} {p : Nat} {ns : List ValidationNotice} {n : ValidationNotice}

theorem takeWhile_congr {α : Type} {p q : α → Bool} {xs : List α} (h : ∀ a ∈ xs, p a = q a) :
    xs.takeWhile p = xs.takeWhile q := by
  induction xs with
  | nil => rfl
  | cons x xs ih =>
    rw [List.takeWhile_cons, List.takeWhile_cons, h x (by simp),
      ih fun a ha => h a (List.mem_cons_of_mem x ha)]

/-- A condition on the notices before each notice is not changed by a further notice at the end. -/
theorem zipIdx_concat_congr {β : Type} (f : ValidationNotice → List ValidationNotice → β)
    {e : ValidationNotice × Nat} (he : e ∈ ns.zipIdx) :
    f e.1 ((ns ++ [n]).take e.2) = f e.1 (ns.take e.2) := by
  have hlt : e.2 < ns.length := by simpa using List.snd_lt_of_mem_zipIdx he
  rw [List.take_append_of_le_length hlt.le]

theorem zipIdx_concat : (ns ++ [n]).zipIdx = ns.zipIdx ++ [(n, ns.length)] := by
  simp [List.zipIdx_append]

@[simp] theorem firstOfKeys_nil : firstOfKeys p [] = [] := rfl

variable (p ns) in
theorem firstOfKeys_sublist : (firstOfKeys p ns).Sublist ns := by
  have h := (List.filter_sublist (l := ns.zipIdx)
    (p := fun e => decide (occurrences e.1.key (ns.take e.2) < p))).map (·.1)
  rwa [List.zipIdx_map_fst] at h

theorem firstOfKeys_concat :
    firstOfKeys p (ns ++ [n])
      = firstOfKeys p ns ++ if occurrences n.key ns < p then [n] else [] := by
  have hfront : ns.zipIdx.filter (fun e => occurrences e.1.key ((ns ++ [n]).take e.2) < p)
      = ns.zipIdx.filter (fun e => occurrences e.1.key (ns.take e.2) < p) :=
    List.filter_congr fun e he =>
      zipIdx_concat_congr (fun m before => decide (occurrences m.key before < p)) he
  rw [firstOfKeys, zipIdx_concat, List.filter_append, hfront, List.map_append, ← firstOfKeys]
  congr 1
  by_cases h : occurrences n.key ns < p <;> simp [h]

/-- Of each key the first notices up to the limit are left. -/
theorem filter_firstOfKeys (k : Key) :
    (firstOfKeys p ns).filter (fun n => n.key = k) = (ns.filter fun n => n.key = k).take p := by
  induction ns using List.reverseRecOn with
  | nil => simp
  | append_singleton ns n ih =>
    rw [firstOfKeys_concat, List.filter_append, List.filter_append, List.take_append, ih,
      ← occurrences_eq_length_filter]
    by_cases hk : n.key = k
    · by_cases hfew : occurrences k ns < p
      · obtain ⟨i, hi⟩ := Nat.exists_eq_succ_of_ne_zero (Nat.sub_ne_zero_of_lt hfew)
        simp [hk, hfew, hi]
      · simp [hk, hfew, Nat.sub_eq_zero_of_le (Nat.not_lt.1 hfew)]
    · by_cases hfew : occurrences n.key ns < p
      · simp [hk, hfew]
      · simp [hk, hfew]

/-- As many notices are among the first of their key as are wanted. -/
theorem length_firstOfKeys : (firstOfKeys p ns).length = demand p ns := by
  induction ns using List.reverseRecOn with
  | nil => rfl
  | append_singleton ns n ih =>
    rw [firstOfKeys_concat, demand_concat, List.length_append, ih]
    split_ifs <;> rfl

@[simp] theorem accepted_nil : accepted l [] = [] := rfl

variable (l ns) in
theorem accepted_isPrefix : accepted l ns <+: ns := by
  have h := (List.takeWhile_prefix (fun e : ValidationNotice × Nat =>
    decide (demand l.perKey (ns.take e.2) < l.total)) (l := ns.zipIdx)).map (·.1)
  rwa [List.zipIdx_map_fst] at h

/-- A run is accepted as a whole if the demand is below the limit before each of its notices. -/
theorem accepted_eq_self (h : ∀ i < ns.length, demand l.perKey (ns.take i) < l.total) :
    accepted l ns = ns := by
  have hall : ∀ e ∈ ns.zipIdx, decide (demand l.perKey (ns.take e.2) < l.total) = true := by
    intro e he
    exact decide_eq_true (h e.2 (by simpa using List.snd_lt_of_mem_zipIdx he))
  rw [accepted, List.takeWhile_eq_self_iff.2 hall, List.zipIdx_map_fst]

theorem demand_take_lt (h : demand l.perKey ns < l.total) (i : Nat) :
    demand l.perKey (ns.take i) < l.total := by
  have hle := demand_le_append l.perKey (ns.take i) (ns.drop i)
  rw [List.take_append_drop] at hle
  exact hle.trans_lt h

theorem accepted_of_lt (h : demand l.perKey ns < l.total) : accepted l ns = ns :=
  accepted_eq_self fun i _ => demand_take_lt h i

/-- While the demand is below the limit the next notice is accepted. -/
theorem accepted_concat_of_lt (h : demand l.perKey ns < l.total) :
    accepted l (ns ++ [n]) = ns ++ [n] := by
  apply accepted_eq_self
  intro i hi
  have hle : i ≤ ns.length := by
    rw [List.length_append, List.length_singleton] at hi
    omega
  rw [List.take_append_of_le_length hle]
  exact demand_take_lt h i

/-- Nothing is accepted any more once the demand has reached the limit. -/
theorem accepted_concat_of_le (h : l.total ≤ demand l.perKey ns) :
    accepted l (ns ++ [n]) = accepted l ns := by
  have hfront : ns.zipIdx.takeWhile (fun e => demand l.perKey ((ns ++ [n]).take e.2) < l.total)
      = ns.zipIdx.takeWhile (fun e => demand l.perKey (ns.take e.2) < l.total) :=
    takeWhile_congr fun e he =>
      zipIdx_concat_congr (fun _ before => decide (demand l.perKey before < l.total)) he
  have hlast : [(n, ns.length)].takeWhile
      (fun e => decide (demand l.perKey ((ns ++ [n]).take e.2) < l.total)) = [] := by
    simp [h]
  rw [accepted, zipIdx_concat, List.takeWhile_append, hlast, List.append_nil, hfront, accepted]
  split
  · rename_i hlen
    rw [(List.takeWhile_prefix _).eq_of_length hlen]
  · rfl

theorem accepted_append_of_le (ms : List ValidationNotice) (h : l.total ≤ demand l.perKey ns) :
    accepted l (ns ++ ms) = accepted l ns := by
  induction ms using List.reverseRecOn with
  | nil => rw [List.append_nil]
  | append_singleton ms m ih =>
    rw [← List.append_assoc, accepted_concat_of_le (h.trans (demand_le_append _ ns ms)), ih]

/-- Before each accepted notice the demand is below the limit. -/
theorem demand_take_lt_of_lt_length {i : Nat} (h : i < (accepted l ns).length) :
    demand l.perKey (ns.take i) < l.total := by
  by_contra hle
  have hsame := accepted_append_of_le (ns.drop i) (not_lt.1 hle)
  rw [List.take_append_drop] at hsame
  have hlen := (accepted_isPrefix l (ns.take i)).length_le
  rw [← hsame, List.length_take] at hlen
  omega

/-- What is wanted of the accepted notices is what is wanted of all, up to the limit. -/
theorem demand_accepted :
    demand l.perKey (accepted l ns) = min l.total (demand l.perKey ns) := by
  induction ns using List.reverseRecOn with
  | nil => simp
  | append_singleton ns n ih =>
    rcases lt_or_ge (demand l.perKey ns) l.total with h | h
    · have hstep := demand_concat l.perKey ns n
      rw [accepted_concat_of_lt h, min_eq_right]
      split_ifs at hstep <;> omega
    · have hle := demand_le_concat l.perKey ns n
      rw [accepted_concat_of_le h, ih, min_eq_left h, min_eq_left (h.trans hle)]

/-- No longer front than the accepted one will do. -/
theorem le_demand_accepted (h : (accepted l ns).length < ns.length) :
    l.total ≤ demand l.perKey (accepted l ns) := by
  rw [demand_accepted]
  rcases lt_or_ge (demand l.perKey ns) l.total with hlt | hge
  · rw [accepted_of_lt hlt] at h
    exact absurd h (lt_irrefl _)
  · exact le_min le_rfl hge

end Fronts

/-! ### Runs -/

namespace Recorder

/-- What a recorder holds once the notices of a run have been added to it. -/
structure KeepsAccepted (l : Limits) (ns : List ValidationNotice) (r : Recorder) : Prop where
  limits : r.limits = l
  keys : ∀ k, k ∈ r.tally.keys ↔ k ∈ (accepted l ns).map (·.key)
  count : ∀ k, r.tally.count k = occurrences k (accepted l ns)
  retained : r.retained.toList = firstOfKeys l.perKey (accepted l ns)
  sawError : r.sawError = ns.any (·.isError)

namespace KeepsAccepted

variable {l : Limits} {ns : List ValidationNotice} {n : ValidationNotice} {r : Recorder}

theorem fresh : KeepsAccepted l [] (fresh l) where
  limits := rfl
  keys := by simp [Recorder.fresh]
  count := by simp [Recorder.fresh]
  retained := rfl
  sawError := rfl

theorem counts (h : KeepsAccepted l ns r) : r.tally.Counts ((accepted l ns).map (·.key)) :=
  ⟨h.keys, h.count⟩

theorem size (h : KeepsAccepted l ns r) :
    r.retained.size = min l.total (demand l.perKey ns) := by
  rw [← Journal.length_toList, h.retained, length_firstOfKeys, demand_accepted]

/-- A recorder has fewer notices than its limit exactly while the demand is below the limit. -/
theorem size_lt_iff (h : KeepsAccepted l ns r) :
    r.retained.size < r.limits.total ↔ demand l.perKey ns < l.total := by
  rw [h.limits, h.size]
  omega

/-- One more notice. -/
theorem add (h : KeepsAccepted l ns r) : KeepsAccepted l (ns ++ [n]) (r.addValidation n) := by
  have hsaw : (r.addValidation n).sawError = (ns ++ [n]).any (·.isError) := by
    simp [h.sawError]
  -- There is room exactly while the demand is below the limit, and then all of the run is accepted.
  rcases lt_or_ge (demand l.perKey ns) l.total with hlt | hge
  · have hroom : r.retained.size < r.limits.total := h.size_lt_iff.2 hlt
    have hkeys := h.keys
    have hcount := h.count
    have hretained := h.retained
    rw [accepted_of_lt hlt] at hkeys hcount hretained
    constructor
    case limits => rw [limits_addValidation, h.limits]
    case sawError => exact hsaw
    all_goals rw [accepted_concat_of_lt hlt]
    case keys =>
      intro k
      rw [tally_addValidation, if_pos hroom, Tally.mem_keys_add, hkeys, List.map_append,
        List.mem_append, List.map_singleton, List.mem_singleton, or_comm]
    case count =>
      intro k
      rw [tally_addValidation, if_pos hroom, Tally.count_add, occurrences_concat, hcount, hcount]
      split_ifs with heq
      · rw [heq]
      · rfl
    case retained =>
      rw [toList_retained_addValidation, firstOfKeys_concat, ← hretained, ← hcount, h.limits]
      by_cases hfew : r.tally.count n.key < l.perKey
      · rw [if_pos (And.intro (h.limits ▸ hroom) hfew), if_pos hfew]
      · rw [if_neg fun hboth => hfew hboth.2, if_neg hfew, List.append_nil]
  · have hfull : ¬r.retained.size < r.limits.total := fun hroom =>
      absurd (h.size_lt_iff.1 hroom) (not_lt.2 hge)
    constructor
    case limits => rw [limits_addValidation, h.limits]
    case sawError => exact hsaw
    all_goals rw [accepted_concat_of_le hge]
    case keys =>
      rw [tally_addValidation, if_neg hfull]
      exact h.keys
    case count =>
      rw [tally_addValidation, if_neg hfull]
      exact h.count
    case retained =>
      rw [toList_retained_addValidation, if_neg fun hboth => hfull hboth.1]
      exact h.retained

/-- A run of notices. -/
theorem foldl (l : Limits) (ns : List ValidationNotice) :
    KeepsAccepted l ns (ns.foldl addValidation (Recorder.fresh l)) := by
  induction ns using List.reverseRecOn with
  | nil => exact fresh
  | append_singleton ns n ih =>
    rw [List.foldl_append]
    exact ih.add

end KeepsAccepted

/-- The state after a run of notices. The accepted notices are the longest front of the run such
that before each of them the demand is below the limit for all. They are what counts, and of each
key the first ones up to the limit are kept; an error is remembered wherever it stands. -/
theorem state_foldl_addValidation (l : Limits) (ns : List ValidationNotice) :
    let r := ns.foldl addValidation (fresh l)
    let front := accepted l ns
    (front <+: ns ∧ (∀ i < front.length, demand l.perKey (ns.take i) < l.total) ∧
      (front.length < ns.length → l.total ≤ demand l.perKey (ns.take front.length))) ∧
    (∀ k, r.tally.get? k
      = if k ∈ front.map (·.key) then some (occurrences k front) else none) ∧
    r.retained.toList = firstOfKeys l.perKey front ∧
    r.retained.toList.length = min l.total (demand l.perKey ns) ∧
    (r.sawError = true ↔ ∃ n ∈ ns, n.severity = .error) := by
  intro r front
  have h : KeepsAccepted l ns r := KeepsAccepted.foldl l ns
  have hfront : front <+: ns := accepted_isPrefix l ns
  refine ⟨⟨hfront, fun i hi => demand_take_lt_of_lt_length hi, fun hlen => ?_⟩, fun k => ?_,
    h.retained, ?_, ?_⟩
  · rw [← List.prefix_iff_eq_take.1 hfront]
    exact le_demand_accepted hlen
  · rw [Tally.get?_eq, h.count]
    exact if_congr (h.keys k) rfl rfl
  · rw [Journal.length_toList, h.size]
  · simp [h.sawError, ValidationNotice.isError]

end Recorder

end NoticeLedger

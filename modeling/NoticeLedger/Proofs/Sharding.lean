import NoticeLedger.Proofs.Errands
import NoticeLedger.Proofs.Sampling

/-!
# Errands that share out the notices

Notices that are shared out among errands are kept by several recorders, each of which drops what
is beyond the limit of a key on its own. When the recorders are merged, more notices of a key can
be left than one recorder would have kept. The documents are the same nevertheless
(`Errand.exports_runTasks`).

A recorder represents a run of notices (`Recorder.Represents`) if it has counted all of them and
begins, for each key, with the same notices as the run, as far as the limit of a key reaches. One
recorder represents the run that it has taken (`Recorder.represents_foldl_add`), taking over
another recorder puts the runs behind each other (`Recorder.Represents.absorb`), and the documents
are those of the run (`Recorder.Represents.exportValidation_eq`).
-/

namespace NoticeLedger

/-! ### Notices of the two kinds -/

/-- The notice as a validation notice, if it is one. -/
def Notice.validation? : Notice → Option ValidationNotice
  | .validation n => some n
  | .system _     => none

/-- The notice as a system error, if it is one. -/
def Notice.system? : Notice → Option SystemError
  | .validation _ => none
  | .system e     => some e

/-- The validation notices among notices. -/
def validationsOf (ns : List Notice) : List ValidationNotice :=
  ns.filterMap Notice.validation?

/-- The system errors among notices. -/
def systemErrorsOf (ns : List Notice) : List SystemError :=
  ns.filterMap Notice.system?

section Kinds

variable (ns ms : List Notice)

@[simp] theorem validationsOf_append :
    validationsOf (ns ++ ms) = validationsOf ns ++ validationsOf ms :=
  List.filterMap_append

@[simp] theorem systemErrorsOf_append :
    systemErrorsOf (ns ++ ms) = systemErrorsOf ns ++ systemErrorsOf ms :=
  List.filterMap_append

end Kinds

namespace Recorder

/-! ### Notices of both kinds, one after another -/

theorem KeepsAccepted.addSystem {l : Limits} {ns : List ValidationNotice} {r : Recorder}
    (h : KeepsAccepted l ns r) (e : SystemError) : KeepsAccepted l ns (r.addSystem e) :=
  ⟨h.limits, h.keys, h.count, h.retained, h.sawError⟩

theorem keepsAccepted_foldl_add (l : Limits) (ns : List Notice) :
    KeepsAccepted l (validationsOf ns) (ns.foldl add (fresh l)) ∧
      HoldsErrors (systemErrorsOf ns) (ns.foldl add (fresh l)) := by
  induction ns using List.reverseRecOn with
  | nil => exact ⟨.fresh, .fresh l⟩
  | append_singleton ns n ih =>
    obtain ⟨hkeeps, hholds⟩ := ih
    rw [List.foldl_append, validationsOf_append, systemErrorsOf_append]
    cases n with
    | validation n =>
      refine ⟨hkeeps.add, ?_⟩
      have hnone : systemErrorsOf [.validation n] = [] := rfl
      rw [hnone, List.append_nil]
      exact hholds.addValidation n
    | system e =>
      refine ⟨?_, hholds.addSystem e⟩
      have hnone : validationsOf [.system e] = [] := rfl
      rw [hnone, List.append_nil]
      exact hkeeps.addSystem e

/-! ### Standing for a run -/

/-- The recorder stands for a run of notices: it has counted all of them, keeps no others, and
begins for each key with the notices that the run begins with. -/
structure Represents (l : Limits) (ns : List Notice) (r : Recorder) : Prop where
  limits : r.limits = l
  counts : r.tally.Counts ((validationsOf ns).map (·.key))
  kept : ∀ n ∈ r.retained.toList, n ∈ validationsOf ns
  first : ∀ k, (r.retained.toList.filter fun n => n.key = k).take l.perKey
    = ((validationsOf ns).filter fun n => n.key = k).take l.perKey
  errors : r.HoldsErrors (systemErrorsOf ns)

variable {l : Limits}

/-- A recorder of its own stands for the notices that it has taken, as long as there is room for all
those that are wanted. -/
theorem represents_foldl_add {ns : List Notice}
    (hroom : demand l.perKey (validationsOf ns) < l.total) :
    Represents l ns (ns.foldl add (fresh l)) := by
  obtain ⟨hkeeps, hholds⟩ := keepsAccepted_foldl_add l ns
  have hcounts := hkeeps.counts
  have hretained := hkeeps.retained
  rw [accepted_of_lt hroom] at hcounts hretained
  refine ⟨hkeeps.limits, hcounts, ?_, ?_, hholds⟩
  · intro n hn
    rw [hretained] at hn
    exact (firstOfKeys_sublist l.perKey _).subset hn
  · intro k
    rw [hretained, filter_firstOfKeys, List.take_take, Nat.min_self]

namespace Represents

variable {ns ms : List Notice} {r other : Recorder}

theorem fresh (l : Limits) : Represents l [] (fresh l) :=
  ⟨rfl, .empty, nofun, fun _ => rfl, .fresh l⟩

theorem absorb (h : Represents l ns r) (h' : Represents l ms other) :
    Represents l (ns ++ ms) (r.absorb other) := by
  constructor
  case limits => exact h.limits
  case counts =>
    rw [validationsOf_append, List.map_append]
    exact h.counts.merge h'.counts
  case kept =>
    intro n hn
    rw [toList_retained_absorb, List.mem_append] at hn
    rw [validationsOf_append, List.mem_append]
    exact hn.imp (h.kept n) (h'.kept n)
  case first =>
    -- Both recorders can keep as many of a key as one may, so only the front is the same.
    intro k
    rw [toList_retained_absorb, List.filter_append, ← take_append_take, h.first, h'.first,
      take_append_take, validationsOf_append, List.filter_append]
  case errors =>
    rw [systemErrorsOf_append]
    exact h.errors.absorb h'.errors

/-- No more contexts are shown of a key than the limit of a key, so the documents are those of the
run. -/
theorem exportValidation_eq (h : Represents l ns r) (hsamples : l.samples ≤ l.perKey) :
    r.exportValidation = .ok (groupsOf l.samples ((validationsOf ns).map .validation)) := by
  apply exportValidation_eq_groupsOf h.counts h.kept
  intro k
  have hfirst := congrArg (List.take l.samples) (h.first k)
  rw [List.take_take, List.take_take, Nat.min_eq_left hsamples] at hfirst
  rw [h.limits]
  exact hfirst

theorem exportSystem_eq (h : Represents l ns r) :
    r.exportSystem = .ok (groupsOf l.samples ((systemErrorsOf ns).map .system)) := by
  rw [← h.limits]
  exact exportSystem_eq_groupsOf h.errors.counts h.errors.errors

end Represents

end Recorder

namespace Errand

/-! ### Shared out notices -/

variable {l : Limits}

theorem represents_foldl_absorb {es : List Errand} (hnormal : ∀ e ∈ es, e.failure? = none)
    (hroom : ∀ e ∈ es, demand l.perKey (validationsOf e.notices) < l.total) (k : Nat)
    {ns : List Notice} {r : Recorder} (h : r.Represents l ns) :
    (((es.zipIdx k).map fun e => e.1.collected l e.2).foldl Recorder.absorb r).Represents l
      (ns ++ es.flatMap (·.notices)) := by
  induction es generalizing k ns r with
  | nil => simpa using h
  | cons e es ih =>
    have hcollected : e.collected l k = e.notices.foldl Recorder.add (.fresh l) := by
      rw [collected, hnormal e (List.mem_cons_self ..)]
    have hone := Recorder.represents_foldl_add (hroom e (List.mem_cons_self ..))
    rw [List.zipIdx_cons, List.map_cons, List.foldl_cons, List.flatMap_cons, ← List.append_assoc,
      hcollected]
    exact ih (fun e' he' => hnormal e' (List.mem_cons_of_mem e he'))
      (fun e' he' => hroom e' (List.mem_cons_of_mem e he')) (k + 1) (h.absorb hone)

theorem demand_notices_le {es : List Errand} {e : Errand} (he : e ∈ es) (p : Nat) :
    demand p (validationsOf e.notices) ≤ demand p (validationsOf (es.flatMap (·.notices))) := by
  apply demand_le_of_sublist
  apply List.Sublist.filterMap
  rw [List.flatMap_def]
  exact List.sublist_flatten_of_mem (List.mem_map_of_mem he)

/-- Errands that come to an end without a failure lead to the documents of one recorder to which
all their notices have been added in the order of the errands, if a document shows no more of a key
than is kept of it and there is room for all the notices that are wanted. -/
theorem exports_runTasks {workers? : Option Int} (hw : ∀ n ∈ workers?, 0 < n)
    (hsamples : l.samples ≤ l.perKey) {es : List Errand} (hnormal : ∀ e ∈ es, e.failure? = none)
    (hroom : demand l.perKey (validationsOf (es.flatMap (·.notices))) < l.total) :
    ∃ r groups errors, runTasks l workers? (es.map toTask) = .ok r ∧
      r.exportValidation = .ok groups ∧ r.exportSystem = .ok errors ∧
      ((es.flatMap (·.notices)).foldl Recorder.add (.fresh l)).exportValidation = .ok groups ∧
      ((es.flatMap (·.notices)).foldl Recorder.add (.fresh l)).exportSystem = .ok errors := by
  have hrooms : ∀ e ∈ es, demand l.perKey (validationsOf e.notices) < l.total := by
    intro e he
    exact (demand_notices_le he l.perKey).trans_lt hroom
  have hshared := represents_foldl_absorb hnormal hrooms 0 (Recorder.Represents.fresh l)
  rw [List.nil_append, ← collectInTurn] at hshared
  have halone := Recorder.represents_foldl_add hroom
  have htold : ∀ e ∈ es, e.untold? = none := by
    intro e he
    rw [untold?, hnormal e he]
  refine ⟨_, _, _, runTasks_of_told l hw htold, hshared.exportValidation_eq hsamples,
    hshared.exportSystem_eq, ?_, ?_⟩
  · exact halone.exportValidation_eq hsamples
  · exact halone.exportSystem_eq

/-- Two errands that find rows of one key, the second one also a locked file. -/
def shares : List Errand :=
  [⟨.type (Text.ofString "Rows"), [Recorder.staleRow 1, Recorder.staleRow 2].map .validation, none⟩,
    ⟨.type (Text.ofString "Files"),
      [.system ⟨⟨"file_locked", by decide⟩, .null⟩, .validation (Recorder.staleRow 3)], none⟩]

/-- The recorder that takes the notices of both errands. -/
def sharesAlone : Recorder :=
  (shares.flatMap (·.notices)).foldl Recorder.add (.fresh ⟨2, 1, 1⟩)

theorem exports_runTasks_shares :
    demand 1 (validationsOf (shares.flatMap (·.notices))) < 2 ∧
    ∃ r groups errors, runTasks ⟨2, 1, 1⟩ none (shares.map toTask) = .ok r ∧
      r.exportValidation = .ok groups ∧ r.exportSystem = .ok errors ∧
      sharesAlone.exportValidation = .ok groups ∧ sharesAlone.exportSystem = .ok errors ∧
      r.retained.size = 2 ∧ sharesAlone.retained.size = 1 ∧
      groups.map (fun g => (g.total, g.samples.length)) = [(3, 1)] := by
  have hw : ∀ n ∈ (none : Option Int), 0 < n := nofun
  have hroom : demand 1 (validationsOf (shares.flatMap (·.notices))) < 2 := by decide +kernel
  have hnormal : ∀ e ∈ shares, e.failure? = none := by
    simp [shares]
  obtain ⟨r, groups, errors, hr, hgroups, herrors, hgroups', herrors'⟩ :=
    exports_runTasks (l := ⟨2, 1, 1⟩) hw (by decide) hnormal hroom
  have hsize : (runTasks ⟨2, 1, 1⟩ none (shares.map toTask)).toOption.map (·.retained.size)
      = some 2 := by decide +kernel
  have hshown : (sharesAlone.exportValidation.toOption.map
      fun groups => groups.map fun g => (g.total, g.samples.length)) = some [(3, 1)] := by
    decide +kernel
  rw [hr] at hsize
  rw [sharesAlone, hgroups'] at hshown
  exact ⟨hroom, r, groups, errors, hr, hgroups, herrors, hgroups', herrors',
    Option.some.inj hsize, by decide +kernel, Option.some.inj hshown⟩

end Errand

end NoticeLedger

import Mathlib.Data.List.Basic
import Mathlib.Logic.Relation
import Mathlib.Order.BooleanAlgebra.Set
import NoticeLedger.Proofs.Differences

/-!
# Differences of error sets

All that a comparison uses of a report is the set of its error codes, and a difference is what
separates two such sets (`Diff.separates_between`, `Diff.Separates.unique`). Summaries can be put in
another order, repeated, given other totals and contexts, or joined by summaries of other
severities; these changes, made and taken back, lead from a report to exactly the reports with the
same set of error codes (`Report.tellsSame_iff`).
-/

namespace NoticeLedger

/-! ### Error sets -/

namespace Report

/-- The codes with which a report tells of errors. -/
def errorSet (r : Report) : Set String :=
  {code | r.ReportsError code}

/-- A change of summaries that leaves the error codes as they are. Together with a new order,
changes at the front can be made anywhere. -/
inductive Touches : List Summary → List Summary → Prop
  /-- The summaries stand in another order. -/
  | reorder {ss ts : List Summary} (h : ss.Perm ts) : Touches ss ts
  /-- A summary is repeated. -/
  | repeated {s : Summary} {ss : List Summary} (h : s ∈ ss) : Touches ss (s :: ss)
  /-- A summary gets another total and other contexts. -/
  | restate (s : Summary) (ss : List Summary) (total : Nat) (contexts : List Value) :
    Touches (s :: ss) ({ s with total, contexts } :: ss)
  /-- A summary of another severity is added. -/
  | other {s : Summary} (ss : List Summary) (h : s.severity ≠ .error) : Touches ss (s :: ss)

/-- Changes that leave the error codes as they are, made or taken back, lead from one report to the
other. -/
def TellsSame (r q : Report) : Prop :=
  Relation.EqvGen Touches r.summaries q.summaries

theorem mem_errorSet {r : Report} {code : String} :
    code ∈ r.errorSet ↔ ∃ s ∈ r.summaries, s.severity = .error ∧ s.code.text = code :=
  Iff.rfl

theorem Touches.errorSet_eq {ss ts : List Summary} (h : Touches ss ts) :
    errorSet ⟨ss⟩ = errorSet ⟨ts⟩ := by
  ext code
  simp only [mem_errorSet]
  cases h with
  | reorder h => simp [h.mem_iff]
  | repeated h =>
    simp only [List.exists_mem_cons_iff]
    constructor
    · exact Or.inr
    · rintro (herror | herror)
      · exact ⟨_, h, herror⟩
      · exact herror
  | restate s ss total contexts => simp
  | other ss h => simp [h]

theorem TellsSame.errorSet_eq {r q : Report} (h : r.TellsSame q) : r.errorSet = q.errorSet := by
  have hlists : ∀ ss ts, Relation.EqvGen Touches ss ts → errorSet ⟨ss⟩ = errorSet ⟨ts⟩ := by
    intro ss ts h
    induction h with
    | rel _ _ h => exact h.errorSet_eq
    | refl => rfl
    | symm _ _ _ ih => exact ih.symm
    | trans _ _ _ _ _ ih ih' => exact ih.trans ih'
  exact hlists _ _ h

/-- Summaries can be put in front if their errors are already told of. -/
theorem eqvGen_append {ss ts : List Summary}
    (h : ∀ t ∈ ts, t.severity = .error → t.code.text ∈ errorSet ⟨ss⟩) :
    Relation.EqvGen Touches ss (ts ++ ss) := by
  induction ts with
  | nil => exact .refl ss
  | cons t ts ih =>
    refine .trans _ _ _ (ih fun t ht => h t (List.mem_cons_of_mem _ ht)) ?_
    by_cases herror : t.severity = .error
    · -- An error with the code is there: it is repeated and gets the total and contexts of `t`.
      obtain ⟨s, hs, hseverity, hcode⟩ := h t (List.mem_cons_self ..) herror
      have ht : t = { s with total := t.total, contexts := t.contexts } := by
        obtain ⟨code, severity, total, contexts⟩ := t
        simp only at herror hcode
        rw [herror, ← hseverity, ← Code.ext hcode]
      refine .trans _ (s :: (ts ++ ss)) _ (.rel _ _ (.repeated (List.mem_append_right ts hs))) ?_
      rw [List.cons_append, ht]
      exact .rel _ _ (.restate s _ t.total t.contexts)
    · exact .rel _ _ (.other _ herror)

/-- The changes that leave error codes as they are lead to every report with these codes. -/
theorem tellsSame_iff {r q : Report} : r.TellsSame q ↔ r.errorSet = q.errorSet := by
  constructor
  · exact TellsSame.errorSet_eq
  · intro h
    have hr : Relation.EqvGen Touches r.summaries (q.summaries ++ r.summaries) :=
      eqvGen_append fun t ht herror => h ▸ ⟨t, ht, herror, rfl⟩
    have hq : Relation.EqvGen Touches q.summaries (r.summaries ++ q.summaries) :=
      eqvGen_append fun t ht herror => h ▸ ⟨t, ht, herror, rfl⟩
    have hperm : Relation.EqvGen Touches (q.summaries ++ r.summaries)
        (r.summaries ++ q.summaries) := .rel _ _ (.reorder List.perm_append_comm)
    exact .trans _ _ _ (.trans _ _ _ hr hperm) (.symm _ _ hq)

end Report

/-! ### Differences -/

namespace Diff

/-- The codes that are listed as new. -/
def newSet (d : Diff) : Set String :=
  {code | code ∈ d.newErrors}

/-- The codes that are listed as resolved. -/
def resolvedSet (d : Diff) : Set String :=
  {code | code ∈ d.resolvedErrors}

/-- The difference lists in ascending order what each of two sets has and the other has not. -/
structure Separates (d : Diff) (baseline candidate : Set String) : Prop where
  ascends_new : Ascends d.newErrors
  ascends_resolved : Ascends d.resolvedErrors
  newSet_eq : d.newSet = candidate \ baseline
  resolvedSet_eq : d.resolvedSet = baseline \ candidate

variable {d d' : Diff} {B C : Set String}

/-- Two sets are separated by one difference. -/
theorem Separates.unique (h : d.Separates B C) (h' : d'.Separates B C) : d = d' := by
  obtain ⟨new, resolved⟩ := d
  obtain ⟨new', resolved'⟩ := d'
  have hnew := Set.ext_iff.mp (h.newSet_eq.trans h'.newSet_eq.symm)
  have hresolved := Set.ext_iff.mp (h.resolvedSet_eq.trans h'.resolvedSet_eq.symm)
  congr
  · exact h.ascends_new.eq_of_mem_iff h'.ascends_new hnew
  · exact h.ascends_resolved.eq_of_mem_iff h'.ascends_resolved hresolved

theorem Separates.swap (h : d.Separates B C) :
    (Diff.mk d.resolvedErrors d.newErrors).Separates C B where
  ascends_new := h.ascends_resolved
  ascends_resolved := h.ascends_new
  newSet_eq := h.resolvedSet_eq
  resolvedSet_eq := h.newSet_eq

theorem Separates.disjoint (h : d.Separates B C) : d.newErrors.Disjoint d.resolvedErrors := by
  intro code hnew hresolved
  have hnew : code ∈ C \ B := h.newSet_eq ▸ hnew
  have hresolved : code ∈ B \ C := h.resolvedSet_eq ▸ hresolved
  exact hnew.2 hresolved.1

/-- Resolved codes taken away and new ones added, the one set becomes the other. -/
theorem Separates.leads (h : d.Separates B C) : B \ d.resolvedSet ∪ d.newSet = C := by
  rw [h.newSet_eq, h.resolvedSet_eq, Set.sdiff_sdiff_right_self, Set.inter_comm]
  exact Set.inter_union_sdiff C B

theorem Separates.hasNewErrors_eq_false_iff (h : d.Separates B C) :
    d.hasNewErrors = false ↔ C ⊆ B := by
  rw [← Set.sdiff_eq_empty, ← h.newSet_eq, Set.eq_empty_iff_forall_notMem, Bool.eq_false_iff, Ne,
    hasNewErrors_iff, not_exists]
  rfl

theorem separates_between (baseline candidate : Report) :
    (between baseline candidate).Separates baseline.errorSet candidate.errorSet where
  ascends_new := ascends_newErrors_between baseline candidate
  ascends_resolved := ascends_resolvedErrors_between baseline candidate
  newSet_eq := Set.ext fun _ => mem_newErrors_between
  resolvedSet_eq := Set.ext fun _ => mem_resolvedErrors_between

/-- A comparison lists in strictly ascending order, once each, the codes that only the candidate has
and those that only the baseline has. So the lists are disjoint and lead from one set of codes to
the other, they change places with the reports, none is new exactly if the candidate adds nothing,
and what is new after two steps is new after one of them. Nothing but the sets of error codes
counts. -/
theorem between_separates (baseline candidate : Report) :
    (Ascends (between baseline candidate).newErrors ∧
      Ascends (between baseline candidate).resolvedErrors) ∧
    ((between baseline candidate).newErrors.Nodup ∧
      (between baseline candidate).resolvedErrors.Nodup) ∧
    (between baseline candidate).newSet = candidate.errorSet \ baseline.errorSet ∧
    (between baseline candidate).resolvedSet = baseline.errorSet \ candidate.errorSet ∧
    (between baseline candidate).newErrors.Disjoint (between baseline candidate).resolvedErrors ∧
    baseline.errorSet \ (between baseline candidate).resolvedSet
      ∪ (between baseline candidate).newSet = candidate.errorSet ∧
    between candidate baseline
      = ⟨(between baseline candidate).resolvedErrors, (between baseline candidate).newErrors⟩ ∧
    ((between baseline candidate).hasNewErrors = false ↔
      candidate.errorSet ⊆ baseline.errorSet) ∧
    (∀ third : Report, (between baseline third).newSet
      ⊆ (between baseline candidate).newSet ∪ (between candidate third).newSet) ∧
    ∀ baseline' candidate' : Report, baseline.TellsSame baseline' → candidate.TellsSame candidate' →
      between baseline' candidate' = between baseline candidate := by
  have h := separates_between baseline candidate
  refine ⟨⟨h.ascends_new, h.ascends_resolved⟩, ⟨h.ascends_new.nodup, h.ascends_resolved.nodup⟩,
    h.newSet_eq, h.resolvedSet_eq, h.disjoint, h.leads,
    (separates_between candidate baseline).unique h.swap, h.hasNewErrors_eq_false_iff,
    fun third => ?_, fun baseline' candidate' hbaseline hcandidate => ?_⟩
  · rw [h.newSet_eq, (separates_between baseline third).newSet_eq,
      (separates_between candidate third).newSet_eq, Set.union_comm]
    exact sdiff_triangle _ _ _
  · have h' := separates_between baseline' candidate'
    rw [← Report.tellsSame_iff.mp hbaseline, ← Report.tellsSame_iff.mp hcandidate] at h'
    exact h'.unique h

end Diff

end NoticeLedger

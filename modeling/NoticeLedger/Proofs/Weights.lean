import NoticeLedger.Proofs.Bookkeeping
import NoticeLedger.Proofs.Consistency
import NoticeLedger.Proofs.Sharding

/-!
# How much merged recorders keep

Taking over looks at no limits, so a recorder that has taken over others can keep more notices than
its limits say. How many more is told by its weight (`weights`): a fresh recorder weighs one, and
one that takes over another one gains the weight of that. A recorder keeps at most its weight times
its limits, of each key and in all (`Recorder.StaysWithin`,
`Recorder.StaysWithin.of_afterAll`). A notice may still be added to a recorder that keeps more
than its limits: then either it is full, or the notice is among the first of its key, and then
no more notices of the key are kept than have counted.

Errands weigh one each, and the recorder that takes over what they have collected weighs nothing of
its own (`Errand.staysWithin_collectInTurn`).
-/

namespace NoticeLedger

open Roster (afterAll)

/-- A fresh recorder weighs one, and a recorder gains the weight of what it takes over. -/
def weights : Bookkeeping Nat where
  start := 1
  receive w _ := w
  unite w v := w + v

namespace Recorder

/-- The recorder keeps no more notices than `w` recorders with limits `l` may keep. -/
structure StaysWithin (l : Limits) (w : Nat) (r : Recorder) : Prop where
  limits : r.limits = l
  consistent : r.IsConsistent 0
  perKey : ∀ k, occurrences k r.retained.toList ≤ w * l.perKey
  total : r.retained.size ≤ w * l.total

theorem size_retained_addValidation (r : Recorder) (n : ValidationNotice) :
    (r.addValidation n).retained.size
      = r.retained.size +
        if r.retained.size < r.limits.total ∧ r.tally.count n.key < r.limits.perKey
        then 1 else 0 := by
  rw [← Journal.length_toList, toList_retained_addValidation, ← Journal.length_toList]
  split
  · rw [List.length_append, List.length_singleton]
  · rfl

namespace StaysWithin

variable {l : Limits} {w v : Nat} {r other : Recorder}

/-- Nothing has to be allowed to a fresh recorder before a notice is added to it. -/
theorem fresh (l : Limits) : StaysWithin l 0 (fresh l) where
  limits := rfl
  consistent := .fresh (Nat.zero_le _)
  perKey _ := Nat.zero_le _
  total := Nat.zero_le _

theorem mono (h : r.StaysWithin l w) (hwv : w ≤ v) : r.StaysWithin l v where
  limits := h.limits
  consistent := h.consistent
  perKey k := (h.perKey k).trans (Nat.mul_le_mul_right _ hwv)
  total := h.total.trans (Nat.mul_le_mul_right _ hwv)

/-- A notice that is kept is below the limits of one recorder. -/
theorem addValidation (h : r.StaysWithin l w) (hw : 1 ≤ w) (n : ValidationNotice) :
    (r.addValidation n).StaysWithin l w := by
  constructor
  case limits => rw [limits_addValidation, h.limits]
  case consistent => exact h.consistent.addValidation
  case perKey =>
    intro k
    have hle := h.perKey k
    have hcounted := h.consistent.kept_le k
    have hone := Nat.le_mul_of_pos_left l.perKey hw
    rw [occurrences_retained_addValidation, h.limits]
    split <;> omega
  case total =>
    have hle := h.total
    have hone := Nat.le_mul_of_pos_left l.total hw
    rw [size_retained_addValidation, h.limits]
    split <;> omega

theorem addSystem (h : r.StaysWithin l w) (e : SystemError) : (r.addSystem e).StaysWithin l w :=
  ⟨h.limits, h.consistent.addSystem, h.perKey, h.total⟩

theorem add (h : r.StaysWithin l w) (hw : 1 ≤ w) (n : Notice) : (r.add n).StaysWithin l w := by
  cases n with
  | validation n => exact h.addValidation hw n
  | system e     => exact h.addSystem e

theorem foldl_add (h : r.StaysWithin l w) (hw : 1 ≤ w) (ns : List Notice) :
    (ns.foldl Recorder.add r).StaysWithin l w := by
  induction ns generalizing r with
  | nil => exact h
  | cons n ns ih => exact ih (h.add hw n)

theorem absorb (h : r.StaysWithin l w) (h' : other.StaysWithin l v) :
    (r.absorb other).StaysWithin l (w + v) where
  limits := h.limits
  consistent := h.consistent.absorb h'.consistent
  perKey k := by
    rw [toList_retained_absorb, occurrences_append, Nat.add_mul]
    exact Nat.add_le_add (h.perKey k) (h'.perKey k)
  total := by
    rw [← Journal.length_toList, toList_retained_absorb, List.length_append,
      Journal.length_toList, Journal.length_toList, Nat.add_mul]
    exact Nat.add_le_add h.total h'.total

theorem consume (h : r.StaysWithin l w) : r.consume.StaysWithin l w :=
  ⟨h.limits, h.consistent.consume, h.perKey, h.total⟩

/-- The weight of a recorder is at least one, so a notice may be added to it. -/
theorem reflects (l : Limits) :
    weights.Reflects (· = l) fun w r => 1 ≤ w ∧ r.StaysWithin l w where
  fresh hl := ⟨Nat.le_refl 1, hl ▸ (fresh _).mono (Nat.zero_le 1)⟩
  add h n := ⟨h.1, h.2.add h.1 n⟩
  absorb h h' := ⟨Nat.le_add_right_of_le h.1, h.2.absorb h'.2⟩
  consume h := ⟨h.1, h.2.consume⟩

/-- Where all recorders have the same limits, every one stays within its weight. -/
theorem of_afterAll {es : List Event} (hes : ∀ e ∈ es, ∀ l' ∈ e.limits?, l' = l) {i : Nat}
    (hr : (afterAll es).recorders[i]? = some r) : r.StaysWithin l (weights.after es i) :=
  ((reflects l).of_afterAll hes hr).2

end StaysWithin

end Recorder

/-! ### Errands -/

namespace Errand

open Recorder (StaysWithin)

variable {l : Limits}

theorem staysWithin_collected (l : Limits) (index : Nat) (e : Errand) :
    (e.collected l index).StaysWithin l 1 := by
  have hfresh := (StaysWithin.fresh l).mono (Nat.zero_le 1)
  have hnotices := hfresh.foldl_add (Nat.le_refl 1) e.notices
  rw [collected]
  cases e.failure? with
  | none   => exact hnotices
  | some f =>
    dsimp only [Recorder.addFailure]
    split
    · exact hnotices.addSystem _
    · exact hnotices

theorem staysWithin_foldl_absorb {rs : List Recorder} (hrs : ∀ r ∈ rs, r.StaysWithin l 1)
    {w : Nat} {r : Recorder} (h : r.StaysWithin l w) :
    (rs.foldl Recorder.absorb r).StaysWithin l (w + rs.length) := by
  induction rs generalizing w r with
  | nil => exact h
  | cons other rs ih =>
    have hone := h.absorb (hrs other (List.mem_cons_self ..))
    rw [List.foldl_cons, List.length_cons, Nat.add_comm rs.length, ← Nat.add_assoc]
    exact ih (fun x hx => hrs x (List.mem_cons_of_mem _ hx)) hone

theorem staysWithin_collectInTurn (l : Limits) (es : List Errand) :
    (collectInTurn l es).StaysWithin l es.length := by
  have hall : ∀ r ∈ es.zipIdx.map fun e => e.1.collected l e.2, r.StaysWithin l 1 := by
    intro r hr
    obtain ⟨e, _, rfl⟩ := List.mem_map.1 hr
    exact staysWithin_collected l e.2 e.1
  have h := staysWithin_foldl_absorb hall (StaysWithin.fresh l)
  rwa [List.length_map, List.length_zipIdx, Nat.zero_add] at h

end Errand

/-! ### Every run -/

/-- Where all recorders have the same limits, each of them keeps at most its weight times the
limits, of every key and in all, whatever events lead to it. The recorder that running errands leads
to, where every failure has a text, keeps at most as much as the errands may keep apart. -/
theorem retained_le_weight {l : Limits} {es : List Event}
    (hes : ∀ e ∈ es, ∀ l' ∈ e.limits?, l' = l) {i : Nat} {r : Recorder}
    (hr : (afterAll es).recorders[i]? = some r) :
    (∀ k, occurrences k r.retained.toList ≤ weights.after es i * l.perKey) ∧
    r.retained.size ≤ weights.after es i * l.total ∧
    ∀ (workers? : Option Int) (errands : List Errand), (∀ n ∈ workers?, 0 < n) →
      (∀ e ∈ errands, e.untold? = none) →
      ∃ merged, runTasks l workers? (errands.map Errand.toTask) = .ok merged ∧
        (∀ k, occurrences k merged.retained.toList ≤ errands.length * l.perKey) ∧
        merged.retained.size ≤ errands.length * l.total := by
  have h := Recorder.StaysWithin.of_afterAll hes hr
  refine ⟨h.perKey, h.total, fun workers? errands hw htold => ?_⟩
  have hmerged := Errand.staysWithin_collectInTurn l errands
  exact ⟨_, Errand.runTasks_of_told l hw htold, hmerged.perKey, hmerged.total⟩

/-- A run in which recorder 0 takes over two recorders that are full, of which the second has taken
over another one before, and is handed one more notice. -/
def heaping : List Event :=
  let late (i : Nat) := Call.addValidation i (.validation Roster.lateDelivery)
  [.openCoordinator ⟨2, 1, 5⟩, .openRecorder ⟨2, 1, 5⟩, .openRecorder ⟨2, 1, 5⟩,
    .openRecorder ⟨2, 1, 5⟩, .call (late 1), .call (late 2), .call (late 3), .call (late 3),
    .call (.merge 2 3), .call (.join 0 1), .call (.join 0 2), .call (.join 0 2), .call (late 0)]

theorem retained_heaping :
    (∀ e ∈ heaping, ∀ l' ∈ e.limits?, l' = ⟨2, 1, 5⟩) ∧
    (∃ r, (afterAll heaping).recorders[0]? = some r ∧
      occurrences Roster.lateDelivery.key r.retained.toList = 3 ∧
      occurrences Roster.lateDelivery.key r.retained.toList ≤ weights.after heaping 0 * 1 ∧
      r.retained.size ≤ weights.after heaping 0 * 2 ∧ weights.after heaping 0 = 4) ∧
    ∃ merged, runTasks ⟨2, 1, 5⟩ (some 1) (Errand.shares.map Errand.toTask) = .ok merged ∧
      merged.retained.size ≤ 2 * 2 := by
  have hes : ∀ e ∈ heaping, ∀ l' ∈ e.limits?, l' = ⟨2, 1, 5⟩ := by
    simp [heaping, Event.limits?]
  have hkept : (afterAll heaping).recorders[0]?.map
      (occurrences Roster.lateDelivery.key ·.retained.toList) = some 3 := by decide +kernel
  obtain ⟨r, hr, hthree⟩ := Option.map_eq_some_iff.1 hkept
  obtain ⟨hkey, htotal, hrun⟩ := retained_le_weight hes hr
  obtain ⟨merged, hmerged, -, hsize⟩ := hrun (some 1) Errand.shares (by decide) (by decide)
  exact ⟨hes, ⟨r, hr, hthree, hkey _, htotal, by decide +kernel⟩, merged, hmerged, hsize⟩

end NoticeLedger

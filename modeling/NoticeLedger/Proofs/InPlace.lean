import NoticeLedger.Proofs.Calls
import NoticeLedger.Roster.InPlace

/-!
# Calls in place: all or nothing

The steps of a call either come to their end, with the roster that the call leads to, or they are
refused before the first of them has changed anything (`Routine.run_execute`). The proof follows
the steps: what is done to one recorder is told by the recorder that it becomes
(`Routine.run_change_put`), and each reason to refuse a call is found while the roster is still the
one it started with.
-/

namespace NoticeLedger

open Recorder (Refusal)

theorem modify_eq_set_of_getElem? {α : Type} {l : List α} {i : Nat} {a : α} (h : l[i]? = some a)
    (f : α → α) : l.modify i f = l.set i (f a) := by
  have : Inhabited α := ⟨a⟩
  rw [List.modify_eq_set, h]
  rfl

theorem KeyMap.alterEntries_congr {α : Type} {k : Key} {f g : Option α → α}
    {es : List (Key × α)} (h : f (find? k es) = g (find? k es)) :
    alterEntries k f es = alterEntries k g es := by
  induction es with
  | nil => exact congrArg (fun a => [(k, a)]) h
  | cons e es ih =>
    simp only [find?, alterEntries] at h ⊢
    split at h
    · rename_i he
      rw [if_pos he, if_pos he, h]
    · rename_i he
      rw [if_neg he, if_neg he, ih h]

/-- Setting a number that has been read and raised is raising it. -/
theorem Tally.alter_count (t : Tally) (k : Key) (n : Nat) :
    (t.alter k fun _ => t.count k + n) = t.add k n := by
  unfold Tally.add KeyMap.alter
  congr 1
  exact KeyMap.alterEntries_congr rfl

variable {α β : Type} {s s' : Roster} {i j c : Nat} {r other : Recorder} {k : Coordinator}

/-! ### One recorder of a roster -/

namespace Roster

theorem put_put (s : Roster) (i : Nat) (r r' : Recorder) : (s.put i r).put i r' = s.put i r' := by
  simp [put]

theorem put_of_getElem? (h : s.recorders[i]? = some r) : s.put i r = s := by
  obtain ⟨hi, rfl⟩ := List.getElem?_eq_some_iff.1 h
  simp [put]

theorem getElem?_put_self (h : s.recorders[i]? = some r) (r' : Recorder) :
    (s.put i r').recorders[i]? = some r' := by
  simp [put, List.getElem?_set_self', h]

theorem getElem?_put_ne (h : i ≠ j) (r' : Recorder) :
    (s.put i r').recorders[j]? = s.recorders[j]? := by
  simp [put, List.getElem?_set_ne h]

end Roster

namespace Routine

/-! ### Steps -/

theorem run_bind_ok {x : Routine α} {f : α → Routine β} {a : α} (h : x.run s = .ok a s') :
    (x >>= f).run s = (f a).run s' := by
  simp only [EStateM.run_bind, h]

theorem run_bind_error {x : Routine α} {f : α → Routine β} {e : Refusal}
    (h : x.run s = .error e s') : (x >>= f).run s = .error e s' := by
  simp only [EStateM.run_bind, h]

theorem run_recorder (h : s.recorders[i]? = some r) : (recorder i).run s = .ok r s := by
  simp only [recorder, EStateM.run, h]

theorem run_recorder_none (h : s.recorders[i]? = none) :
    (recorder i).run s = .error .unknown s := by
  simp only [recorder, EStateM.run, h]

theorem run_coordinator (h : s.coordinators[c]? = some k) :
    (coordinator c).run s = .ok k s := by
  simp only [coordinator, EStateM.run, h]

theorem run_coordinator_none (h : s.coordinators[c]? = none) :
    (coordinator c).run s = .error .unknown s := by
  simp only [coordinator, EStateM.run, h]

theorem run_change (h : s.recorders[i]? = some r) (f : Recorder → Recorder) :
    (change i f).run s = .ok () (s.put i (f r)) := by
  rw [Roster.put, ← modify_eq_set_of_getElem? h]
  rfl

/-- The second and every further change of a recorder. -/
theorem run_change_put (h : s.recorders[i]? = some r) (r' : Recorder) (f : Recorder → Recorder) :
    (change i f).run (s.put i r') = .ok () (s.put i (f r')) := by
  rw [run_change (Roster.getElem?_put_self h r'), Roster.put_put]

theorem run_changeCoordinator (h : s.coordinators[c]? = some k) (f : Coordinator → Coordinator) :
    (changeCoordinator c f).run s =
      .ok () { s with coordinators := s.coordinators.set c (f k) } := by
  rw [← modify_eq_set_of_getElem? h]
  rfl

/-! ### What is done to one recorder -/

theorem run_noteError (h : s.recorders[i]? = some r) (n : ValidationNotice) :
    (noteError i n).run s = .ok () (s.put i (r.noteError n)) := by
  unfold noteError Recorder.noteError
  split
  · rename_i hn
    rw [run_change h, hn, Bool.or_true]
  · rename_i hn
    rw [Bool.not_eq_true] at hn
    rw [hn, Bool.or_false, Roster.put_of_getElem? h]
    rfl

theorem run_keep (h : s.recorders[i]? = some r) (n : ValidationNotice) :
    (keep i n).run s = .ok () (s.put i (r.keep n)) := by
  unfold keep Recorder.keep
  rw [run_bind_ok (run_recorder h), run_bind_ok (run_change h _), ← Tally.alter_count]
  split
  · exact run_change_put h _ _
  · rfl

/-- Raising a tally key by key takes over the whole other tally, whichever tally it is. -/
theorem run_addCounts (h : s.recorders[i]? = some r) (r' : Recorder)
    {onTally : (Tally → Tally) → Recorder → Recorder} (hid : ∀ r, onTally id r = r)
    (hcomp : ∀ f g r, onTally g (onTally f r) = onTally (g ∘ f) r) (source : Tally) :
    (addCounts i onTally source).run (s.put i r') =
      .ok () (s.put i (onTally (·.merge source) r')) := by
  unfold addCounts Tally.merge
  induction source.entries generalizing r' with
  | nil => exact congrArg (fun r => EStateM.Result.ok () (s.put i r)) (hid r').symm
  | cons e es ih =>
    refine (run_bind_ok (run_change_put h r' _)).trans ((ih _).trans ?_)
    rw [hcomp]
    rfl

theorem run_absorb (h : s.recorders[i]? = some r) (other : Recorder) :
    (absorb i other).run s = .ok () (s.put i (r.absorb other)) := by
  unfold absorb
  rw [run_bind_ok (run_change h _), run_bind_ok (run_change_put h _ _),
    run_bind_ok (run_addCounts h _ (fun _ => rfl) (fun _ _ _ => rfl) _),
    run_bind_ok (run_addCounts h _ (fun _ => rfl) (fun _ _ _ => rfl) _), run_change_put h]
  rfl

/-! ### Calls -/

/-- What steps come to that are refused only before they change anything. -/
def allOrNothing (s : Roster) : Except Refusal Roster → EStateM.Result Refusal Roster Unit
  | .ok s'   => .ok () s'
  | .error e => .error e s

theorem run_addValidation (s : Roster) (i : Nat) (n : Notice) :
    (addValidation i n).run s = allOrNothing s (s.call (.addValidation i n)) := by
  simp only [Roster.call, Roster.modify, addValidation]
  cases h : s.recorders[i]? with
  | none => exact run_bind_error (run_recorder_none h)
  | some r =>
    rw [run_bind_ok (run_recorder h)]
    cases n with
    | system e => rfl
    | validation n =>
      have hnoted := Roster.getElem?_put_self h (r.noteError n)
      -- remembering an error does not change whether the recorder is full
      have hfull : (r.noteError n).isFull = r.isFull := rfl
      dsimp only
      rw [run_bind_ok (run_noteError h n), run_bind_ok (run_recorder hnoted), hfull,
        Recorder.addAsValidation, Recorder.addValidation]
      split
      · rfl
      · rw [run_keep hnoted, Roster.put_put]
        rfl

theorem run_addSystem (s : Roster) (i : Nat) (n : Notice) :
    (addSystem i n).run s = allOrNothing s (s.call (.addSystem i n)) := by
  simp only [Roster.call, Roster.modify, addSystem]
  cases h : s.recorders[i]? with
  | none => exact run_bind_error (run_recorder_none h)
  | some r =>
    rw [run_bind_ok (run_recorder h)]
    cases n with
    | validation n => rfl
    | system e =>
      dsimp only
      rw [run_bind_ok (run_change h _), run_change_put h]
      rfl

theorem run_merge (s : Roster) (i j : Nat) :
    (merge i j).run s = allOrNothing s (s.merge i j) := by
  unfold merge Roster.merge
  split
  · rfl
  · rename_i hne
    cases hr : s.recorders[i]? with
    | none => exact run_bind_error (run_recorder_none hr)
    | some r =>
      rw [run_bind_ok (run_recorder hr)]
      cases ho : s.recorders[j]? with
      | none => exact run_bind_error (run_recorder_none ho)
      | some other =>
        rw [run_bind_ok (run_recorder ho)]
        dsimp only
        unfold Recorder.merge
        split
        · rfl
        · have hsource : (s.put i (r.absorb other)).recorders[j]? = some other := by
            rw [Roster.getElem?_put_ne (Ne.symm hne), ho]
          rw [run_bind_ok (run_absorb hr other), run_change hsource]
          rfl

theorem run_join (s : Roster) (c j : Nat) :
    (join c j).run s = allOrNothing s (s.join c j) := by
  unfold join Roster.join
  cases hc : s.coordinators[c]? with
  | none => exact run_bind_error (run_coordinator_none hc)
  | some k =>
    rw [run_bind_ok (run_coordinator hc)]
    dsimp only
    split
    · rfl
    · have hrun := run_merge s k.destination j
      cases hmerge : s.merge k.destination j with
      | error e =>
        rw [hmerge] at hrun
        exact run_bind_error hrun
      | ok s' =>
        rw [hmerge] at hrun
        rw [run_bind_ok hrun]
        -- merging leaves the coordinators as they are
        obtain ⟨r, other, -, -, -, -, rfl⟩ := Roster.merge_ok hmerge
        exact run_changeCoordinator (s := (s.put _ _).put _ _) hc _

/-- The steps of a call do all of the call, or they are refused and have done nothing. -/
theorem run_execute (s : Roster) (call : Call) :
    (execute call).run s = allOrNothing s (s.call call) := by
  cases call with
  | addValidation i n => exact run_addValidation s i n
  | addSystem i n     => exact run_addSystem s i n
  | merge i j         => exact run_merge s i j
  | join c j          => exact run_join s c j

end Routine

end NoticeLedger

import NoticeLedger.Proofs.Conservation
import NoticeLedger.Proofs.Refusals

/-!
# Recorders only grow

Whatever happens to a roster, its recorders stay where they are, and of what a recorder holds
nothing is taken away: lists grow at their ends, numbers do not sink, and what is remembered is not
forgotten (`Recorder.GrowsTo`). Every call does so for every recorder, those that are consumed or
hold more than their limits included, and so does a run (`Roster.exists_growsTo_afterAll`).

A call changes the recorder to which it writes, and of the others only the source of a merge or a
join, which is consumed by it (`Roster.leftBy_of_ne_target`). A recorder that is full stays full
(`Recorder.GrowsTo.isFull`).
-/

namespace NoticeLedger

namespace Recorder

variable {r r' r'' : Recorder}

/-- What a recorder holds is found again in what it holds later. -/
structure GrowsTo (r r' : Recorder) : Prop where
  limits : r'.limits = r.limits
  retained : r.retained.toList <+: r'.retained.toList
  systemErrors : r.systemErrors.toList <+: r'.systemErrors.toList
  count_le : ∀ k, r.tally.count k ≤ r'.tally.count k
  systemCount_le : ∀ k, r.systemTally.count k ≤ r'.systemTally.count k
  sawError : r.sawError = true → r'.sawError = true
  consumed : r.consumed = true → r'.consumed = true

namespace GrowsTo

theorem refl (r : Recorder) : r.GrowsTo r where
  limits := rfl
  retained := List.prefix_rfl
  systemErrors := List.prefix_rfl
  count_le _ := Nat.le_refl _
  systemCount_le _ := Nat.le_refl _
  sawError := id
  consumed := id

theorem trans (h : r.GrowsTo r') (h' : r'.GrowsTo r'') : r.GrowsTo r'' where
  limits := h'.limits.trans h.limits
  retained := h.retained.trans h'.retained
  systemErrors := h.systemErrors.trans h'.systemErrors
  count_le k := (h.count_le k).trans (h'.count_le k)
  systemCount_le k := (h.systemCount_le k).trans (h'.systemCount_le k)
  sawError hr := h'.sawError (h.sawError hr)
  consumed hr := h'.consumed (h.consumed hr)

/-! ### Changes of a recorder -/

theorem addValidation (r : Recorder) (n : ValidationNotice) : r.GrowsTo (r.addValidation n) where
  limits := limits_addValidation r n
  retained := by
    rw [toList_retained_addValidation]
    split
    · exact List.prefix_append _ _
    · exact List.prefix_rfl
  systemErrors := by rw [systemErrors_addValidation]
  count_le k := by
    rw [count_tally_addValidation]
    exact Nat.le_add_right _ _
  systemCount_le k := by rw [systemTally_addValidation]
  sawError hr := by rw [sawError_addValidation, hr, Bool.true_or]
  consumed hr := by rw [consumed_addValidation, hr]

theorem addSystem (r : Recorder) (e : SystemError) : r.GrowsTo (r.addSystem e) where
  limits := rfl
  retained := List.prefix_rfl
  systemErrors := by
    rw [toList_systemErrors_addSystem]
    exact List.prefix_append _ _
  count_le _ := Nat.le_refl _
  systemCount_le k := by
    rw [count_systemTally_addSystem]
    exact Nat.le_add_right _ _
  sawError := id
  consumed := id

theorem absorb (r other : Recorder) : r.GrowsTo (r.absorb other) where
  limits := rfl
  retained := by
    rw [toList_retained_absorb]
    exact List.prefix_append _ _
  systemErrors := by
    rw [toList_systemErrors_absorb]
    exact List.prefix_append _ _
  count_le k := by
    rw [count_tally_absorb]
    exact Nat.le_add_right _ _
  systemCount_le k := by
    rw [count_systemTally_absorb]
    exact Nat.le_add_right _ _
  sawError hr := by rw [sawError_absorb, hr, Bool.true_or]
  consumed := id

theorem consume (r : Recorder) : r.GrowsTo r.consume :=
  { refl r with consumed := fun _ => rfl }

/-! ### Full recorders -/

/-- A full recorder stays full: its limits are the same and it keeps no fewer notices. -/
theorem isFull (h : r.GrowsTo r') (hfull : r.limits.total ≤ r.retained.size) :
    r'.limits.total ≤ r'.retained.size := by
  rw [h.limits, ← Journal.length_toList]
  rw [← Journal.length_toList] at hfull
  exact hfull.trans h.retained.length_le

end GrowsTo

end Recorder

namespace Roster

open Recorder (GrowsTo)

variable {s : Roster} {c : Call} {i j m : Nat} {r other : Recorder} {rs : List Recorder}

/-! ### One event -/

theorem exists_growsTo_set (hr : s.recorders[i]? = some r) {r' : Recorder} (hgrows : r.GrowsTo r')
    {x : Recorder} (hx : s.recorders[m]? = some x) :
    ∃ x', (s.recorders.set i r')[m]? = some x' ∧ x.GrowsTo x' := by
  by_cases hm : m = i
  · subst hm
    obtain rfl := Option.some.inj (hr.symm.trans hx)
    exact ⟨r', by simp [List.getElem?_set_self', hr], hgrows⟩
  · exact ⟨x, by rw [List.getElem?_set_ne (Ne.symm hm), hx], .refl x⟩

theorem TakenOver.exists_growsTo (h : s.TakenOver i j r other rs) (hr : s.recorders[i]? = some r)
    (ho : s.recorders[j]? = some other) {x : Recorder} (hx : s.recorders[m]? = some x) :
    ∃ x', rs[m]? = some x' ∧ x.GrowsTo x' := by
  by_cases hi : m = i
  · subst hi
    obtain rfl := Option.some.inj (hr.symm.trans hx)
    exact ⟨_, h.target, .absorb r other⟩
  · by_cases hj : m = j
    · subst hj
      obtain rfl := Option.some.inj (ho.symm.trans hx)
      exact ⟨_, h.source, .consume other⟩
    · exact ⟨x, by rw [h.rest m hi hj, hx], .refl x⟩

theorem Recorded.exists_growsTo (h : s.Recorded c rs) {x : Recorder}
    (hx : s.recorders[m]? = some x) : ∃ x', rs[m]? = some x' ∧ x.GrowsTo x' := by
  cases h with
  | validation hr => exact exists_growsTo_set hr (.addValidation _ _) hx
  | system hr     => exact exists_growsTo_set hr (.addSystem _ _) hx
  | merge hne hr ho _    => exact (takenOver_set hne hr ho).exists_growsTo hr ho hx
  | join _ hne hr ho _   => exact (takenOver_set hne hr ho).exists_growsTo hr ho hx

theorem exists_growsTo_openRecorder (l : Limits) (hr : s.recorders[i]? = some r) :
    ∃ r', (s.openRecorder l).recorders[i]? = some r' ∧ r.GrowsTo r' := by
  obtain ⟨hi, -⟩ := List.getElem?_eq_some_iff.1 hr
  exact ⟨r, by rw [openRecorder, List.getElem?_append_left hi, hr], .refl r⟩

/-- After an event every recorder is in its place and has only grown. -/
theorem exists_growsTo_happen (e : Event) (hr : s.recorders[i]? = some r) :
    ∃ r', (s.happen e).recorders[i]? = some r' ∧ r.GrowsTo r' := by
  cases e with
  | openRecorder l    => exact exists_growsTo_openRecorder l hr
  | openCoordinator l => exact exists_growsTo_openRecorder l hr
  | call c =>
    rw [happen, leftBy_eq]
    rcases s.perform_cases c with ⟨_, _, hsame⟩ | hok
    · exact ⟨r, by rw [hsame, hr], .refl r⟩
    · exact (recorded_of_call hok).exists_growsTo hr

/-! ### Runs -/

theorem exists_growsTo_foldl_happen (es : List Event) (hr : s.recorders[i]? = some r) :
    ∃ r', (es.foldl happen s).recorders[i]? = some r' ∧ r.GrowsTo r' := by
  induction es generalizing s r with
  | nil => exact ⟨r, hr, .refl r⟩
  | cons e es ih =>
    obtain ⟨next, hnext, hgrows⟩ := exists_growsTo_happen e hr
    obtain ⟨last, hlast, hgrows'⟩ := ih hnext
    exact ⟨last, hlast, hgrows.trans hgrows'⟩

theorem afterAll_append (es fs : List Event) :
    afterAll (es ++ fs) = fs.foldl happen (afterAll es) :=
  List.foldl_append

/-- Of any two moments of a run the earlier recorder has grown to the later one. -/
theorem exists_growsTo_afterAll (es fs : List Event) (hr : (afterAll es).recorders[i]? = some r) :
    ∃ r', (afterAll (es ++ fs)).recorders[i]? = some r' ∧ r.GrowsTo r' := by
  rw [afterAll_append]
  exact exists_growsTo_foldl_happen fs hr

/-! ### What a call leaves alone -/

theorem TakenOver.getElem?_of_ne (h : s.TakenOver i j r other rs)
    (ho : s.recorders[j]? = some other) (hm : m ≠ i) :
    rs[m]? = if j = m then (s.recorders[m]?).map Recorder.consume else s.recorders[m]? := by
  split
  · rename_i hj
    subst hj
    rw [h.source, ho, Option.map_some]
  · rename_i hj
    exact h.rest m hm (Ne.symm hj)

theorem Recorded.getElem?_of_ne_target (h : s.Recorded c rs) (hm : s.target? c ≠ some m) :
    rs[m]? = if c.takes m then (s.recorders[m]?).map Recorder.consume else s.recorders[m]? := by
  cases h with
  | validation _ | system _ =>
    have hne : _ ≠ m := fun heq => hm (congrArg some heq)
    rw [List.getElem?_set_ne hne]
    rfl
  | merge hne hr ho _ =>
    have hne' : m ≠ _ := fun heq => hm (congrArg some heq.symm)
    simpa only [Call.takes, decide_eq_true_eq]
      using (takenOver_set hne hr ho).getElem?_of_ne ho hne'
  | join hc hne hr ho _ =>
    have hne' : m ≠ _ := fun heq => hm (by rw [heq, target?, hc, Option.map_some])
    simpa only [Call.takes, decide_eq_true_eq]
      using (takenOver_set hne hr ho).getElem?_of_ne ho hne'

/-- Of the recorders to which a call does not write it changes at most its source, which is
consumed by it, and a refused call changes none. -/
theorem leftBy_of_ne_target (hm : s.target? c ≠ some m) :
    (s.Refuses c ∨ c.takes m = false →
      (s.leftBy c).recorders[m]? = s.recorders[m]?) ∧
    (¬s.Refuses c → c.takes m = true →
      (s.leftBy c).recorders[m]? = (s.recorders[m]?).map Recorder.consume) := by
  rcases s.perform_cases c with ⟨e, hrefused, -⟩ | hok
  · have hrefuses : s.Refuses c := refuses_iff.2 ⟨e, hrefused⟩
    exact ⟨fun _ => by rw [leftBy_of_refuses hrefuses], fun hnot => absurd hrefuses hnot⟩
  · have haccepted : ¬s.Refuses c := by
      rw [refuses_iff]
      rintro ⟨e, he⟩
      exact nomatch he.symm.trans hok
    have hrest := (recorded_of_call hok).getElem?_of_ne_target hm
    rw [leftBy_eq]
    refine ⟨fun h => ?_, fun _ htakes => by rw [hrest, if_pos htakes]⟩
    rw [hrest, h.resolve_left haccepted, if_neg Bool.false_ne_true]

/-- A full recorder is not changed by a validation notice but for remembering an error. -/
theorem exists_leftBy_addValidation_of_full (hr : s.recorders[i]? = some r)
    (hfull : r.limits.total ≤ r.retained.size) (n : Notice) :
    ∃ r', (s.leftBy (.addValidation i n)).recorders[i]? = some r' ∧ r'.retained = r.retained ∧
      r'.tally = r.tally ∧ r'.systemTally = r.systemTally := by
  cases n with
  | system e =>
    have hrefuses := (refuses_addValidation_iff hr (.system e)).2 ⟨e, rfl⟩
    exact ⟨r, by rw [leftBy_of_refuses hrefuses, hr], rfl, rfl, rfl⟩
  | validation n =>
    have hcall : s.call (.addValidation i (.validation n)) = .ok (s.put i (r.noteError n)) := by
      simp only [call, modify, hr, Recorder.addAsValidation, Recorder.addValidation_of_le n hfull]
      rfl
    refine ⟨r.noteError n, ?_, rfl, rfl, rfl⟩
    rw [leftBy_eq, perform, hcall]
    exact getElem?_put_self hr _

/-! ### Every run -/

/-- Of any two moments of a run, what a recorder holds at the earlier one is found again at the
later one: its lists at the front of the later lists, its numbers not lowered, an error remembered
and a takeover not undone. If it is full at the earlier moment, a validation notice that is added at
the later one changes neither what it keeps nor what it has counted. And at any moment a call
changes no recorder to which it does not write, except that the source of a merge or a join that is
not refused is consumed by it. -/
theorem appendOnly_afterAll (es : List Event) :
    (∀ fs i r, (afterAll es).recorders[i]? = some r →
      ∃ r', (afterAll (es ++ fs)).recorders[i]? = some r' ∧ r.GrowsTo r' ∧
        (r.limits.total ≤ r.retained.size → ∀ n,
          ∃ r'', ((afterAll (es ++ fs)).leftBy (.addValidation i n)).recorders[i]? = some r'' ∧
            r''.retained = r'.retained ∧ r''.tally = r'.tally ∧
            r''.systemTally = r'.systemTally)) ∧
    ∀ c m, (afterAll es).target? c ≠ some m →
      ((afterAll es).Refuses c ∨ c.takes m = false →
        ((afterAll es).leftBy c).recorders[m]? = (afterAll es).recorders[m]?) ∧
      (¬(afterAll es).Refuses c → c.takes m = true →
        ((afterAll es).leftBy c).recorders[m]?
          = ((afterAll es).recorders[m]?).map Recorder.consume) := by
  refine ⟨fun fs i r hr => ?_, fun c m hm => leftBy_of_ne_target hm⟩
  obtain ⟨r', hr', hgrows⟩ := exists_growsTo_afterAll es fs hr
  exact ⟨r', hr', hgrows, fun hfull n =>
    exists_leftBy_addValidation_of_full hr' (hgrows.isFull hfull) n⟩

/-- A coordinator and a recorder that is full with one notice when the coordinator joins it. -/
def handover : List Event :=
  [.openCoordinator ⟨3, 1, 1⟩, .openRecorder ⟨1, 1, 1⟩,
    .call (.addValidation 1 (.validation ⟨⟨"seal_missing", by decide⟩, .error, .null⟩)),
    .call (.join 0 1)]

/-- What happens to the two recorders afterwards. The one that is full takes over the destination of
the coordinator, and so all that it has handed over itself. -/
def aftermath : List Event :=
  [.call (.addSystem 1 (.system ⟨⟨"seal_missing", by decide⟩, .null⟩)), .call (.join 0 1),
    .call (.merge 1 0)]

theorem appendOnly_handover :
    (∃ r r' n r'', (afterAll handover).recorders[1]? = some r ∧
      (afterAll (handover ++ aftermath)).recorders[1]? = some r' ∧ r.GrowsTo r' ∧
      r.consumed = true ∧ r.retained.size = 1 ∧ r'.retained.size = 2 ∧
      r'.systemErrors.size = 1 ∧
      ((afterAll (handover ++ aftermath)).leftBy (.addValidation 1 (.validation n))).recorders[1]?
        = some r'' ∧ r''.retained = r'.retained ∧ r''.tally = r'.tally) ∧
    ((afterAll handover).leftBy (.merge 1 0)).recorders[0]?
      = ((afterAll handover).recorders[0]?).map Recorder.consume := by
  obtain ⟨hgrows, hframe⟩ := appendOnly_afterAll handover
  have hearlier : (afterAll handover).recorders[1]?.map
      (fun r => (r.consumed, r.retained.size, r.limits.total)) = some (true, 1, 1) := by
    decide +kernel
  have hlater : (afterAll (handover ++ aftermath)).recorders[1]?.map
      (fun r => (r.retained.size, r.systemErrors.size)) = some (2, 1) := by
    decide +kernel
  obtain ⟨r, hr, hearlier⟩ := Option.map_eq_some_iff.1 hearlier
  simp only [Prod.mk.injEq] at hearlier
  obtain ⟨hconsumed, hsize, htotal⟩ := hearlier
  obtain ⟨r', hr', hgrown, hfull⟩ := hgrows aftermath 1 r hr
  rw [hr', Option.map_some, Option.some.injEq, Prod.mk.injEq] at hlater
  obtain ⟨r'', hr'', hretained, htally, -⟩ :=
    hfull (by rw [htotal, hsize]) (.validation ⟨⟨"seal_missing", by decide⟩, .error, .null⟩)
  refine ⟨⟨r, r', _, r'', hr, hr', hgrown, hconsumed, hsize, hlater.1, hlater.2, hr'', hretained,
    htally⟩, ?_⟩
  have hrefuses : ¬(afterAll handover).Refuses (.merge 1 0) := by
    have hcall : ((afterAll handover).call (.merge 1 0)).isOk = true := by decide +kernel
    rw [refuses_iff]
    rintro ⟨e, he⟩
    rw [he] at hcall
    exact nomatch hcall
  exact (hframe (.merge 1 0) 0 (by decide)).2 hrefuses (by decide)

end Roster

end NoticeLedger

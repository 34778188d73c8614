import Mathlib.Algebra.BigOperators.Group.Multiset.Basic
import Mathlib.Algebra.GroupWithZero.Nat
import Mathlib.Data.Multiset.Count
import NoticeLedger.Proofs.Calls
import NoticeLedger.Proofs.Recording

/-!
# Conservation under merging

What the recorders that are not consumed hold together is what the calls have put in. A quantity
that is nothing for a fresh recorder and adds up when one recorder takes over another is not
changed by merging: the contents of the consumed recorder are found in the other one
(`Roster.total_absorb`). It therefore grows along a run by what the calls themselves add
(`Roster.Measured.total_performAll`). Counts, kept notices and system errors are such quantities.
-/

namespace NoticeLedger.Roster

/-! ### What calls add -/

/-- What a call adds, if a validation notice adds `v` of its recorder and itself, and a system
error adds `e` of itself. -/
def gain {α : Type} (v : Recorder → ValidationNotice → Multiset α) (e : SystemError → Multiset α)
    (s : Roster) : Call → Multiset α
  | .addValidation i (.validation n) => (s.recorders[i]?).elim 0 fun r => v r n
  | .addSystem i (.system x)         => (s.recorders[i]?).elim 0 fun _ => e x
  | _                                => 0

@[simp] theorem gain_merge {α : Type} (v : Recorder → ValidationNotice → Multiset α)
    (e : SystemError → Multiset α) (s : Roster) (i j : Nat) : gain v e s (.merge i j) = 0 := rfl

@[simp] theorem gain_join {α : Type} (v : Recorder → ValidationNotice → Multiset α)
    (e : SystemError → Multiset α) (s : Roster) (c j : Nat) : gain v e s (.join c j) = 0 := rfl

/-- What the calls of a run add one after another. -/
def along {α : Type} (g : Roster → Call → Multiset α) : Roster → List Call → Multiset α
  | _, []      => 0
  | s, c :: cs => g s c + along g (s.perform c) cs

/-- The notice of a call that adds it to a recorder with fewer notices than its limit. -/
def counted : Roster → Call → Multiset ValidationNotice :=
  gain (fun r n => if r.retained.size < r.limits.total then {n} else 0) fun _ => 0

/-- The notice of a call that adds it to a recorder with fewer notices than its limit, of which
fewer than the limit of one key have counted for the key of the notice. -/
def kept : Roster → Call → Multiset ValidationNotice :=
  gain
    (fun r n =>
      if r.retained.size < r.limits.total ∧ r.tally.count n.key < r.limits.perKey then {n} else 0)
    fun _ => 0

/-- The system error of a call that adds it. -/
def reported : Roster → Call → Multiset SystemError :=
  gain (fun _ _ => 0) fun x => {x}

/-! ### Totals -/

/-- The recorders whose contents no other recorder has taken over. -/
def live (s : Roster) : List Recorder :=
  s.recorders.filter (!·.consumed)

section Totals

variable {M : Type} [AddCancelCommMonoid M] (f : Recorder → M) {s s' : Roster}

/-- What the recorders that are not consumed hold together. -/
def total (s : Roster) : M :=
  (s.live.map f).sum

/-- What a recorder counts for in a total. -/
def share (r : Recorder) : M :=
  if r.consumed then 0 else f r

theorem sum_map_filter_consumed (rs : List Recorder) :
    ((rs.filter (!·.consumed)).map f).sum = (rs.map (share f)).sum := by
  induction rs with
  | nil => rfl
  | cons r rs ih =>
    rw [List.map_cons, List.sum_cons, ← ih, share]
    cases h : r.consumed <;> simp [h]

/-- Exchanging an item of a list exchanges its part of the sum. -/
theorem sum_map_set {α : Type} (g : α → M) {xs : List α} {i : Nat} {x : α} (h : xs[i]? = some x)
    (y : α) : ((xs.set i y).map g).sum + g x = (xs.map g).sum + g y := by
  induction xs generalizing i with
  | nil => simp at h
  | cons z zs ih =>
    cases i with
    | zero =>
      obtain rfl : z = x := by simpa using h
      simp [add_comm, add_left_comm]
    | succ i =>
      have hi : zs[i]? = some x := by simpa using h
      rw [List.set_cons_succ, List.map_cons, List.map_cons, List.sum_cons, List.sum_cons,
        add_assoc, add_assoc, ih hi]

/-- What a recorder that is not consumed gains is gained in all. -/
theorem total_set {i : Nat} {r r' : Recorder} {a : M} (hr : s.recorders[i]? = some r)
    (hrecorders : s'.recorders = s.recorders.set i r') (hlive : r.consumed = false)
    (hlive' : r'.consumed = false) (hgain : f r' = f r + a) : total f s' = total f s + a := by
  have hsum := sum_map_set (share f) hr r'
  simp only [share, hlive, hlive', hgain, Bool.false_eq_true, if_false] at hsum
  rw [total, total, live, live, sum_map_filter_consumed, sum_map_filter_consumed, hrecorders]
  refine add_right_cancel (b := f r) (hsum.trans ?_)
  rw [add_assoc, add_comm a]

/-- Taking over moves contents and changes no total. -/
theorem total_absorb (habsorb : ∀ r other, f (r.absorb other) = f r + f other) {i j : Nat}
    {r other : Recorder} (hne : j ≠ i) (hr : s.recorders[i]? = some r)
    (ho : s.recorders[j]? = some other) (hlive : r.consumed = false)
    (holive : other.consumed = false)
    (hrecorders : s'.recorders = (s.recorders.set i (r.absorb other)).set j other.consume) :
    total f s' = total f s := by
  have ho' : (s.recorders.set i (r.absorb other))[j]? = some other := by
    rw [List.getElem?_set_ne hne.symm, ho]
  have htarget := sum_map_set (share f) hr (r.absorb other)
  have hsource := sum_map_set (share f) ho' other.consume
  simp only [share, hlive, holive, Recorder.consumed_absorb, Recorder.consumed_consume, habsorb,
    Bool.false_eq_true, if_false, if_true] at htarget hsource
  rw [total, total, live, live, sum_map_filter_consumed, sum_map_filter_consumed, hrecorders]
  refine add_right_cancel (b := f r + f other) ?_
  rw [← htarget, add_comm (f r), ← add_assoc, hsource, add_zero]

end Totals

/-! ### Runs -/

/-- The number of the recorder to which a call writes unless it is refused. -/
def target? (s : Roster) : Call → Option Nat
  | .addValidation i _ => some i
  | .addSystem i _     => some i
  | .merge i _         => some i
  | .join c _          => (s.coordinators[c]?).map (·.destination)

/-- A call whose target is consumed is refused. -/
def Spares (s : Roster) (c : Call) : Prop :=
  ∀ i ∈ s.target? c, ∀ r ∈ s.recorders[i]?, r.consumed = true → (s.call c).isOk = false

instance (s : Roster) (c : Call) : Decidable (s.Spares c) :=
  inferInstanceAs (Decidable (∀ i ∈ s.target? c, ∀ r ∈ s.recorders[i]?,
    r.consumed = true → (s.call c).isOk = false))

/-- No call of a run writes to a recorder that has been consumed before. -/
def SparesAll : Roster → List Call → Prop
  | _, []      => True
  | s, c :: cs => s.Spares c ∧ SparesAll (s.perform c) cs

instance decidableSparesAll : (s : Roster) → (cs : List Call) → Decidable (s.SparesAll cs)
  | _, []      => isTrue trivial
  | s, c :: cs =>
    have := decidableSparesAll (s.perform c) cs
    inferInstanceAs (Decidable (_ ∧ _))

theorem Spares.consumed_eq_false {s s' : Roster} {c : Call} (h : s.Spares c)
    (hok : s.call c = .ok s') {i : Nat} {r : Recorder} (hi : s.target? c = some i)
    (hr : s.recorders[i]? = some r) : r.consumed = false := by
  apply Bool.eq_false_iff.2
  intro hc
  have herror := h i hi r hr hc
  rw [hok] at herror
  cases herror

theorem SparesAll.of_prefix {s : Roster} {cs ds : List Call} (h : s.SparesAll ds)
    (hp : cs <+: ds) : s.SparesAll cs := by
  induction cs generalizing s ds with
  | nil => trivial
  | cons c cs ih =>
    obtain ⟨rest, rfl⟩ := hp
    exact ⟨h.1, ih h.2 ⟨rest, rfl⟩⟩

/-- A quantity of recorders that is nothing at the start, adds up when contents are taken over,
and grows by `φ` of what is added. -/
structure Measured {M α : Type} [AddCancelCommMonoid M] (f : Recorder → M) (φ : Multiset α →+ M)
    (v : Recorder → ValidationNotice → Multiset α) (e : SystemError → Multiset α) : Prop where
  fresh : ∀ l, f (Recorder.fresh l) = 0
  absorb : ∀ r other, f (r.absorb other) = f r + f other
  addValidation : ∀ r n, f (r.addValidation n) = f r + φ (v r n)
  addSystem : ∀ r x, f (r.addSystem x) = f r + φ (e x)

namespace Measured

variable {M α : Type} [AddCancelCommMonoid M] {f : Recorder → M} {φ : Multiset α →+ M}
  {v : Recorder → ValidationNotice → Multiset α} {e : SystemError → Multiset α} {s : Roster}

/-- What a call that is refused would add is nothing: it names no recorder or has no notice of
the kind it adds. -/
theorem gain_of_error {c : Call} {x : Recorder.Refusal} (h : s.call c = .error x) :
    gain v e s c = 0 := by
  cases c with
  | addValidation i n =>
    cases n with
    | validation n =>
      cases hr : s.recorders[i]? with
      | none => simp [gain, hr]
      | some r => simp [call, modify, hr, Recorder.addAsValidation, Except.map] at h
    | system x => rfl
  | addSystem i n =>
    cases n with
    | validation n => rfl
    | system x =>
      cases hr : s.recorders[i]? with
      | none => simp [gain, hr]
      | some r => simp [call, modify, hr, Recorder.addAsSystem, Except.map] at h
  | merge i j => rfl
  | join c j => rfl

/-- One call. -/
theorem total_perform (hf : Measured f φ v e) {c : Call} (h : s.Spares c) :
    total f (s.perform c) = total f s + φ (gain v e s c) := by
  rcases s.perform_cases c with ⟨x, hx, hsame⟩ | hok
  · rw [hsame, gain_of_error hx, map_zero, add_zero]
  · generalize s.perform c = s' at hok
    have hlive := fun i r => h.consumed_eq_false hok (i := i) (r := r)
    have hrec := recorded_of_call hok
    generalize hrs : s'.recorders = rs at hrec
    cases hrec with
    | validation hr =>
      have hr' := hlive _ _ rfl hr
      refine total_set f hr hrs hr' (by simpa using hr') ?_
      rw [hf.addValidation, gain, hr, Option.elim_some]
    | system hr =>
      have hr' := hlive _ _ rfl hr
      refine total_set f hr hrs hr' (by simpa using hr') ?_
      rw [hf.addSystem, gain, hr, Option.elim_some]
    | merge hne hr ho holive =>
      rw [total_absorb f hf.absorb hne hr ho (hlive _ _ rfl hr) holive hrs, gain_merge, map_zero,
        add_zero]
    | join hc hne hr ho holive =>
      have htarget := hlive _ _ (by rw [target?, hc, Option.map_some]) hr
      rw [total_absorb f hf.absorb hne hr ho htarget holive hrs, gain_join, map_zero, add_zero]

/-- A run of calls. -/
theorem total_performAll (hf : Measured f φ v e) {cs : List Call} (h : s.SparesAll cs) :
    total f (s.performAll cs) = total f s + φ (s.along (gain v e) cs) := by
  induction cs generalizing s with
  | nil => simp [along]
  | cons c cs ih =>
    rw [performAll_cons, ih h.2, hf.total_perform h.1, along, map_add, add_assoc]

theorem total_of_isNew (hf : Measured f φ v e) (hnew : s.IsNew) : total f s = 0 := by
  apply List.sum_eq_zero
  intro x hx
  obtain ⟨r, hr, rfl⟩ := List.mem_map.1 hx
  obtain ⟨l, rfl⟩ := hnew r (List.mem_filter.1 hr).1
  exact hf.fresh l

/-- From fresh recorders on, what the recorders that are not consumed hold together is what the
calls have added. -/
theorem total_eq (hf : Measured f φ v e) (hnew : s.IsNew) {cs : List Call} (h : s.SparesAll cs) :
    total f (s.performAll cs) = φ (s.along (gain v e) cs) := by
  rw [hf.total_performAll h, hf.total_of_isNew hnew, zero_add]

end Measured

/-! ### Counts, notices and system errors -/

section Measures

variable (k : Key)

/-- What one thing adds to a number of things of a kind. -/
theorem countP_singleton {α : Type} (p : α → Prop) [DecidablePred p] (a : α) :
    Multiset.countP p {a} = if p a then 1 else 0 := by
  rw [← Multiset.cons_zero, Multiset.countP_cons, Multiset.countP_zero, Nat.zero_add]

theorem measured_count :
    Measured (fun r => r.tally.count k) (Multiset.countPAddMonoidHom fun n => n.key = k)
      (fun r n => if r.retained.size < r.limits.total then {n} else 0) fun _ => 0 where
  fresh _ := rfl
  absorb r other := r.count_tally_absorb other k
  addSystem r x := rfl
  addValidation r n := by
    rw [Recorder.tally_addValidation, Multiset.coe_countPAddMonoidHom]
    by_cases hroom : r.retained.size < r.limits.total
    · rw [if_pos hroom, if_pos hroom, countP_singleton, Tally.count_add]
      by_cases hk : n.key = k
      · rw [if_pos hk, if_pos hk, hk]
      · rw [if_neg hk, if_neg hk, Nat.add_zero]
    · rw [if_neg hroom, if_neg hroom, Multiset.countP_zero, Nat.add_zero]

theorem coe_append_singleton {α : Type} (xs : List α) (a : α) :
    ((xs ++ [a] : List α) : Multiset α) = xs + {a} := by
  rw [← Multiset.coe_add, Multiset.coe_singleton]

theorem measured_retained :
    Measured (fun r => (r.retained.toList : Multiset ValidationNotice)) (AddMonoidHom.id _)
      (fun r n =>
        if r.retained.size < r.limits.total ∧ r.tally.count n.key < r.limits.perKey then {n}
        else 0)
      fun _ => 0 where
  fresh _ := rfl
  absorb r other := by simp
  addSystem r x := by simp
  addValidation r n := by
    rw [Recorder.toList_retained_addValidation, AddMonoidHom.id_apply]
    split
    · exact coe_append_singleton _ n
    · exact (add_zero _).symm

theorem measured_systemErrors :
    Measured (fun r => (r.systemErrors.toList : Multiset SystemError)) (AddMonoidHom.id _)
      (fun _ _ => 0) fun x => {x} where
  fresh _ := rfl
  absorb r other := by simp
  addSystem r x := by simp [coe_append_singleton]
  addValidation r n := by simp

theorem measured_systemCount :
    Measured (fun r => r.systemTally.count k) (Multiset.countPAddMonoidHom fun x => x.key = k)
      (fun _ _ => 0) fun x => {x} where
  fresh _ := rfl
  absorb r other := r.count_systemTally_absorb other k
  addSystem r x := by
    rw [Recorder.count_systemTally_addSystem, Multiset.coe_countPAddMonoidHom, countP_singleton]
  addValidation r n := by simp

end Measures

/-- Merging loses nothing and duplicates nothing: after every call of a run that spares what has
been consumed, the recorders that are left hold together exactly the counts, the notices and the
system errors that the calls have added. -/
theorem live_conserves {s : Roster} (hnew : s.IsNew) {cs : List Call} (h : s.SparesAll cs)
    {done : List Call} (hdone : done <+: cs) :
    (∀ k, ((s.performAll done).live.map fun r => r.tally.count k).sum
      = (s.along counted done).countP fun n => n.key = k) ∧
    ((s.performAll done).live.map fun r => (r.retained.toList : Multiset ValidationNotice)).sum
      = s.along kept done ∧
    ((s.performAll done).live.map fun r => (r.systemErrors.toList : Multiset SystemError)).sum
      = s.along reported done ∧
    ∀ k, ((s.performAll done).live.map fun r => r.systemTally.count k).sum
      = (s.along reported done).countP fun x => x.key = k := by
  have hdone' := h.of_prefix hdone
  refine ⟨fun k => ?_, ?_, ?_, fun k => ?_⟩
  · exact (measured_count k).total_eq hnew hdone'
  · exact measured_retained.total_eq hnew hdone'
  · exact measured_systemErrors.total_eq hnew hdone'
  · exact (measured_systemCount k).total_eq hnew hdone'

/-- Two recorders that keep one notice of each key and a coordinator. -/
def workshop : Roster :=
  (({ } : Roster).openRecorder ⟨2, 1, 1⟩ |>.openRecorder ⟨2, 1, 1⟩).openCoordinator {}

/-- A run in which a notice is dropped, a recorder is merged twice, which is refused the second
time, and the recorder that took it over goes on and is joined itself. -/
def shift : List Call :=
  let missing := Notice.validation ⟨⟨"missing_title", by decide⟩, .error, .obj []⟩
  let failed := Notice.system ⟨⟨"disk_full", by decide⟩, .obj []⟩
  [.addValidation 0 missing, .addValidation 0 missing, .addSystem 0 failed, .merge 1 0,
    .merge 1 0, .addValidation 1 missing, .addSystem 1 failed, .join 0 1]

theorem live_workshop :
    workshop.IsNew ∧ workshop.SparesAll shift ∧ shift <+: shift ∧
    (∀ k, ((workshop.performAll shift).live.map fun r => r.tally.count k).sum
      = (workshop.along counted shift).countP fun n => n.key = k) ∧
    ((workshop.performAll shift).live.map
      fun r => (r.retained.toList : Multiset ValidationNotice)).sum = workshop.along kept shift ∧
    (workshop.performAll shift).live.length = 1 ∧
    (workshop.along counted shift).card = 3 ∧ (workshop.along kept shift).card = 1 := by
  have hnew : workshop.IsNew := by simp [workshop]
  have hspares : workshop.SparesAll shift := by decide +kernel
  obtain ⟨hcount, hretained, -, -⟩ := live_conserves hnew hspares List.prefix_rfl
  exact ⟨hnew, hspares, List.prefix_rfl, hcount, hretained, by decide +kernel, by decide +kernel,
    by decide +kernel⟩

end NoticeLedger.Roster

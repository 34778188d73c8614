import NoticeLedger.Roster

/-!
# What calls do

A call that is not refused adds a notice to one recorder, or lets one recorder take over the
contents of another one, which is consumed by it (`Roster.Recorded`, `Roster.recorded_of_call`).
What these changes keep, a run of calls keeps (`Recorder.Stable.forall_performAll`), so what holds
of fresh recorders besides holds of every recorder that a run leads to
(`Recorder.Invariant.of_mem_performAll`).
-/

namespace NoticeLedger

/-- The notice that a call hands over. -/
def Call.notice? : Call → Option Notice
  | .addValidation _ n => some n
  | .addSystem _ n     => some n
  | .merge _ _         => none
  | .join _ _          => none

namespace Roster

/-! ### One call -/

/-- The recorders after a call that is not refused. -/
inductive Recorded (s : Roster) : Call → List Recorder → Prop where
  | validation {i : Nat} {n : ValidationNotice} {r : Recorder} (hr : s.recorders[i]? = some r) :
      Recorded s (.addValidation i (.validation n)) (s.recorders.set i (r.addValidation n))
  | system {i : Nat} {e : SystemError} {r : Recorder} (hr : s.recorders[i]? = some r) :
      Recorded s (.addSystem i (.system e)) (s.recorders.set i (r.addSystem e))
  | merge {i j : Nat} {r other : Recorder} (hne : j ≠ i) (hr : s.recorders[i]? = some r)
      (ho : s.recorders[j]? = some other) (hlive : other.consumed = false) :
      Recorded s (.merge i j) ((s.recorders.set i (r.absorb other)).set j other.consume)
  | join {c j : Nat} {coordinator : Coordinator} {r other : Recorder}
      (hc : s.coordinators[c]? = some coordinator) (hne : j ≠ coordinator.destination)
      (hr : s.recorders[coordinator.destination]? = some r)
      (ho : s.recorders[j]? = some other) (hlive : other.consumed = false) :
      Recorded s (.join c j)
        ((s.recorders.set coordinator.destination (r.absorb other)).set j other.consume)

theorem modify_ok {s s' : Roster} {i : Nat} {f : Recorder → Except Recorder.Refusal Recorder}
    (h : s.modify i f = .ok s') :
    ∃ r r', s.recorders[i]? = some r ∧ f r = .ok r' ∧ s' = s.put i r' := by
  rw [modify] at h
  split at h
  · cases h
  · rename_i r hr
    obtain ⟨r', hf, hs⟩ := exists_of_map_ok h
    exact ⟨r, r', hr, hf, hs.symm⟩

theorem merge_ok {s s' : Roster} {i j : Nat} (h : s.merge i j = .ok s') :
    ∃ r other, j ≠ i ∧ s.recorders[i]? = some r ∧ s.recorders[j]? = some other ∧
      other.consumed = false ∧ s' = (s.put i (r.absorb other)).put j other.consume := by
  rw [merge] at h
  split at h
  · cases h
  · rename_i hne
    split at h
    · rename_i r other hr ho
      obtain ⟨r', hmerge, hs⟩ := exists_of_map_ok h
      rw [Recorder.merge] at hmerge
      split at hmerge
      · cases hmerge
      · rename_i hlive
        obtain rfl := Except.ok.inj hmerge
        exact ⟨r, other, hne, hr, ho, Bool.eq_false_iff.2 hlive, hs.symm⟩
    · cases h

theorem join_ok {s s' : Roster} {c j : Nat} (h : s.join c j = .ok s') :
    ∃ coordinator merged, s.coordinators[c]? = some coordinator ∧
      s.merge coordinator.destination j = .ok merged ∧
      s' = { merged with
        coordinators :=
          merged.coordinators.set c { coordinator with joined := coordinator.joined + 1 } } := by
  rw [join] at h
  split at h
  · cases h
  · rename_i coordinator hc
    split at h
    · cases h
    · obtain ⟨merged, hmerge, hs⟩ := exists_of_map_ok h
      exact ⟨coordinator, merged, hc, hmerge, hs.symm⟩

/-- All that a call can do to the recorders if it is not refused. -/
theorem recorded_of_call {s s' : Roster} {c : Call} (h : s.call c = .ok s') :
    Recorded s c s'.recorders := by
  cases c with
  | addValidation i n =>
    obtain ⟨r, r', hr, hadd, rfl⟩ := modify_ok h
    cases n with
    | validation n =>
      obtain rfl := Except.ok.inj hadd
      exact .validation hr
    | system e => cases hadd
  | addSystem i n =>
    obtain ⟨r, r', hr, hadd, rfl⟩ := modify_ok h
    cases n with
    | validation n => cases hadd
    | system e =>
      obtain rfl := Except.ok.inj hadd
      exact .system hr
  | merge i j =>
    obtain ⟨r, other, hne, hr, ho, hlive, rfl⟩ := merge_ok h
    exact .merge hne hr ho hlive
  | join c j =>
    obtain ⟨coordinator, merged, hc, hmerge, rfl⟩ := join_ok h
    obtain ⟨r, other, hne, hr, ho, hlive, rfl⟩ := merge_ok hmerge
    exact .join hc hne hr ho hlive

/-- A call is refused and changes nothing, or it is not refused. -/
theorem perform_cases (s : Roster) (c : Call) :
    (∃ e, s.call c = .error e ∧ s.perform c = s) ∨ s.call c = .ok (s.perform c) := by
  rw [perform]
  cases h : s.call c with
  | error e => exact Or.inl ⟨e, rfl, rfl⟩
  | ok s'   => exact Or.inr rfl

/-! ### Taking over -/

/-- Recorder `i` has taken over recorder `j`, which is consumed by it, and nothing else has
changed. -/
structure TakenOver (s : Roster) (i j : Nat) (r other : Recorder) (rs : List Recorder) : Prop where
  length : rs.length = s.recorders.length
  target : rs[i]? = some (r.absorb other)
  source : rs[j]? = some other.consume
  rest : ∀ k, k ≠ i → k ≠ j → rs[k]? = s.recorders[k]?

theorem takenOver_set {s : Roster} {i j : Nat} {r other : Recorder} (hne : j ≠ i)
    (hr : s.recorders[i]? = some r) (ho : s.recorders[j]? = some other) :
    s.TakenOver i j r other ((s.recorders.set i (r.absorb other)).set j other.consume) where
  length := by simp
  target := by simp [List.getElem?_set_ne hne, List.getElem?_set_self', hr]
  source := by simp [List.getElem?_set_self', List.getElem?_set_ne hne.symm, ho]
  rest k hi hj := by rw [List.getElem?_set_ne hj.symm, List.getElem?_set_ne hi.symm]

/-- A recorder that is not consumed can be taken over by any other one. -/
theorem exists_merge {s : Roster} {i j : Nat} {r other : Recorder} (hne : j ≠ i)
    (hr : s.recorders[i]? = some r) (ho : s.recorders[j]? = some other)
    (hlive : other.consumed = false) :
    ∃ s', s.merge i j = .ok s' ∧ s'.coordinators = s.coordinators ∧
      s.TakenOver i j r other s'.recorders := by
  refine ⟨(s.put i (r.absorb other)).put j other.consume, ?_, rfl, takenOver_set hne hr ho⟩
  simp only [merge, if_neg hne, hr, ho, Recorder.merge, hlive]
  rfl

/-- So it can be joined by a coordinator whose destination is another one. -/
theorem exists_join {s : Roster} {c j : Nat} {coordinator : Coordinator} {r other : Recorder}
    (hc : s.coordinators[c]? = some coordinator) (hne : j ≠ coordinator.destination)
    (hr : s.recorders[coordinator.destination]? = some r) (ho : s.recorders[j]? = some other)
    (hlive : other.consumed = false) :
    ∃ s', s.join c j = .ok s' ∧
      s'.coordinators[c]? = some { coordinator with joined := coordinator.joined + 1 } ∧
      s.TakenOver coordinator.destination j r other s'.recorders := by
  obtain ⟨merged, hmerge, hcoordinators, htaken⟩ := exists_merge hne hr ho hlive
  let joined : Coordinator := { coordinator with joined := coordinator.joined + 1 }
  refine ⟨{ merged with coordinators := merged.coordinators.set c joined }, ?_, ?_, htaken⟩
  · simp only [join, hc, if_neg hne, hmerge]
    rfl
  · simp [joined, hcoordinators, List.getElem?_set_self', hc]

/-! ### Runs of calls -/

/-- Nothing has been collected yet. -/
def IsNew (s : Roster) : Prop :=
  ∀ r ∈ s.recorders, ∃ l, r = Recorder.fresh l

@[simp] theorem isNew_empty : ({ } : Roster).IsNew := nofun

@[simp] theorem isNew_openRecorder {s : Roster} {l : Limits} :
    (s.openRecorder l).IsNew ↔ s.IsNew := by
  have hfresh : ∃ l', Recorder.fresh l = Recorder.fresh l' := ⟨l, rfl⟩
  simp [IsNew, openRecorder, or_imp, forall_and, hfresh]

@[simp] theorem isNew_openCoordinator {s : Roster} {l : Limits} :
    (s.openCoordinator l).IsNew ↔ s.IsNew :=
  isNew_openRecorder

@[simp] theorem performAll_nil (s : Roster) : s.performAll [] = s := rfl

@[simp] theorem performAll_cons (s : Roster) (c : Call) (cs : List Call) :
    s.performAll (c :: cs) = (s.perform c).performAll cs := rfl

end Roster

/-! ### Invariants of recorders -/

namespace Recorder

/-- A property of recorders that every change by a notice with `Q` keeps. -/
structure Stable (Q : Notice → Prop) (P : Recorder → Prop) : Prop where
  addValidation : ∀ {r n}, Q (.validation n) → P r → P (r.addValidation n)
  addSystem : ∀ {r e}, Q (.system e) → P r → P (r.addSystem e)
  absorb : ∀ {r other}, P r → P other → P (r.absorb other)
  consume : ∀ {r}, P r → P r.consume

/-- A property that holds of every fresh recorder and that every change by a notice with `Q`
keeps. -/
structure Invariant (Q : Notice → Prop) (P : Recorder → Prop) : Prop extends Stable Q P where
  fresh : ∀ l, P (fresh l)

variable {Q : Notice → Prop} {P : Recorder → Prop} {s : Roster}

namespace Stable

theorem of_mem_set {rs : List Recorder} {i : Nat} {r : Recorder} (h : ∀ x ∈ rs, P x) (hr : P r) :
    ∀ x ∈ rs.set i r, P x := by
  intro x hx
  rcases List.mem_or_eq_of_mem_set hx with hx | rfl
  · exact h x hx
  · exact hr

theorem of_recorded (hP : Stable Q P) (h : ∀ r ∈ s.recorders, P r) {c : Call}
    (hQ : ∀ n, c.notice? = some n → Q n) {rs : List Recorder} (hrec : s.Recorded c rs) :
    ∀ r ∈ rs, P r := by
  cases hrec with
  | validation hr =>
    exact of_mem_set h (hP.addValidation (hQ _ rfl) (h _ (List.mem_of_getElem? hr)))
  | system hr =>
    exact of_mem_set h (hP.addSystem (hQ _ rfl) (h _ (List.mem_of_getElem? hr)))
  | merge _ hr ho _ | join _ _ hr ho _ =>
    have hother := h _ (List.mem_of_getElem? ho)
    exact of_mem_set (of_mem_set h (hP.absorb (h _ (List.mem_of_getElem? hr)) hother))
      (hP.consume hother)

/-- One call keeps a stable property. -/
theorem of_mem_perform (hP : Stable Q P) (h : ∀ r ∈ s.recorders, P r) {c : Call}
    (hQ : ∀ n, c.notice? = some n → Q n) : ∀ r ∈ (s.perform c).recorders, P r := by
  rcases s.perform_cases c with ⟨_, _, hsame⟩ | hok
  · rw [hsame]
    exact h
  · exact hP.of_recorded h hQ (Roster.recorded_of_call hok)

/-- A run of calls keeps a stable property. -/
theorem forall_performAll (hP : Stable Q P) (h : ∀ r ∈ s.recorders, P r) {cs : List Call}
    (hQ : ∀ c ∈ cs, ∀ n, c.notice? = some n → Q n) :
    ∀ r ∈ (s.performAll cs).recorders, P r := by
  induction cs generalizing s with
  | nil => exact h
  | cons c cs ih =>
    rw [Roster.performAll_cons]
    refine ih ?_ fun d hd => hQ d (List.mem_cons_of_mem c hd)
    exact hP.of_mem_perform h (hQ c (List.mem_cons_self ..))

end Stable

namespace Invariant

theorem of_isNew (hP : Invariant Q P) (hnew : s.IsNew) : ∀ r ∈ s.recorders, P r := by
  intro r hr
  obtain ⟨l, rfl⟩ := hnew r hr
  exact hP.fresh l

/-- What holds of fresh recorders and is kept by every change holds behind a run of calls. -/
theorem of_mem_performAll (hP : Invariant Q P) (hnew : s.IsNew) {cs : List Call}
    (hQ : ∀ c ∈ cs, ∀ n, c.notice? = some n → Q n) :
    ∀ r ∈ (s.performAll cs).recorders, P r :=
  hP.forall_performAll (hP.of_isNew hnew) hQ

end Invariant

end Recorder

end NoticeLedger

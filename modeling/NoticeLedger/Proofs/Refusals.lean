import NoticeLedger.Proofs.InPlace
import NoticeLedger.Proofs.Recording

/-!
# Refused calls

A roster starts empty, gets recorders and coordinators, and calls are made on it in any order
(`Event`, `Roster.afterAll`). Which calls are refused is told by the roster alone: a merge or a
join if the source is the destination or is consumed, an addition if the notice is of the other
kind. A refused call leaves the roster as it is. What has been accepted can be read off the roster
at any time (`Roster.Accounts`): a recorder is consumed by the one merge or join that took it, and a
coordinator counts its joins.
-/

namespace NoticeLedger

/-- What can happen to a roster. -/
inductive Event where
  | openRecorder (limits : Limits)
  | openCoordinator (limits : Limits)
  | call (c : Call)

namespace Call

/-- The call has a recorder as its source. -/
def takes (j : Nat) : Call → Bool
  | .addValidation _ _ => false
  | .addSystem _ _     => false
  | .merge _ j'        => j' = j
  | .join _ j'         => j' = j

/-- The call is a join of a coordinator. -/
def joinsBy (c : Nat) : Call → Bool
  | .addValidation _ _ => false
  | .addSystem _ _     => false
  | .merge _ _         => false
  | .join c' _         => c' = c

end Call

namespace Roster

/-- The steps of a call come to a refusal. -/
def Refuses (s : Roster) (c : Call) : Prop :=
  ∃ e s', (Routine.execute c).run s = .error e s'

/-- The roster that the steps of a call leave behind, whether they are refused or not. -/
def leftBy (s : Roster) (c : Call) : Roster :=
  match (Routine.execute c).run s with
  | .ok _ s'    => s'
  | .error _ s' => s'

/-- The roster after an event. -/
def happen (s : Roster) : Event → Roster
  | .openRecorder l    => s.openRecorder l
  | .openCoordinator l => s.openCoordinator l
  | .call c            => s.leftBy c

/-- The roster after events that start with nothing. -/
def afterAll (es : List Event) : Roster :=
  es.foldl happen {}

/-- The call of an event, if it is one and is not refused. -/
def accepted? (s : Roster) : Event → Option Call
  | .openRecorder _    => none
  | .openCoordinator _ => none
  | .call c            =>
    match (Routine.execute c).run s with
    | .ok _ _    => some c
    | .error _ _ => none

/-- The calls of a run that are not refused. -/
def accepted (s : Roster) : List Event → List Call
  | []      => []
  | e :: es => (s.accepted? e).toList ++ accepted (s.happen e) es

variable {s s' : Roster} {c : Call} {i j n : Nat} {r other : Recorder} {k : Coordinator}

/-! ### One call -/

theorem refuses_iff : s.Refuses c ↔ ∃ e, s.call c = .error e := by
  unfold Refuses
  rw [Routine.run_execute]
  cases s.call c with
  | error e => exact ⟨fun _ => ⟨e, rfl⟩, fun _ => ⟨e, s, rfl⟩⟩
  | ok s'   => exact ⟨nofun, nofun⟩

theorem leftBy_eq (s : Roster) (c : Call) : s.leftBy c = s.perform c := by
  unfold leftBy perform
  rw [Routine.run_execute]
  cases s.call c <;> rfl

theorem accepted?_of_ok (h : s.call c = .ok s') : s.accepted? (.call c) = some c := by
  simp only [accepted?, Routine.run_execute, h]
  rfl

theorem accepted?_of_error {e : Recorder.Refusal} (h : s.call c = .error e) :
    s.accepted? (.call c) = none := by
  simp only [accepted?, Routine.run_execute, h]
  rfl

/-- A refused call leaves the roster as it is. -/
theorem leftBy_of_refuses (h : s.Refuses c) : s.leftBy c = s := by
  obtain ⟨e, he⟩ := refuses_iff.1 h
  rw [leftBy_eq, perform, he]

theorem refuses_merge_iff (hr : s.recorders[i]? = some r) (ho : s.recorders[j]? = some other) :
    s.Refuses (.merge i j) ↔ j = i ∨ other.consumed = true := by
  rw [refuses_iff]
  constructor
  · rintro ⟨e, he⟩
    refine Classical.byContradiction fun hneither => ?_
    obtain ⟨hne, hlive⟩ := not_or.1 hneither
    obtain ⟨s', hs', -⟩ := exists_merge hne hr ho (Bool.eq_false_iff.2 hlive)
    exact nomatch he.symm.trans hs'
  · rintro (rfl | hconsumed)
    · exact ⟨.mergeIntoItself, if_pos rfl⟩
    · cases hmerge : s.call (.merge i j) with
      | error e => exact ⟨e, rfl⟩
      | ok s' =>
        obtain ⟨_, _, -, -, ho', hlive, -⟩ := merge_ok hmerge
        cases ho.symm.trans ho'
        exact nomatch hconsumed.symm.trans hlive

theorem refuses_join_iff (hk : s.coordinators[n]? = some k)
    (hr : s.recorders[k.destination]? = some r) (ho : s.recorders[j]? = some other) :
    s.Refuses (.join n j) ↔ j = k.destination ∨ other.consumed = true := by
  rw [refuses_iff]
  constructor
  · rintro ⟨e, he⟩
    refine Classical.byContradiction fun hneither => ?_
    obtain ⟨hne, hlive⟩ := not_or.1 hneither
    obtain ⟨s', hs', -⟩ := exists_join hk hne hr ho (Bool.eq_false_iff.2 hlive)
    exact nomatch he.symm.trans hs'
  · intro heither
    cases hjoin : s.call (.join n j) with
    | error e => exact ⟨e, rfl⟩
    | ok s' =>
      obtain ⟨k', _, hk', hmerge, -⟩ := join_ok hjoin
      obtain ⟨_, _, hne, -, ho', hlive, -⟩ := merge_ok hmerge
      cases hk.symm.trans hk'
      cases ho.symm.trans ho'
      rcases heither with rfl | hconsumed
      · exact absurd rfl hne
      · exact nomatch hconsumed.symm.trans hlive

theorem refuses_addValidation_iff (hr : s.recorders[i]? = some r) (notice : Notice) :
    s.Refuses (.addValidation i notice) ↔ ∃ e, notice = .system e := by
  simp only [refuses_iff, call, modify, hr]
  cases notice with
  | validation v => simp [Recorder.addAsValidation, Except.map]
  | system e     => exact ⟨fun _ => ⟨e, rfl⟩, fun _ => ⟨.notValidation, rfl⟩⟩

theorem refuses_addSystem_iff (hr : s.recorders[i]? = some r) (notice : Notice) :
    s.Refuses (.addSystem i notice) ↔ ∃ v, notice = .validation v := by
  simp only [refuses_iff, call, modify, hr]
  cases notice with
  | validation v => exact ⟨fun _ => ⟨v, rfl⟩, fun _ => ⟨.notSystem, rfl⟩⟩
  | system e     => simp [Recorder.addAsSystem, Except.map]

/-- A join that is not refused is counted, and its source is consumed. -/
theorem join_of_not_refuses (hk : s.coordinators[n]? = some k)
    (hr : s.recorders[k.destination]? = some r) (ho : s.recorders[j]? = some other)
    (h : ¬s.Refuses (.join n j)) :
    (s.leftBy (.join n j)).coordinators[n]? = some { k with joined := k.joined + 1 } ∧
      (s.leftBy (.join n j)).recorders[j]? = some other.consume := by
  rw [refuses_join_iff hk hr ho, not_or] at h
  obtain ⟨s', hs', hjoined, htaken⟩ := exists_join hk h.1 hr ho (Bool.eq_false_iff.2 h.2)
  have hperform : s.perform (.join n j) = s' := by
    rw [perform, call, hs']
  rw [leftBy_eq, hperform]
  exact ⟨hjoined, htaken.source⟩

/-! ### What a roster tells about the calls behind it -/

/-- The recorder of a number is there and consumed. -/
def isTaken (s : Roster) (j : Nat) : Bool :=
  s.recorders[j]?.any (·.consumed)

/-- How many recorders the coordinator of a number has joined. -/
def joinedBy (s : Roster) (n : Nat) : Nat :=
  (s.coordinators[n]?.map (·.joined)).getD 0

theorem isTaken_eq (h : s.recorders[j]? = some r) : s.isTaken j = r.consumed := by
  rw [isTaken, h]
  rfl

theorem joinedBy_eq (h : s.coordinators[n]? = some k) : s.joinedBy n = k.joined := by
  rw [joinedBy, h]
  rfl

@[simp] theorem isTaken_openRecorder (s : Roster) (l : Limits) (j : Nat) :
    (s.openRecorder l).isTaken j = s.isTaken j := by
  unfold isTaken openRecorder
  rw [List.getElem?_append]
  split
  · rfl
  · rename_i hj
    rw [List.getElem?_eq_none (Nat.not_lt.1 hj)]
    cases j - s.recorders.length <;> rfl

@[simp] theorem isTaken_openCoordinator (s : Roster) (l : Limits) (j : Nat) :
    (s.openCoordinator l).isTaken j = s.isTaken j :=
  isTaken_openRecorder s l j

@[simp] theorem joinedBy_openCoordinator (s : Roster) (l : Limits) (n : Nat) :
    (s.openCoordinator l).joinedBy n = s.joinedBy n := by
  unfold joinedBy openCoordinator
  rw [List.getElem?_append]
  split
  · rfl
  · rename_i hn
    rw [List.getElem?_eq_none (Nat.not_lt.1 hn)]
    cases n - s.coordinators.length <;> rfl

theorem isTaken_set (hr : s.recorders[i]? = some r) {r' : Recorder}
    (h : r'.consumed = r.consumed) (j : Nat) :
    (s.recorders.set i r')[j]?.any (·.consumed) = s.isTaken j := by
  unfold isTaken
  rw [List.getElem?_set]
  split
  · rename_i hij
    subst hij
    rw [hr, if_pos (List.getElem?_eq_some_iff.1 hr).1]
    exact h
  · rfl

/-- Of two different recorders, the source of a merge is taken by it and was not before. -/
theorem TakenOver.isTaken_eq {rs : List Recorder} (h : s.TakenOver i j r other rs)
    (hr : s.recorders[i]? = some r) (m : Nat) :
    rs[m]?.any (·.consumed) = (s.isTaken m || decide (j = m)) := by
  by_cases hj : j = m
  · subst hj
    rw [h.source]
    exact (Bool.or_eq_true_iff.2 (.inr (decide_eq_true rfl))).symm
  · rw [decide_eq_false hj, Bool.or_false]
    by_cases hi : i = m
    · subst hi
      rw [h.target, Roster.isTaken_eq hr]
      rfl
    · rw [h.rest m (Ne.symm hi) (Ne.symm hj)]
      rfl

/-- A call that is not refused takes its source, which was not taken before, and nothing else. -/
theorem isTaken_of_ok (h : s.call c = .ok s') (m : Nat) :
    s'.isTaken m = (s.isTaken m || c.takes m) := by
  have hrec := recorded_of_call h
  unfold isTaken
  generalize s'.recorders = rs at hrec
  cases hrec with
  | validation hr =>
    rw [isTaken_set hr (Recorder.consumed_addValidation ..), Call.takes, Bool.or_false, isTaken]
  | system hr =>
    have hsame : ∀ r e, (Recorder.addSystem r e).consumed = r.consumed := fun _ _ => rfl
    rw [isTaken_set hr (hsame ..), Call.takes, Bool.or_false, isTaken]
  | merge hne hr ho _ => exact (takenOver_set hne hr ho).isTaken_eq hr m
  | join _ hne hr ho _ => exact (takenOver_set hne hr ho).isTaken_eq hr m

theorem isTaken_of_takes (h : s.call c = .ok s') {m : Nat} (hm : c.takes m = true) :
    s.isTaken m = false := by
  have hrec := recorded_of_call h
  generalize s'.recorders = rs at hrec
  cases hrec with
  | validation _ => exact nomatch hm
  | system _ => exact nomatch hm
  | merge _ _ ho hlive | join _ _ _ ho hlive =>
    obtain rfl := of_decide_eq_true hm
    rw [isTaken_eq ho, hlive]

/-- Only a join changes what a coordinator has counted. -/
theorem joinedBy_of_ok (h : s.call c = .ok s') (m : Nat) :
    s'.joinedBy m = s.joinedBy m + (c.joinsBy m).toNat := by
  cases c with
  | addValidation i n | addSystem i n =>
    obtain ⟨_, _, -, -, rfl⟩ := modify_ok h
    rfl
  | merge i j =>
    obtain ⟨_, _, -, -, -, -, rfl⟩ := merge_ok h
    rfl
  | join n j =>
    obtain ⟨k, _, hk, hmerge, rfl⟩ := join_ok h
    obtain ⟨_, _, -, -, -, -, rfl⟩ := merge_ok hmerge
    by_cases hm : n = m
    · subst hm
      simp [joinedBy, Call.joinsBy, put, List.getElem?_set_self', hk]
    · simp [joinedBy, Call.joinsBy, put, hm]

/-- No call changes which recorders and coordinators there are. -/
theorem destinations_of_ok (h : s.call c = .ok s') :
    s'.recorders.length = s.recorders.length ∧
      s'.coordinators.map (·.destination) = s.coordinators.map (·.destination) := by
  cases c with
  | addValidation i n | addSystem i n =>
    obtain ⟨_, _, -, -, rfl⟩ := modify_ok h
    exact ⟨by simp [put], rfl⟩
  | merge i j =>
    obtain ⟨_, _, -, -, -, -, rfl⟩ := merge_ok h
    exact ⟨by simp [put], rfl⟩
  | join n j =>
    obtain ⟨k, _, hk, hmerge, rfl⟩ := join_ok h
    obtain ⟨_, _, -, -, -, -, rfl⟩ := merge_ok hmerge
    refine ⟨by simp [put], ?_⟩
    obtain ⟨hn, rfl⟩ := List.getElem?_eq_some_iff.1 hk
    -- the coordinator is exchanged for one with the same destination
    have hsame : (s.coordinators.set n s.coordinators[n]).map (·.destination) =
        s.coordinators.map (·.destination) := by
      rw [List.set_getElem_self]
    rw [List.map_set] at hsame ⊢
    exact hsame

/-- The calls that have been accepted, as they can be read off a roster. -/
structure Accounts (s : Roster) (cs : List Call) : Prop where
  taken : ∀ j, cs.countP (·.takes j) = (s.isTaken j).toNat
  joined : ∀ n, cs.countP (·.joinsBy n) = s.joinedBy n
  /-- The destinations of the coordinators are recorders of the roster. -/
  destination : ∀ d ∈ s.coordinators.map (·.destination), d < s.recorders.length

namespace Accounts

variable {cs : List Call}

theorem empty : Accounts {} [] where
  taken _ := rfl
  joined _ := rfl
  destination := nofun

theorem openRecorder (h : s.Accounts cs) (l : Limits) : (s.openRecorder l).Accounts cs where
  taken j := by rw [isTaken_openRecorder, h.taken]
  joined := h.joined
  destination d hd := by
    rw [Roster.openRecorder, List.length_append]
    exact Nat.lt_add_right _ (h.destination d hd)

theorem openCoordinator (h : s.Accounts cs) (l : Limits) :
    (s.openCoordinator l).Accounts cs where
  taken j := by rw [isTaken_openCoordinator, h.taken]
  joined n := by rw [joinedBy_openCoordinator, h.joined]
  destination d hd := by
    simp only [Roster.openCoordinator, Roster.openRecorder, List.map_append, List.mem_append,
      List.map_singleton, List.mem_singleton, List.length_append, List.length_singleton] at hd ⊢
    rcases hd with hd | rfl
    · exact Nat.lt_add_right _ (h.destination d hd)
    · exact Nat.lt_add_one _

/-- An accepted call is accounted for in the roster that it leads to. -/
theorem call (h : s.Accounts cs) (hcall : s.call c = .ok s') : s'.Accounts (cs ++ [c]) where
  taken j := by
    rw [List.countP_append, List.countP_singleton, h.taken, isTaken_of_ok hcall]
    cases hj : c.takes j with
    | false => simp
    | true => simp [isTaken_of_takes hcall hj]
  joined n := by
    rw [List.countP_append, List.countP_singleton, h.joined, joinedBy_of_ok hcall]
    cases c.joinsBy n <;> rfl
  destination := by
    obtain ⟨hlength, hdestinations⟩ := destinations_of_ok hcall
    rw [hlength, hdestinations]
    exact h.destination

/-- An event is accounted for: what it changes has been accepted. -/
theorem happen (h : s.Accounts cs) (e : Event) :
    (s.happen e).Accounts (cs ++ (s.accepted? e).toList) := by
  cases e with
  | openRecorder l =>
    rw [accepted?, Option.toList_none, List.append_nil]
    exact h.openRecorder l
  | openCoordinator l =>
    rw [accepted?, Option.toList_none, List.append_nil]
    exact h.openCoordinator l
  | call c =>
    rw [Roster.happen, leftBy_eq]
    rcases s.perform_cases c with ⟨e, hrefused, hsame⟩ | hok
    · rw [accepted?_of_error hrefused, hsame, Option.toList_none, List.append_nil]
      exact h
    · rw [accepted?_of_ok hok]
      exact h.call hok

/-- A run is accounted for behind what has been accounted for before it. -/
theorem foldl_happen (h : s.Accounts cs) (es : List Event) :
    (es.foldl Roster.happen s).Accounts (cs ++ s.accepted es) := by
  induction es generalizing s cs with
  | nil => simpa only [accepted, List.append_nil, List.foldl_nil] using h
  | cons e es ih =>
    rw [accepted, ← List.append_assoc]
    exact ih (h.happen e)

end Accounts

/-- Every run from nothing on is accounted for. -/
theorem accounts_afterAll (es : List Event) :
    (afterAll es).Accounts (accepted {} es) :=
  Accounts.empty.foldl_happen es

/-! ### Every roster that a run leads to -/

/-- In every roster that events lead to, a call is refused exactly if its source is its destination
or is consumed, or its notice is of the other kind. A refused call leaves everything as it is. A
join that is not refused is counted and consumes its source, so that over the whole run no recorder
is the source of two calls that are not refused, the consumed recorders are those that are the
source of one, and every coordinator has counted exactly its joins. -/
theorem refusals_of_afterAll (es : List Event) :
    (∀ i j r other, (afterAll es).recorders[i]? = some r →
        (afterAll es).recorders[j]? = some other →
        ((afterAll es).Refuses (.merge i j) ↔ j = i ∨ other.consumed = true)) ∧
      (∀ n j k other, (afterAll es).coordinators[n]? = some k →
        (afterAll es).recorders[j]? = some other →
        ((afterAll es).Refuses (.join n j) ↔ j = k.destination ∨ other.consumed = true)) ∧
      (∀ i r notice, (afterAll es).recorders[i]? = some r →
        ((afterAll es).Refuses (.addValidation i notice) ↔ ∃ e, notice = .system e) ∧
        ((afterAll es).Refuses (.addSystem i notice) ↔ ∃ v, notice = .validation v)) ∧
      (∀ c, (afterAll es).Refuses c → (afterAll es).leftBy c = afterAll es) ∧
      (∀ n j k other, (afterAll es).coordinators[n]? = some k →
        (afterAll es).recorders[j]? = some other → ¬(afterAll es).Refuses (.join n j) →
        ((afterAll es).leftBy (.join n j)).coordinators[n]? =
            some { k with joined := k.joined + 1 } ∧
          ((afterAll es).leftBy (.join n j)).recorders[j]? = some other.consume) ∧
      (∀ j, (accepted {} es).countP (·.takes j) ≤ 1) ∧
      (∀ j r, (afterAll es).recorders[j]? = some r →
        (r.consumed = true ↔ (accepted {} es).countP (·.takes j) = 1)) ∧
      ∀ n k, (afterAll es).coordinators[n]? = some k →
        k.joined = (accepted {} es).countP (·.joinsBy n) := by
  have haccounts := accounts_afterAll es
  generalize afterAll es = s at *
  have hdestination {n : Nat} {k : Coordinator} (hk : s.coordinators[n]? = some k) :
      ∃ r, s.recorders[k.destination]? = some r :=
    ⟨_, List.getElem?_eq_getElem (haccounts.destination _
      (List.mem_map_of_mem (List.mem_of_getElem? hk)))⟩
  refine ⟨fun i j r other hr ho => refuses_merge_iff hr ho, fun n j k other hk ho => ?_,
    fun i r notice hr => ⟨refuses_addValidation_iff hr notice, refuses_addSystem_iff hr notice⟩,
    fun c => leftBy_of_refuses, fun n j k other hk ho hjoin => ?_, fun j => ?_,
    fun j r hr => ?_, fun n k hk => ?_⟩
  · obtain ⟨r, hr⟩ := hdestination hk
    exact refuses_join_iff hk hr ho
  · obtain ⟨r, hr⟩ := hdestination hk
    exact join_of_not_refuses hk hr ho hjoin
  · rw [haccounts.taken]
    exact Bool.toNat_le _
  · rw [haccounts.taken, isTaken_eq hr, Bool.toNat_eq_one]
  · rw [haccounts.joined, joinedBy_eq hk]

/-- The second join of a recorder and the join of the destination into itself are refused. -/
example :
    (accepted {} [.openRecorder {}, .openCoordinator {}, .call (.join 0 0), .call (.join 0 0),
      .call (.join 0 1)]).length = 1 ∧
      (afterAll [.openRecorder {}, .openCoordinator {}, .call (.join 0 0), .call (.join 0 0),
        .call (.join 0 1)]).joinedBy 0 = 1 := by
  decide

end Roster

end NoticeLedger

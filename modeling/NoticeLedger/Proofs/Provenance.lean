import NoticeLedger.Proofs.Calls
import NoticeLedger.Proofs.Recording

/-!
# Where a remembered error comes from

Contents go from one recorder to another when a call lets the second take over the first
(`Roster.Moves`). In a run they reach a recorder along takeovers of which each is later than the one
before (`Roster.Flows`): what a recorder is handed after it has been taken over stays where it is.

A recorder remembers an error exactly if one has been handed to it or to a recorder whose contents
have reached it since, whether the notice was kept or not (`Roster.sawError_iff_exists_reports`).
One call is told by `Roster.remembers_perform`, and a run by following it from its first call on.
-/

namespace NoticeLedger.Roster

/-- The call lets recorder `j` take over recorder `i` and is not refused. -/
inductive Moves (s : Roster) : Call → Nat → Nat → Prop where
  | merge {i j : Nat} {s' : Roster} (h : s.call (.merge j i) = .ok s') : Moves s (.merge j i) i j
  | join {c i : Nat} {coordinator : Coordinator} {s' : Roster}
      (hc : s.coordinators[c]? = some coordinator) (h : s.call (.join c i) = .ok s') :
      Moves s (.join c i) i coordinator.destination

/-- What recorder `i` holds at the start of a run has reached recorder `j` at its end. -/
inductive Flows : Roster → List Call → Nat → Nat → Prop where
  | stay {s : Roster} {i : Nat} : Flows s [] i i
  | pass {s : Roster} {c : Call} {cs : List Call} {i j : Nat}
      (h : Flows (s.perform c) cs i j) : Flows s (c :: cs) i j
  | move {s : Roster} {c : Call} {cs : List Call} {i j k : Nat} (hmove : s.Moves c i k)
      (h : Flows (s.perform c) cs k j) : Flows s (c :: cs) i j

/-- The call hands an error to recorder `i`. -/
inductive Reports (s : Roster) : Call → Nat → Prop where
  | intro {i : Nat} {n : ValidationNotice} {r : Recorder} (hr : s.recorders[i]? = some r)
      (hn : n.severity = .error) : Reports s (.addValidation i (.validation n)) i

/-- Recorder `i` remembers an error. -/
def Remembers (s : Roster) (i : Nat) : Prop :=
  ∃ r, s.recorders[i]? = some r ∧ r.sawError = true

variable {s s' : Roster} {c : Call} {cs : List Call} {i j k : Nat} {r other : Recorder}

/-! ### One call -/

theorem remembers_iff (hr : s.recorders[i]? = some r) :
    s.Remembers i ↔ r.sawError = true := by
  simp [Remembers, hr]

theorem remembers_congr (h : s'.recorders[i]? = s.recorders[i]?) :
    s'.Remembers i ↔ s.Remembers i := by
  rw [Remembers, Remembers, h]

theorem remembers_set {r' : Recorder} {b : Bool} (hr : s.recorders[i]? = some r)
    (hrs : s'.recorders = s.recorders.set i r') (hb : r'.sawError = (r.sawError || b)) :
    s'.Remembers k ↔ s.Remembers k ∨ k = i ∧ b = true := by
  by_cases hk : k = i
  · subst hk
    have hr' : s'.recorders[k]? = some r' := by simp [hrs, List.getElem?_set_self', hr]
    rw [remembers_iff hr, remembers_iff hr', hb]
    simp
  · have hsame : s'.recorders[k]? = s.recorders[k]? := by
      rw [hrs, List.getElem?_set_ne (Ne.symm hk)]
    rw [remembers_congr hsame]
    simp [hk]

theorem TakenOver.remembers_iff (h : s.TakenOver i j r other s'.recorders)
    (hr : s.recorders[i]? = some r) (ho : s.recorders[j]? = some other) :
    s'.Remembers k ↔ s.Remembers k ∨ k = i ∧ s.Remembers j := by
  rw [Roster.remembers_iff ho]
  by_cases hi : k = i
  · subst hi
    rw [Roster.remembers_iff h.target, Roster.remembers_iff hr]
    simp
  · by_cases hj : k = j
    · subst hj
      rw [Roster.remembers_iff h.source, Roster.remembers_iff ho]
      simp [hi, Recorder.consume]
    · rw [remembers_congr (h.rest k hi hj)]
      simp [hi]

@[simp] theorem not_moves_addValidation {n : Notice} : ¬s.Moves (.addValidation i n) j k := nofun

@[simp] theorem not_moves_addSystem {n : Notice} : ¬s.Moves (.addSystem i n) j k := nofun

@[simp] theorem not_reports_addSystem {n : Notice} : ¬s.Reports (.addSystem i n) k := nofun

@[simp] theorem not_reports_merge : ¬s.Reports (.merge i j) k := nofun

@[simp] theorem not_reports_join : ¬s.Reports (.join i j) k := nofun

theorem reports_addValidation_iff {n : ValidationNotice} (hr : s.recorders[i]? = some r) :
    s.Reports (.addValidation i (.validation n)) k ↔ k = i ∧ n.isError = true := by
  constructor
  · rintro ⟨_, hn⟩
    exact ⟨rfl, beq_iff_eq.2 hn⟩
  · rintro ⟨rfl, hn⟩
    exact .intro hr (beq_iff_eq.1 hn)

theorem moves_merge_iff (h : s.call (.merge i j) = .ok s') {a b : Nat} :
    s.Moves (.merge i j) a b ↔ a = j ∧ b = i := by
  constructor
  · rintro ⟨_⟩
    exact ⟨rfl, rfl⟩
  · rintro ⟨rfl, rfl⟩
    exact .merge h

theorem moves_join_iff {d : Nat} {coordinator : Coordinator}
    (hd : s.coordinators[d]? = some coordinator) (h : s.call (.join d j) = .ok s') {a b : Nat} :
    s.Moves (.join d j) a b ↔ a = j ∧ b = coordinator.destination := by
  constructor
  · rintro (_ | ⟨hd', _⟩)
    rw [Option.some.inj (hd.symm.trans hd')]
    exact ⟨rfl, rfl⟩
  · rintro ⟨rfl, rfl⟩
    exact .join hd h

theorem Reports.isOk (h : s.Reports c i) : ∃ s', s.call c = .ok s' := by
  cases h with
  | @intro i n r hr _ =>
    refine ⟨s.put i (r.addValidation n), ?_⟩
    rw [call, modify, hr]
    rfl

theorem Moves.isOk (h : s.Moves c i j) : ∃ s', s.call c = .ok s' := by
  cases h with
  | merge h => exact ⟨_, h⟩
  | join _ h => exact ⟨_, h⟩

/-- A recorder remembers an error after a call if it did so before, is handed one, or takes over a
recorder that remembers one. -/
theorem remembers_perform :
    (s.perform c).Remembers k
      ↔ s.Remembers k ∨ s.Reports c k ∨ ∃ i, s.Moves c i k ∧ s.Remembers i := by
  rcases s.perform_cases c with ⟨x, hx, hsame⟩ | hok
  · -- A call that is refused hands over nothing.
    have hreports : ¬s.Reports c k := fun h => by
      obtain ⟨s', hs'⟩ := h.isOk
      simp [hx] at hs'
    have hmoves : ∀ i, ¬s.Moves c i k := fun i h => by
      obtain ⟨s', hs'⟩ := h.isOk
      simp [hx] at hs'
    simp [hsame, hreports, hmoves]
  · have hrec := recorded_of_call hok
    generalize s.perform c = s' at hok hrec ⊢
    generalize hrs : s'.recorders = rs at hrec
    cases hrec with
    | validation hr =>
      rw [remembers_set hr hrs (Recorder.sawError_addValidation ..), reports_addValidation_iff hr]
      simp
    | system hr =>
      rw [remembers_set hr hrs (Bool.or_false _).symm]
      simp
    | merge hne hr ho _ =>
      have htaken := hrs ▸ takenOver_set hne hr ho
      rw [htaken.remembers_iff hr ho]
      simp [moves_merge_iff hok, and_assoc]
    | join hc hne hr ho _ =>
      have htaken := hrs ▸ takenOver_set hne hr ho
      rw [htaken.remembers_iff hr ho]
      simp [moves_join_iff hc hok, and_assoc]

/-! ### Runs -/

@[simp] theorem flows_nil : s.Flows [] i j ↔ i = j := by
  constructor
  · rintro ⟨⟩
    rfl
  · rintro rfl
    exact .stay

theorem flows_cons :
    s.Flows (c :: cs) i j
      ↔ (s.perform c).Flows cs i j ∨ ∃ k, s.Moves c i k ∧ (s.perform c).Flows cs k j := by
  constructor
  · rintro (_ | h | ⟨hmove, h⟩)
    · exact .inl h
    · exact .inr ⟨_, hmove, h⟩
  · rintro (h | ⟨k, hmove, h⟩)
    · exact .pass h
    · exact .move hmove h

/-- In the run an error is handed to a recorder from which it reaches recorder `k`. -/
def Receives (s : Roster) (cs : List Call) (k : Nat) : Prop :=
  ∃ before c after i, cs = before ++ c :: after ∧ (s.performAll before).Reports c i ∧
    ((s.performAll before).perform c).Flows after i k

@[simp] theorem not_receives_nil : ¬s.Receives [] k := by
  simp [Receives]

theorem receives_cons :
    s.Receives (c :: cs) k
      ↔ (∃ i, s.Reports c i ∧ (s.perform c).Flows cs i k) ∨ (s.perform c).Receives cs k := by
  constructor
  · rintro ⟨before, d, after, i, hcs, hreports, hflows⟩
    rcases List.cons_eq_append_iff.1 hcs with ⟨rfl, hd⟩ | ⟨before', rfl, rfl⟩
    · obtain ⟨rfl, rfl⟩ := List.cons.inj hd
      exact .inl ⟨i, hreports, hflows⟩
    · exact .inr ⟨before', d, after, i, rfl, hreports, hflows⟩
  · rintro (⟨i, hreports, hflows⟩ | ⟨before, d, after, i, rfl, hreports, hflows⟩)
    · exact ⟨[], c, cs, i, rfl, hreports, hflows⟩
    · exact ⟨c :: before, d, after, i, rfl, hreports, hflows⟩

/-- A recorder remembers an error after a run if its contents come from a recorder that remembered
one before, or if the run has handed one over to where they come from. -/
theorem remembers_performAll :
    (s.performAll cs).Remembers k
      ↔ (∃ i, s.Remembers i ∧ s.Flows cs i k) ∨ s.Receives cs k := by
  -- The induction goes on behind the first call, which `remembers_perform` tells.
  induction cs generalizing s with
  | nil => simp
  | cons c cs ih =>
    rw [performAll_cons, ih, receives_cons]
    simp only [remembers_perform, flows_cons]
    -- What is left of both sides is the same but for the order of what exists and of what holds.
    grind

theorem not_remembers_of_isNew (hnew : s.IsNew) : ¬s.Remembers i := by
  rintro ⟨r, hr, hsaw⟩
  obtain ⟨l, rfl⟩ := hnew r (List.mem_of_getElem? hr)
  cases hsaw

/-- A recorder remembers an error exactly if a call has handed one to it, or to a recorder from
which it has come by takeovers one after another. No system error changes what it remembers. -/
theorem sawError_iff_exists_reports (hnew : s.IsNew)
    (hr : (s.performAll cs).recorders[k]? = some r) :
    (r.sawError = true ↔
      ∃ before c after i, cs = before ++ c :: after ∧ (s.performAll before).Reports c i ∧
        ((s.performAll before).perform c).Flows after i k) ∧
    ∀ i n, ((s.performAll cs).perform (.addSystem i n)).Remembers k ↔ r.sawError = true := by
  rw [← remembers_iff hr]
  constructor
  · simp only [remembers_performAll, not_remembers_of_isNew hnew, false_and, exists_false,
      false_or, Receives]
  · intro i n
    simp [remembers_perform]

/-- The destination of a coordinator and four more recorders, of which the second one keeps no
notice. -/
def relayPosts : Roster :=
  (((({ } : Roster).openCoordinator ⟨9, 9, 9⟩).openRecorder ⟨9, 9, 9⟩).openRecorder
    ⟨0, 9, 9⟩).openRecorder ⟨9, 9, 9⟩ |>.openRecorder ⟨9, 9, 9⟩

/-- A run in which recorder 0 gets an error that recorder 2 has dropped, by way of recorder 1, and
recorder 4 is handed an error after recorder 3 has taken it over. -/
def relay : List Call :=
  let broken := Notice.validation ⟨⟨"link_broken", by decide⟩, .error, .null⟩
  [.addValidation 2 broken, .merge 1 2, .join 0 1, .merge 3 4, .addValidation 4 broken]

theorem sawError_relay :
    relayPosts.IsNew ∧
    (∃ r, (relayPosts.performAll relay).recorders[0]? = some r ∧ r.retained.size = 0 ∧
      ∃ before c after i, relay = before ++ c :: after ∧
        (relayPosts.performAll before).Reports c i ∧
        ((relayPosts.performAll before).perform c).Flows after i 0) ∧
    ∃ r, (relayPosts.performAll relay).recorders[3]? = some r ∧
      ¬∃ before c after i, relay = before ++ c :: after ∧
        (relayPosts.performAll before).Reports c i ∧
        ((relayPosts.performAll before).perform c).Flows after i 3 := by
  have hnew : relayPosts.IsNew := by simp [relayPosts]
  have hfirst : (relayPosts.performAll relay).recorders[0]?
      = some (relayPosts.performAll relay).recorders[0] := rfl
  have hfourth : (relayPosts.performAll relay).recorders[3]?
      = some (relayPosts.performAll relay).recorders[3] := rfl
  have hsaw : (relayPosts.performAll relay).recorders[0].sawError = true := by decide +kernel
  have hnot : ¬(relayPosts.performAll relay).recorders[3].sawError = true := by decide +kernel
  refine ⟨hnew, ⟨_, hfirst, by decide +kernel, ?_⟩, _, hfourth, ?_⟩
  · exact (sawError_iff_exists_reports hnew hfirst).1.1 hsaw
  · rwa [← (sawError_iff_exists_reports hnew hfourth).1]

end NoticeLedger.Roster

import Mathlib.Data.List.Nodup
import NoticeLedger.Proofs.Calls
import NoticeLedger.Proofs.Recording

/-!
# Merging in several steps

Recorders can be merged all at once, or some of them first and the result with others, in any
nesting (`Plan`). Each step has a coordinator and limits of its own, which merging does not look at.
The recorder in the end unites those that the plan names (`Recorder.Unites`): it has their notices
in the order of the plan, and the sums of their numbers. So plans that name the recorders in the
same order come to the same, and plans that name them in another order differ by nothing but the
order of the notices (`Roster.carryOut_of_perm`).

That a plan is carried out at all is shown along with what it leads to, by induction over the plan
(`Roster.exists_carryOut`): the recorders that its further parts name are not touched by the parts
in front of them (`Roster.Keeps`).
-/

namespace NoticeLedger

/-- A way to merge recorders: a recorder is taken as it is, or what the parts lead to is merged into
a fresh recorder. -/
inductive Plan where
  | recorder (i : Nat)
  | gather (limits : Limits) (parts : List Plan)

mutual

/-- The recorders that a plan names, from left to right. -/
def Plan.leaves : Plan → List Nat
  | .recorder i     => [i]
  | .gather _ parts => Plan.leavesAll parts

/-- The recorders that plans name. -/
def Plan.leavesAll : List Plan → List Nat
  | []      => []
  | p :: ps => p.leaves ++ Plan.leavesAll ps

end

namespace Roster

open Recorder (Refusal)

mutual

/-- Carry out a plan: first its parts, from left to right, and then the step that merges them. The
number is that of the recorder that the plan leads to. -/
def carryOut (s : Roster) : Plan → Roster × Except Refusal Nat
  | .recorder i          => (s, .ok i)
  | .gather limits parts =>
    match s.carryOutAll parts with
    | (s', .ok js)   => s'.gather limits js
    | (s', .error e) => (s', .error e)

/-- Carry out plans one after another. -/
def carryOutAll (s : Roster) : List Plan → Roster × Except Refusal (List Nat)
  | []      => (s, .ok [])
  | p :: ps =>
    match s.carryOut p with
    | (s', .error e) => (s', .error e)
    | (s', .ok j)    =>
      match s'.carryOutAll ps with
      | (s'', .error e) => (s'', .error e)
      | (s'', .ok js)   => (s'', .ok (j :: js))

end

end Roster

/-! ### What is united -/

namespace Recorder

/-- The recorder has what the recorders of a list have, their notices in the order of the list. -/
structure Unites (r : Recorder) (rs : List Recorder) : Prop where
  retained : r.retained.toList = rs.flatMap (·.retained.toList)
  systemErrors : r.systemErrors.toList = rs.flatMap (·.systemErrors.toList)
  tally : r.tally.Sums (rs.map (·.tally))
  systemTally : r.systemTally.Sums (rs.map (·.systemTally))
  sawError : r.sawError = rs.any (·.sawError)

/-- Recorders that unite those of a list, each of them a stretch of the list. -/
inductive UniteEach : List Recorder → List Recorder → Prop where
  | nil : UniteEach [] []
  | cons {r : Recorder} {rs xs ys : List Recorder} (h : r.Unites xs) (hs : UniteEach rs ys) :
      UniteEach (r :: rs) (xs ++ ys)

variable {r other : Recorder} {rs xs ys : List Recorder}

namespace Unites

theorem fresh (l : Limits) : (fresh l).Unites [] :=
  ⟨rfl, rfl, .empty, .empty, rfl⟩

theorem singleton (r : Recorder) : r.Unites [r] :=
  ⟨by simp, by simp, .singleton _, .singleton _, by simp⟩

theorem absorb (h : r.Unites xs) (h' : other.Unites ys) : (r.absorb other).Unites (xs ++ ys) where
  retained := by simp [h.retained, h'.retained]
  systemErrors := by simp [h.systemErrors, h'.systemErrors]
  tally := by
    rw [List.map_append]
    exact h.tally.merge h'.tally
  systemTally := by
    rw [List.map_append]
    exact h.systemTally.merge h'.systemTally
  sawError := by simp [h.sawError, h'.sawError]

/-- Recorders taken over one after another bring what they have united. -/
theorem foldl_absorb (h : r.Unites xs) (hs : UniteEach rs ys) :
    (rs.foldl Recorder.absorb r).Unites (xs ++ ys) := by
  induction hs generalizing r xs with
  | nil => simpa using h
  | cons h' _ ih =>
    rw [List.foldl_cons, ← List.append_assoc]
    exact ih (h.absorb h')

/-! In which order recorders are united shows in the order of the notices and nowhere else. -/

section Perm

variable (h : r.Unites xs) (h' : other.Unites ys) (hperm : ys.Perm xs)

include h h' hperm

theorem retained_perm : other.retained.toList.Perm r.retained.toList := by
  rw [h.retained, h'.retained]
  exact hperm.flatMap_right _

theorem systemErrors_perm : other.systemErrors.toList.Perm r.systemErrors.toList := by
  rw [h.systemErrors, h'.systemErrors]
  exact hperm.flatMap_right _

theorem get?_tally_eq (k : Key) : other.tally.get? k = r.tally.get? k :=
  h.tally.get?_eq_of_perm h'.tally (hperm.map _) k

theorem get?_systemTally_eq (k : Key) : other.systemTally.get? k = r.systemTally.get? k :=
  h.systemTally.get?_eq_of_perm h'.systemTally (hperm.map _) k

theorem sawError_eq : other.sawError = r.sawError := by
  rw [h.sawError, h'.sawError]
  exact hperm.any_eq

end Perm

end Unites

end Recorder

namespace Roster

variable {s s' s'' : Roster} {i j : Nat} {is js : List Nat} {r : Recorder}

/-! ### Recorders at numbers -/

/-- The recorders with the given numbers. -/
def recordersAt (s : Roster) (is : List Nat) : List Recorder :=
  is.filterMap (s.recorders[·]?)

/-- Different recorders that are not consumed. -/
structure Mergeable (s : Roster) (is : List Nat) : Prop where
  nodup : is.Nodup
  live : ∀ i ∈ is, ∃ r, s.recorders[i]? = some r ∧ r.consumed = false

/-- The recorders of the first roster have not changed in the second one, apart from those with the
given numbers. -/
structure Keeps (s s' : Roster) (is : List Nat) : Prop where
  length_le : s.recorders.length ≤ s'.recorders.length
  same : ∀ i < s.recorders.length, i ∉ is → s'.recorders[i]? = s.recorders[i]?

theorem recordersAt_append :
    s.recordersAt (is ++ js) = s.recordersAt is ++ s.recordersAt js :=
  List.filterMap_append

theorem recordersAt_cons (hr : s.recorders[i]? = some r) :
    s.recordersAt (i :: is) = r :: s.recordersAt is :=
  List.filterMap_cons_some hr

theorem recordersAt_congr (h : ∀ i ∈ is, s'.recorders[i]? = s.recorders[i]?) :
    s'.recordersAt is = s.recordersAt is :=
  List.filterMap_congr h

namespace Mergeable

theorem lt_length (h : s.Mergeable is) (hi : i ∈ is) : i < s.recorders.length := by
  obtain ⟨r, hr, _⟩ := h.live i hi
  exact (List.getElem?_eq_some_iff.1 hr).1

theorem congr (h : s.Mergeable is) (hsame : ∀ i ∈ is, s'.recorders[i]? = s.recorders[i]?) :
    s'.Mergeable is :=
  ⟨h.nodup, fun i hi => hsame i hi ▸ h.live i hi⟩

theorem of_cons (h : s.Mergeable (i :: is)) : s.Mergeable is :=
  ⟨h.nodup.of_cons, fun i hi => h.live i (List.mem_cons_of_mem _ hi)⟩

theorem left (h : s.Mergeable (is ++ js)) : s.Mergeable is :=
  ⟨h.nodup.of_append_left, fun i hi => h.live i (List.mem_append_left _ hi)⟩

theorem right (h : s.Mergeable (is ++ js)) : s.Mergeable js :=
  ⟨h.nodup.of_append_right, fun i hi => h.live i (List.mem_append_right _ hi)⟩

theorem notMem_right (h : s.Mergeable (is ++ js)) (hi : i ∈ is) : i ∉ js :=
  List.disjoint_of_nodup_append h.nodup hi

theorem cons (h : s.Mergeable is) (hi : i ∉ is) (hr : s.recorders[i]? = some r)
    (hlive : r.consumed = false) : s.Mergeable (i :: is) :=
  ⟨List.nodup_cons.2 ⟨hi, h.nodup⟩, List.forall_mem_cons.2 ⟨⟨r, hr, hlive⟩, h.live⟩⟩

theorem of_perm (h : s.Mergeable is) (hperm : js.Perm is) : s.Mergeable js :=
  ⟨hperm.nodup_iff.2 h.nodup, fun i hi => h.live i (hperm.mem_iff.1 hi)⟩

end Mergeable

namespace Keeps

theorem refl (s : Roster) (is : List Nat) : s.Keeps s is :=
  ⟨Nat.le_refl _, fun _ _ _ => rfl⟩

theorem mono (h : s.Keeps s' is) (hsub : is ⊆ js) : s.Keeps s' js :=
  ⟨h.length_le, fun i hi hnotMem => h.same i hi fun hmem => hnotMem (hsub hmem)⟩

/-- Of the recorders that the second step changes, only those matter that were there before the
first one. -/
theorem trans (h : s.Keeps s' is) (h' : s'.Keeps s'' js)
    (hjs : ∀ j ∈ js, j ∈ is ∨ s.recorders.length ≤ j) : s.Keeps s'' is where
  length_le := Nat.le_trans h.length_le h'.length_le
  same i hi hnotMem := by
    have hnotMem' : i ∉ js := fun hmem =>
      (hjs i hmem).elim hnotMem (Nat.not_le.2 hi)
    rw [h'.same i (Nat.lt_of_lt_of_le hi h.length_le) hnotMem', h.same i hi hnotMem]

end Keeps

theorem TakenOver.keeps {other : Recorder} (h : s.TakenOver i j r other s'.recorders) :
    s.Keeps s' [i, j] where
  length_le := Nat.le_of_eq h.length.symm
  same k _ hk := by
    obtain ⟨hi, hj⟩ := not_or.1 (List.mem_cons.not.1 hk)
    exact h.rest k hi (hj <| List.mem_singleton.2 ·)

theorem keeps_openCoordinator (l : Limits) : s.Keeps (s.openCoordinator l) [] where
  length_le := by simp [openCoordinator, openRecorder]
  same i hi _ := List.getElem?_append_left hi

/-! ### One step -/

/-- A coordinator can join recorders one after another. -/
theorem exists_joinEach {c : Nat} {coordinator : Coordinator} (hjs : s.Mergeable js)
    (hc : s.coordinators[c]? = some coordinator) (hd : coordinator.destination ∉ js)
    (hr : s.recorders[coordinator.destination]? = some r) :
    ∃ s', s.joinEach c js = (s', .ok ()) ∧
      s'.recorders[coordinator.destination]?
        = some ((s.recordersAt js).foldl Recorder.absorb r) ∧
      s.Keeps s' (coordinator.destination :: js) := by
  induction js generalizing s r coordinator with
  | nil => exact ⟨s, rfl, hr, .refl s _⟩
  | cons j js ih =>
    obtain ⟨other, ho, hlive⟩ := hjs.live j (List.mem_cons_self ..)
    obtain ⟨hnotMem, -⟩ := List.nodup_cons.1 hjs.nodup
    obtain ⟨hne, hd'⟩ := not_or.1 (List.mem_cons.not.1 hd)
    obtain ⟨s₁, hjoin, hc₁, htaken⟩ := exists_join hc (Ne.symm hne) hr ho hlive
    -- The recorders that are still to be joined are none of the two that the call changes.
    have hsame : ∀ k ∈ js, s₁.recorders[k]? = s.recorders[k]? := fun k hk =>
      htaken.rest k (fun h => hd' (h ▸ hk)) fun h => hnotMem (h ▸ hk)
    obtain ⟨s', hjoins, hr', hkeeps⟩ :=
      ih (hjs.of_cons.congr hsame) hc₁ hd' htaken.target
    refine ⟨s', ?_, ?_, ?_⟩
    · rw [joinEach, hjoin]
      exact hjoins
    · rw [hr', recordersAt_congr hsame, recordersAt_cons ho]
      rfl
    · refine (htaken.keeps.mono ?_).trans (hkeeps.mono ?_) fun k hk => .inl hk
      · simp
      · simp

theorem exists_gather (limits : Limits) (hjs : s.Mergeable js) :
    ∃ s', s.gather limits js = (s', .ok s.recorders.length) ∧
      s'.recorders[s.recorders.length]?
        = some ((s.recordersAt js).foldl Recorder.absorb (.fresh limits)) ∧
      s.Keeps s' js := by
  have hopen := s.keeps_openCoordinator limits
  have hsame : ∀ j ∈ js, (s.openCoordinator limits).recorders[j]? = s.recorders[j]? :=
    fun j hj => hopen.same j (hjs.lt_length hj) List.not_mem_nil
  have hd : s.recorders.length ∉ js := fun hmem => Nat.lt_irrefl _ (hjs.lt_length hmem)
  have hcoordinator : (s.openCoordinator limits).coordinators[s.coordinators.length]?
      = some ⟨s.recorders.length, 0⟩ := by simp [openCoordinator]
  have hfresh : (s.openCoordinator limits).recorders[s.recorders.length]?
      = some (.fresh limits) := by simp [openCoordinator, openRecorder]
  obtain ⟨s', hjoins, hr, hkeeps⟩ :=
    exists_joinEach (hjs.congr hsame) hcoordinator hd hfresh
  refine ⟨s', ?_, ?_, ?_⟩
  · rw [gather, hjoins]
    rfl
  · rw [hr, recordersAt_congr hsame]
  · refine (hopen.mono (List.nil_subset js)).trans hkeeps fun k hk => ?_
    rcases List.mem_cons.1 hk with rfl | hk
    · exact .inr (Nat.le_refl _)
    · exact .inl hk

/-! ### Plans -/

mutual

/-- A plan leads to a recorder that unites those that it names, if these can be merged. -/
theorem exists_carryOut (p : Plan) {s : Roster} (h : s.Mergeable p.leaves) :
    ∃ s' j r, s.carryOut p = (s', .ok j) ∧ s.Keeps s' p.leaves ∧
      (j ∈ p.leaves ∨ s.recorders.length ≤ j) ∧ s'.recorders[j]? = some r ∧
      r.consumed = false ∧ r.Unites (s.recordersAt p.leaves) := by
  match p with
  | .recorder i =>
    have hi : i ∈ (Plan.recorder i).leaves := List.mem_singleton_self i
    obtain ⟨r, hr, hlive⟩ := h.live i hi
    refine ⟨s, i, r, rfl, .refl s _, .inl hi, hr, hlive, ?_⟩
    rw [Plan.leaves, recordersAt_cons hr]
    exact .singleton r
  | .gather limits parts =>
    obtain ⟨s₁, js, hparts, hkeeps, hjs, hmergeable, heach⟩ := exists_carryOutAll parts h
    obtain ⟨s', hgather, hr, hkeeps'⟩ := exists_gather limits hmergeable
    refine ⟨s', s₁.recorders.length, _, ?_, hkeeps.trans hkeeps' hjs, .inr hkeeps.length_le, hr,
      ?_, (Recorder.Unites.fresh limits).foldl_absorb heach⟩
    · rw [carryOut, hparts]
      exact hgather
    · rw [Recorder.consumed_foldl_absorb]
      rfl

/-- Plans lead to recorders that unite, one behind the other, those that the plans name. -/
theorem exists_carryOutAll (ps : List Plan) {s : Roster} (h : s.Mergeable (Plan.leavesAll ps)) :
    ∃ s' js, s.carryOutAll ps = (s', .ok js) ∧ s.Keeps s' (Plan.leavesAll ps) ∧
      (∀ j ∈ js, j ∈ Plan.leavesAll ps ∨ s.recorders.length ≤ j) ∧ s'.Mergeable js ∧
      Recorder.UniteEach (s'.recordersAt js) (s.recordersAt (Plan.leavesAll ps)) := by
  match ps with
  | [] => exact ⟨s, [], rfl, .refl s _, nofun, ⟨.nil, nofun⟩, .nil⟩
  | p :: ps =>
    obtain ⟨s₁, j, r, hp, hkeeps, hj, hr, hlive, hunites⟩ := exists_carryOut p h.left
    -- Carrying out the first plan leaves alone what the other plans name.
    have hsame : ∀ i ∈ Plan.leavesAll ps, s₁.recorders[i]? = s.recorders[i]? := fun i hi =>
      hkeeps.same i (h.right.lt_length hi) fun hmem => h.notMem_right hmem hi
    obtain ⟨s₂, js, hps, hkeeps', hjs, hmergeable, heach⟩ :=
      exists_carryOutAll ps (h.right.congr hsame)
    rw [recordersAt_congr hsame] at heach
    have hlt : j < s₁.recorders.length := (List.getElem?_eq_some_iff.1 hr).1
    have hnotMem : j ∉ Plan.leavesAll ps := fun hmem =>
      hj.elim (h.notMem_right · hmem) (Nat.not_le.2 (h.right.lt_length hmem))
    have hj' : j ∉ js := fun hmem => (hjs j hmem).elim hnotMem (Nat.not_le.2 hlt)
    have hr' := (hkeeps'.same j hlt hnotMem).trans hr
    refine ⟨s₂, j :: js, ?_, ?_, ?_, hmergeable.cons hj' hr' hlive, ?_⟩
    · rw [carryOutAll, hp]
      simp only [hps]
    · exact (hkeeps.mono (List.subset_append_left ..)).trans
        (hkeeps'.mono (List.subset_append_right ..)) fun k hk => .inl hk
    · refine List.forall_mem_cons.2 ⟨hj.imp_left (List.mem_append_left _), fun k hk => ?_⟩
      exact (hjs k hk).imp (List.mem_append_right _) (Nat.le_trans hkeeps.length_le)
    · rw [recordersAt_cons hr', Plan.leavesAll, recordersAt_append]
      exact .cons hunites heach

end

/-- Plans that name the same recorders lead to recorders that unite these, whatever the nesting and
the limits of the steps. Tallies and the remembered error are the same, and so are the notices but
for their order, which is that in which a plan names the recorders. -/
theorem carryOut_of_perm {p q : Plan} (hp : s.Mergeable p.leaves)
    (hperm : q.leaves.Perm p.leaves) :
    ∃ s₁ i r s₂ j r',
      s.carryOut p = (s₁, .ok i) ∧ s₁.recorders[i]? = some r ∧
      s.carryOut q = (s₂, .ok j) ∧ s₂.recorders[j]? = some r' ∧
      r.Unites (s.recordersAt p.leaves) ∧ r'.Unites (s.recordersAt q.leaves) ∧
      (∀ k, r'.tally.get? k = r.tally.get? k) ∧
      (∀ k, r'.systemTally.get? k = r.systemTally.get? k) ∧ r'.sawError = r.sawError ∧
      r'.retained.toList.Perm r.retained.toList ∧
      r'.systemErrors.toList.Perm r.systemErrors.toList ∧
      (q.leaves = p.leaves →
        r'.retained.toList = r.retained.toList ∧
        r'.systemErrors.toList = r.systemErrors.toList) := by
  obtain ⟨s₁, i, r, hcarry, -, -, hr, -, h⟩ := exists_carryOut p hp
  obtain ⟨s₂, j, r', hcarry', -, -, hr', -, h'⟩ := exists_carryOut q (hp.of_perm hperm)
  have hrecorders : (s.recordersAt q.leaves).Perm (s.recordersAt p.leaves) := hperm.filterMap _
  refine ⟨s₁, i, r, s₂, j, r', hcarry, hr, hcarry', hr', h, h', h.get?_tally_eq h' hrecorders,
    h.get?_systemTally_eq h' hrecorders, h.sawError_eq h' hrecorders,
    h.retained_perm h' hrecorders, h.systemErrors_perm h' hrecorders, fun heq => ?_⟩
  rw [h.retained, h'.retained, h.systemErrors, h'.systemErrors, heq]
  exact ⟨rfl, rfl⟩

/-- Three recorders that keep one notice of each key. -/
def baskets : Roster :=
  ((({ } : Roster).openRecorder ⟨9, 1, 9⟩).openRecorder ⟨9, 1, 9⟩).openRecorder ⟨9, 1, 9⟩

/-- A run in which the first recorder drops a notice and the last one gets errors. -/
def picking : List Call :=
  let bruised (row : Int) := Notice.validation ⟨⟨"apple_bruised", by decide⟩, .warning, .int row⟩
  [.addValidation 0 (bruised 1), .addValidation 0 (bruised 2), .addValidation 1 (bruised 3),
    .addValidation 2 (.validation ⟨⟨"apple_rotten", by decide⟩, .error, .null⟩),
    .addSystem 2 (.system ⟨⟨"basket_lost", by decide⟩, .null⟩)]

/-- The first two recorders first. -/
def pairFirst : Plan :=
  .gather ⟨1, 1, 1⟩ [.gather ⟨0, 0, 0⟩ [.recorder 0, .recorder 1], .recorder 2]

/-- All recorders at once, the last one in front. -/
def lastFirst : Plan :=
  .gather { } [.recorder 2, .recorder 0, .recorder 1]

theorem carryOut_picking :
    (baskets.performAll picking).Mergeable pairFirst.leaves ∧
    lastFirst.leaves.Perm pairFirst.leaves ∧
    ∃ s₁ i r s₂ j r',
      (baskets.performAll picking).carryOut pairFirst = (s₁, .ok i) ∧
      s₁.recorders[i]? = some r ∧
      (baskets.performAll picking).carryOut lastFirst = (s₂, .ok j) ∧
      s₂.recorders[j]? = some r' ∧ (∀ k, r'.tally.get? k = r.tally.get? k) ∧
      r.tally.count ⟨⟨"apple_bruised", by decide⟩, .warning⟩ = 3 ∧
      r.retained.size = 3 ∧ r'.retained.size = 3 := by
  have hlive : ∀ i ∈ pairFirst.leaves,
      ((baskets.performAll picking).recorders[i]?).map (·.consumed) = some false := by
    decide +kernel
  have hp : (baskets.performAll picking).Mergeable pairFirst.leaves :=
    ⟨by decide, fun i hi => Option.map_eq_some_iff.1 (hlive i hi)⟩
  have hperm : lastFirst.leaves.Perm pairFirst.leaves := by decide
  obtain ⟨s₁, i, r, s₂, j, r', hcarry, hr, hcarry', hr', h, h', htally, -⟩ :=
    carryOut_of_perm hp hperm
  refine ⟨hp, hperm, s₁, i, r, s₂, j, r', hcarry, hr, hcarry', hr', htally, ?_, ?_, ?_⟩
  · rw [h.tally.count]
    decide +kernel
  · rw [← Journal.length_toList, h.retained]
    decide +kernel
  · rw [← Journal.length_toList, h'.retained]
    decide +kernel

end Roster

end NoticeLedger

import NoticeLedger.Proofs.Pool
import NoticeLedger.Proofs.Recording

/-!
# Errands

An errand is a task that hands notices to its recorder and then ends, with a failure or without
one. Taken up one after another, each on a recorder of its own and every failure recorded behind
the notices of its errand, errands lead to one recorder (`Errand.collectInTurn`). Workers that run
them in a pool lead to the same one, unless there is a failure whose text cannot be made: what is
raised instead of the first such text is all that they lead to (`Errand.runTasks_map_toTask`).
-/

namespace NoticeLedger

/-- What a task does to hand a notice to its recorder. -/
def Action.ofNotice : Notice → Action
  | .validation n => .addValidation (.validation n)
  | .system e     => .addSystem (.system e)

theorem Recorder.act_ofNotice (r : Recorder) (n : Notice) :
    r.act (.ofNotice n) = .ok (r.add n) := by
  cases n with
  | validation n => rfl
  | system e     => rfl

/-- A task that hands over notices and ends with a failure or without one. -/
structure Errand where
  name : TaskName
  notices : List Notice
  failure? : Option Failure

namespace Errand

/-- The actions of an errand. -/
def toTask (e : Errand) : Task where
  name := e.name
  actions := e.notices.map .ofNotice ++ (e.failure?.map fun f => .raise (.failure f)).toList

/-- What an errand at a position collects when it has a fresh recorder to itself: its notices and
then its failure. -/
def collected (limits : Limits) (index : Nat) (e : Errand) : Recorder :=
  let r := e.notices.foldl Recorder.add (Recorder.fresh limits)
  match e.failure? with
  | none   => r
  | some f => r.addFailure f e.name.label index

/-- What is raised instead of the text of the failure, if there is a failure that has none. -/
def untold? (e : Errand) : Option Text :=
  match e.failure? with
  | some ⟨_, .error name⟩ => some name
  | _                     => none

/-- What errands collect that are run one after another, in the order of the errands. -/
def collectInTurn (limits : Limits) (es : List Errand) : Recorder :=
  (es.zipIdx.map fun e => e.1.collected limits e.2).foldl Recorder.absorb (Recorder.fresh limits)

/-! ### One errand -/

theorem run_notices (r : Recorder) (ns : List Notice) (as : List Action) :
    Worker.run ns.length ⟨r, ns.map .ofNotice ++ as, none⟩
      = ⟨ns.foldl Recorder.add r, as, none⟩ := by
  induction ns generalizing r with
  | nil => rfl
  | cons n ns ih =>
    have hstep : Worker.step ⟨r, (n :: ns).map .ofNotice ++ as, none⟩
        = ⟨r.add n, ns.map .ofNotice ++ as, none⟩ := by
      rw [Worker.step, List.map_cons, List.cons_append]
      simp only [Recorder.act_ofNotice]
    rw [List.length_cons, Worker.run, hstep, ih, List.foldl_cons]

theorem finish_start (limits : Limits) (e : Errand) :
    (Worker.start limits e.toTask).finish
      = ⟨e.notices.foldl Recorder.add (Recorder.fresh limits), [], e.failure?.map .failure⟩ := by
  obtain ⟨name, ns, failure?⟩ := e
  have hrun := run_notices (Recorder.fresh limits) ns
  rw [Worker.finish]
  cases failure? with
  | none =>
    have h := hrun []
    rw [List.append_nil] at h
    simp only [Worker.start, toTask, Option.map_none, Option.toList_none, List.append_nil,
      List.length_map]
    exact h
  | some f =>
    have h := hrun [.raise (.failure f)]
    simp only [Worker.start, toTask, Option.map_some, Option.toList_some, List.length_append,
      List.length_map, List.length_singleton]
    rw [Worker.run_add, h]
    rfl

theorem result_finish_start (limits : Limits) (index : Nat) (e : Errand) :
    (Worker.start limits e.toTask).finish.result e.name.label index = e.collected limits index := by
  rw [finish_start, Worker.result, collected]
  cases e.failure? with
  | none   => rfl
  | some f => rfl

theorem escape?_finish_start (limits : Limits) (e : Errand) :
    (Worker.start limits e.toTask).finish.escape? = e.untold?.map .untold := by
  rw [finish_start, Worker.escape?, untold?]
  match e.failure? with
  | none                  => rfl
  | some ⟨_, .ok _⟩       => rfl
  | some ⟨_, .error name⟩ => rfl

end Errand

/-! ### Recorders that nothing has consumed -/

namespace Recorder

theorem consumed_add (r : Recorder) (n : Notice) : (r.add n).consumed = r.consumed := by
  cases n with
  | validation n => exact consumed_addValidation r n
  | system e     => rfl

theorem consumed_foldl_add (ns : List Notice) (r : Recorder) :
    (ns.foldl add r).consumed = r.consumed := by
  induction ns generalizing r with
  | nil => rfl
  | cons n ns ih => rw [List.foldl_cons, ih, consumed_add]

theorem consumed_addFailure (r : Recorder) (f : Failure) (label : Text) (index : Nat) :
    (r.addFailure f label index).consumed = r.consumed := by
  rw [addFailure]
  split <;> rfl

/-- Recorders whose contents are their own are merged without a refusal. -/
theorem mergeEach_eq_foldl_absorb {rs : List Recorder} (h : ∀ r ∈ rs, r.consumed = false)
    (r : Recorder) : r.mergeEach rs = .ok (rs.foldl absorb r) := by
  induction rs generalizing r with
  | nil => rfl
  | cons other rs ih =>
    have hmerge : r.merge other = .ok (r.absorb other) := by
      rw [merge, h other (List.mem_cons_self ..)]
      rfl
    rw [mergeEach, hmerge]
    exact ih (fun x hx => h x (List.mem_cons_of_mem _ hx)) _

end Recorder

/-! ### All errands -/

namespace Errand

theorem consumed_collected (limits : Limits) (index : Nat) (e : Errand) :
    (e.collected limits index).consumed = false := by
  have h := Recorder.consumed_foldl_add e.notices (Recorder.fresh limits)
  rw [collected]
  cases e.failure? with
  | none   => exact h
  | some f => exact (Recorder.consumed_addFailure ..).trans h

theorem resultsOf_map_toTask (limits : Limits) (es : List Errand) :
    resultsOf limits (es.map toTask) = es.zipIdx.map fun e => e.1.collected limits e.2 := by
  rw [resultsOf, List.zipIdx_map, List.map_map]
  exact List.map_congr_left fun e _ => result_finish_start limits e.2 e.1

theorem findSome?_escape? (limits : Limits) (es : List Errand) :
    (es.map toTask).findSome? (fun t => (Worker.start limits t).finish.escape?)
      = (es.findSome? untold?).map .untold := by
  induction es with
  | nil => rfl
  | cons e es ih =>
    rw [List.map_cons, List.findSome?_cons, List.findSome?_cons, escape?_finish_start, ih]
    cases e.untold? with
    | none      => rfl
    | some name => rfl

/-- The first failure without a text decides; if there is none, errands collect what they do one
after another. -/
theorem runTasks_map_toTask (limits : Limits) {workers? : Option Int}
    (hw : ∀ n ∈ workers?, 0 < n) (es : List Errand) :
    runTasks limits workers? (es.map toTask) =
      match es.findSome? untold? with
      | some name => .error (.untold name)
      | none      => .ok (collectInTurn limits es) := by
  have hlive : ∀ r ∈ es.zipIdx.map fun e => e.1.collected limits e.2, r.consumed = false := by
    intro r hr
    obtain ⟨e, _, rfl⟩ := List.mem_map.1 hr
    exact consumed_collected limits e.2 e.1
  rw [runTasks_eq hw, findSome?_escape?, resultsOf_map_toTask, Recorder.mergeAll,
    Recorder.mergeEach_eq_foldl_absorb hlive]
  cases es.findSome? untold? with
  | some name => rfl
  | none      => rfl

theorem runTasks_of_told (limits : Limits) {workers? : Option Int} (hw : ∀ n ∈ workers?, 0 < n)
    {es : List Errand} (htold : ∀ e ∈ es, e.untold? = none) :
    runTasks limits workers? (es.map toTask) = .ok (collectInTurn limits es) := by
  rw [runTasks_map_toTask limits hw, List.findSome?_eq_none_iff.2 htold]

/-- A recorder that errands lead to is what they collect one after another. -/
theorem eq_collectInTurn_of_runTasks {limits : Limits} {workers? : Option Int}
    (hw : ∀ n ∈ workers?, 0 < n) {es : List Errand} {r : Recorder}
    (h : runTasks limits workers? (es.map toTask) = .ok r) : r = collectInTurn limits es := by
  rw [runTasks_map_toTask limits hw] at h
  cases hfirst : es.findSome? untold? with
  | some name => simp [hfirst] at h
  | none      => simpa [hfirst] using h.symm

theorem runTasks_of_untold (limits : Limits) {workers? : Option Int} (hw : ∀ n ∈ workers?, 0 < n)
    {es before after : List Errand} {e : Errand} {name : Text} (hes : es = before ++ e :: after)
    (hbefore : ∀ u ∈ before, u.untold? = none) (he : e.untold? = some name) :
    runTasks limits workers? (es.map toTask) = .error (.untold name) := by
  have hfirst : es.findSome? untold? = some name :=
    List.findSome?_eq_some_iff.2 ⟨before, e, after, hes, he, hbefore⟩
  rw [runTasks_map_toTask limits hw, hfirst]

/-- However workers take turns, a pool of errands comes to an end. If every failure has a text, the
pool has in every end collected what errands collect that are run one after another, where a failure
is one system error with the position of its errand. If there are failures without a text, what is
raised instead of the first one's is passed on in every end, and there is no recorder. -/
theorem runTasks_eq_collectInTurn (limits : Limits) {workers? : Option Int}
    (hw : ∀ n ∈ workers?, 0 < n) (es : List Errand) {jobs : Pool}
    (hreach : Pool.Reaches limits workers? (es.map toTask) (Pool.start (es.map toTask)) jobs) :
    (∃ last, Pool.Reaches limits workers? (es.map toTask) jobs last ∧ last.HasEnded) ∧
    ((∀ e ∈ es, e.untold? = none) →
      runTasks limits workers? (es.map toTask) = .ok (collectInTurn limits es) ∧
      (jobs.HasEnded → jobs.outcome limits = .ok (collectInTurn limits es))) ∧
    (∀ before e after name, es = before ++ e :: after → (∀ u ∈ before, u.untold? = none) →
      e.untold? = some name →
      runTasks limits workers? (es.map toTask) = .error (.untold name) ∧
      (jobs.HasEnded → jobs.outcome limits = .error (.untold name))) ∧
    ∀ (f : Failure) (text label : Text) (index : Nat), f.text = .ok text →
      ∃ error, f.toSystemError label index = .ok error ∧
        error.code.text = "runtime_exception_in_task" ∧
        ∃ ms, error.context = .obj ms ∧ (Text.ofString "taskIndex", .int index) ∈ ms := by
  refine ⟨Pool.exists_ended hw (Pool.follows_start.reaches hreach).1, fun htold => ?_, ?_, ?_⟩
  · have hrun := runTasks_of_told limits hw htold
    refine ⟨hrun, fun hend => ?_⟩
    rw [← hrun]
    exact Pool.outcome_eq_runTasks hw hreach hend
  · intro before e after name hes hbefore he
    have hrun := runTasks_of_untold limits hw hes hbefore he
    refine ⟨hrun, fun hend => ?_⟩
    rw [← hrun]
    exact Pool.outcome_eq_runTasks hw hreach hend
  · intro f text label index htext
    refine ⟨_, by rw [Failure.toSystemError, htext]; rfl, rfl, _, rfl, ?_⟩
    simp

/-- Two errands, of which the first fails behind its notice. -/
def pair : List Errand :=
  [⟨.type (Text.ofString "Import"), [.validation ⟨⟨"missing_author", by decide⟩, .error, .obj []⟩],
      some ⟨Text.ofString "ValueError", .ok []⟩⟩,
    ⟨.type (Text.ofString "Upload"), [.system ⟨⟨"upload_failed", by decide⟩, .obj []⟩], none⟩]

theorem runTasks_pair :
    ∃ jobs, Pool.Reaches {} (some 2) (pair.map toTask) (Pool.start (pair.map toTask)) jobs ∧
      jobs.HasEnded ∧ runTasks {} (some 2) (pair.map toTask) = .ok (collectInTurn {} pair) ∧
      jobs.outcome {} = .ok (collectInTurn {} pair) ∧
      (collectInTurn {} pair).systemErrors.toList.map (·.code.text)
        = ["runtime_exception_in_task", "upload_failed"] := by
  have hw : ∀ n ∈ (some 2 : Option Int), 0 < n := by decide
  -- The second errand ends while the first one has done nothing yet.
  obtain ⟨jobs, hreach, hend⟩ : ∃ jobs, Pool.Reaches {} (some 2) (pair.map toTask)
      (Pool.start (pair.map toTask)) jobs ∧ jobs.HasEnded := by
    refine ⟨_, Relation.ReflTransGen.refl
      |>.tail (.take (i := 0) rfl rfl (by decide) (by decide))
      |>.tail (.take (i := 1) rfl rfl (by decide) (by decide))
      |>.tail (.act (i := 1) rfl (by decide))
      |>.tail (.finish (i := 1) rfl rfl rfl)
      |>.tail (.act (i := 0) rfl (by decide))
      |>.tail (.act (i := 0) rfl (by decide))
      |>.tail (.finish (i := 0) rfl rfl rfl), by decide⟩
  obtain ⟨-, htold, -⟩ := runTasks_eq_collectInTurn {} hw pair hreach
  obtain ⟨hrun, hout⟩ := htold (by decide)
  exact ⟨jobs, hreach, hend, hrun, hout hend, by decide +kernel⟩

/-- Two errands, of which the second fails over a missing key that cannot be shown. -/
def search : List Errand :=
  [⟨.type (Text.ofString "Upload"), [.system ⟨⟨"upload_failed", by decide⟩, .obj []⟩], none⟩,
    ⟨.type (Text.ofString "Search"), [],
      some ⟨Text.ofString "KeyError", .error (Text.ofString "ValueError")⟩⟩]

/-- There is no recorder, although every errand ends with a failure at most. -/
theorem not_returns_search : ¬∃ r, runTasks {} none (search.map toTask) = .ok r := by
  have hw : ∀ n ∈ (none : Option Int), 0 < n := by decide
  have hsplit : search = search.take 1 ++ search[1] :: [] := rfl
  have hrun := runTasks_of_untold {} hw hsplit (by decide) rfl
  rintro ⟨r, hr⟩
  cases hrun.symm.trans hr

end Errand

end NoticeLedger

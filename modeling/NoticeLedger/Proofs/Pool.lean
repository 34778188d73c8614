import Mathlib.Algebra.GroupWithZero.Nat
import Mathlib.Logic.Relation
import NoticeLedger.Proofs.Calls
import NoticeLedger.Task

/-!
# Pools of workers

Tasks wait in a pool until a worker takes them up, in the order in which they were handed in and
never more at a time than there are workers. Of the tasks that are on their way any one may go on
next, by a single action (`Pool.Step`), so a run of a pool is an interleaving of the actions of
its tasks.

Whatever the interleaving, a task that is on its way has done a front of its own actions and
nothing else (`Job.Follows`), and one that has ended has done them all. A pool in which every task
has ended therefore gives what running the tasks gives (`Pool.outcome_eq_runTasks`), and a pool
can always be run to such an end (`Pool.exists_ended`).
-/

namespace NoticeLedger

/-! ### Workers -/

namespace Worker

theorem step_of_pending_eq_nil {w : Worker} (h : w.pending = []) : w.step = w := by
  rw [step, h]

theorem run_add (m n : Nat) (w : Worker) : run (m + n) w = run n (run m w) := by
  induction m generalizing w with
  | zero => rw [Nat.zero_add, run]
  | succ m ih => rw [Nat.succ_add, run, run, ih]

theorem run_of_pending_eq_nil {w : Worker} (h : w.pending = []) (n : Nat) : run n w = w := by
  induction n with
  | zero => rfl
  | succ n ih => rw [run, step_of_pending_eq_nil h, ih]

/-- An action that is taken is not pending any more. -/
theorem length_pending_step (w : Worker) : w.step.pending.length ≤ w.pending.length - 1 := by
  rw [step]
  split
  · rename_i h
    simp [h]
  · rename_i h
    rw [h]
    split <;> simp

theorem length_pending_run (n : Nat) (w : Worker) :
    (run n w).pending.length ≤ w.pending.length - n := by
  induction n generalizing w with
  | zero => exact Nat.le_refl _
  | succ n ih =>
    have hstep := w.length_pending_step
    have hrun := ih w.step
    rw [run]
    omega

theorem pending_finish (w : Worker) : w.finish.pending = [] := by
  have h := length_pending_run w.pending.length w
  rw [Nat.sub_self, Nat.le_zero, List.length_eq_zero_iff] at h
  exact h

/-- A worker that has nothing left to do is where it finishes. -/
theorem run_eq_finish {w : Worker} {n : Nat} (h : (run n w).pending = []) : run n w = w.finish := by
  rcases Nat.le_total n w.pending.length with hn | hn
  · obtain ⟨k, hk⟩ := Nat.exists_eq_add_of_le hn
    rw [finish, hk, run_add, run_of_pending_eq_nil h]
  · obtain ⟨k, hk⟩ := Nat.exists_eq_add_of_le hn
    rw [hk, run_add]
    exact run_of_pending_eq_nil w.pending_finish k

end Worker

/-- A number of workers that is not refused. -/
theorem not_any_le_zero {workers? : Option Int} (hw : ∀ n ∈ workers?, 0 < n) :
    ¬workers?.any (· ≤ 0) = true := by
  cases workers? with
  | none   => exact Bool.false_ne_true
  | some n => simpa using hw n rfl

/-! ### Tasks one by one -/

theorem taskResults_eq_map (limits : Limits) (tasks : List Task) (k : Nat) :
    taskResults k (tasks.map fun t => (t, (Worker.start limits t).finish))
      = (tasks.zipIdx k).map fun e =>
          (Worker.start limits e.1).finish.result e.1.name.label e.2 := by
  induction tasks generalizing k with
  | nil => rfl
  | cons t tasks ih => rw [List.map_cons, taskResults, ih, List.zipIdx_cons, List.map_cons]

/-- What each task has collected when it has ended, on a recorder of its own. -/
def resultsOf (limits : Limits) (tasks : List Task) : List Recorder :=
  tasks.zipIdx.map fun e => (Worker.start limits e.1).finish.result e.1.name.label e.2

/-- What escapes first is passed on; if nothing does, what the tasks have collected is merged. -/
theorem runTasks_eq {workers? : Option Int} (hw : ∀ n ∈ workers?, 0 < n) (limits : Limits)
    (tasks : List Task) : runTasks limits workers? tasks =
    match tasks.findSome? fun t => (Worker.start limits t).finish.escape? with
    | some fault => .error fault
    | none       => (Recorder.mergeAll limits (resultsOf limits tasks)).mapError .refused := by
  rw [runTasks, if_neg (not_any_le_zero hw)]
  simp only [List.findSome?_map, taskResults_eq_map]
  rfl

/-! ### Pools -/

/-- What has become of a task. -/
inductive Job where
  | waiting
  | running (w : Worker)
  /-- The task has ended, with its recorder and what has escaped from its worker if anything has. -/
  | ended (recorder : Recorder) (escape? : Option RunFault)

namespace Job

def isWaiting : Job → Bool
  | waiting => true
  | _       => false

def isRunning : Job → Bool
  | running _ => true
  | _         => false

def isEnded : Job → Bool
  | ended _ _ => true
  | _         => false

/-- The recorder of a task that has ended. -/
def recorder? : Job → Option Recorder
  | ended r _ => some r
  | _         => none

/-- What has escaped from a task that has ended. -/
def escapeOf? : Job → Option RunFault
  | ended _ x => x
  | _         => none

/-- What a task leads to when its worker takes all its actions. -/
def last (limits : Limits) (t : Task) (index : Nat) : Job :=
  let w := (Worker.start limits t).finish
  ended (w.result t.name.label index) w.escape?

/-- A task on its way has done a front of its own actions, one that has ended all of them. -/
def Follows (limits : Limits) (t : Task) (index : Nat) : Job → Prop
  | waiting   => True
  | running w => ∃ n, w = (Worker.start limits t).run n
  | job       => job = last limits t index

/-- How many steps a task has before it at most. -/
def remaining (t : Task) : Job → Nat
  | waiting   => t.actions.length + 2
  | running w => w.pending.length + 1
  | ended _ _ => 0

theorem cases_of_isEnded_eq_false {j : Job} (h : j.isEnded = false) :
    j = .waiting ∨ ∃ w, j = .running w := by
  cases j with
  | waiting => exact Or.inl rfl
  | running w => exact Or.inr ⟨w, rfl⟩
  | ended r x => cases h

theorem eq_waiting {j : Job} (h : j.isWaiting = true) : j = .waiting := by
  cases j with
  | waiting => rfl
  | running w => cases h
  | ended r x => cases h

end Job

/-- Tasks that are run side by side, in the order in which they were handed in. -/
abbrev Pool := List Job

namespace Pool

variable {limits : Limits} {workers? : Option Int} {tasks : List Task}

/-- The pool in which every task waits. -/
def start (tasks : List Task) : Pool :=
  tasks.map fun _ => .waiting

/-- One step of a pool: the first task that waits is taken up by a worker, or a task takes its
next action, or a task without actions ends and its failure is recorded. -/
inductive Step (limits : Limits) (workers? : Option Int) (tasks : List Task) : Pool → Pool → Prop
  | take {jobs : Pool} {i : Nat} {t : Task} (ht : tasks[i]? = some t)
      (hi : jobs[i]? = some .waiting) (hfirst : ∀ j ∈ jobs.take i, j.isWaiting = false)
      (hfree : ∀ n ∈ workers?, (jobs.countP Job.isRunning : Int) < n) :
      Step limits workers? tasks jobs (jobs.set i (.running (Worker.start limits t)))
  | act {jobs : Pool} {i : Nat} {w : Worker} (hi : jobs[i]? = some (.running w))
      (hpending : w.pending ≠ []) :
      Step limits workers? tasks jobs (jobs.set i (.running w.step))
  | finish {jobs : Pool} {i : Nat} {t : Task} {w : Worker} (ht : tasks[i]? = some t)
      (hi : jobs[i]? = some (.running w)) (hpending : w.pending = []) :
      Step limits workers? tasks jobs
        (jobs.set i (.ended (w.result t.name.label i) w.escape?))

/-- A pool comes out of another one by steps. -/
abbrev Reaches (limits : Limits) (workers? : Option Int) (tasks : List Task) : Pool → Pool → Prop :=
  Relation.ReflTransGen (Step limits workers? tasks)

/-- Every task has ended. -/
def HasEnded (jobs : Pool) : Prop :=
  ∀ j ∈ jobs, j.isEnded = true

instance (jobs : Pool) : Decidable jobs.HasEnded :=
  inferInstanceAs (Decidable (∀ j ∈ jobs, j.isEnded = true))

/-- What a pool gives once every task has ended: what escaped first by the order of the tasks, or
the recorders merged in this order. -/
def outcome (limits : Limits) (jobs : Pool) : Except RunFault Recorder :=
  match jobs.findSome? Job.escapeOf? with
  | some fault => .error fault
  | none       => (Recorder.mergeAll limits (jobs.filterMap Job.recorder?)).mapError .refused

/-- Every task of a pool has done nothing but its own actions. -/
def Follows (limits : Limits) (tasks : List Task) (jobs : Pool) : Prop :=
  jobs.length = tasks.length ∧
    ∀ (i : Nat) (t : Task) (j : Job),
      tasks[i]? = some t → jobs[i]? = some j → Job.Follows limits t i j

/-! ### Every interleaving -/

theorem follows_start : Follows limits tasks (start tasks) := by
  refine ⟨List.length_map .., fun i t j _ hj => ?_⟩
  obtain ⟨_, _, rfl⟩ := List.mem_map.1 (List.mem_of_getElem? hj)
  trivial

theorem follows_set {jobs : Pool} (h : Follows limits tasks jobs) {i : Nat} {j : Job}
    (hj : ∀ t, tasks[i]? = some t → Job.Follows limits t i j) :
    Follows limits tasks (jobs.set i j) := by
  refine ⟨(List.length_set ..).trans h.1, fun k t x ht hx => ?_⟩
  rw [List.getElem?_set] at hx
  split at hx
  · rename_i heq
    subst heq
    split at hx
    · obtain rfl := Option.some.inj hx
      exact hj t ht
    · cases hx
  · exact h.2 k t x ht hx

/-- A step of one task changes nothing about what the others have done. -/
theorem Follows.step {jobs jobs' : Pool} (h : Follows limits tasks jobs)
    (hstep : Step limits workers? tasks jobs jobs') : Follows limits tasks jobs' := by
  cases hstep with
  | @take i t ht hi _ _ =>
    refine follows_set h fun t' ht' => ⟨0, ?_⟩
    rw [Option.some.inj (ht.symm.trans ht'), Worker.run]
  | @act i w hi _ =>
    apply follows_set h
    intro t ht
    obtain ⟨n, rfl⟩ := h.2 i t _ ht hi
    exact ⟨n + 1, by rw [Worker.run_add, Worker.run, Worker.run]⟩
  | @finish i t w ht hi hpending =>
    apply follows_set h
    intro t' ht'
    obtain rfl := Option.some.inj (ht.symm.trans ht')
    obtain ⟨n, rfl⟩ := h.2 i t _ ht hi
    rw [Worker.run_eq_finish hpending]
    rfl

theorem Follows.reaches {jobs jobs' : Pool} (h : Follows limits tasks jobs)
    (hreach : Reaches limits workers? tasks jobs jobs') : Follows limits tasks jobs' := by
  induction hreach with
  | refl => exact h
  | tail _ hstep ih => exact ih.step hstep

/-- Once every task has ended nothing tells in which order they took their turns. -/
theorem Follows.eq_of_hasEnded {jobs : Pool} (h : Follows limits tasks jobs)
    (hend : jobs.HasEnded) : jobs = tasks.zipIdx.map fun e => Job.last limits e.1 e.2 := by
  apply List.ext_getElem?
  intro i
  rw [List.getElem?_map, List.getElem?_zipIdx, Nat.zero_add]
  cases ht : tasks[i]? with
  | none =>
    rw [List.getElem?_eq_none_iff, ← h.1] at ht
    exact List.getElem?_eq_none_iff.2 ht
  | some t =>
    obtain ⟨hlt, _⟩ := List.getElem?_eq_some_iff.1 ht
    have hlt' : i < jobs.length := h.1 ▸ hlt
    have hi : jobs[i]? = some jobs[i] := List.getElem?_eq_getElem hlt'
    have hfollows := h.2 i t _ ht hi
    have hended := hend _ (List.mem_of_getElem? hi)
    rw [hi, Option.map_some, Option.map_some]
    cases hj : jobs[i] with
    | waiting => simp [hj, Job.isEnded] at hended
    | running w => simp [hj, Job.isEnded] at hended
    | ended r x =>
      rw [hj] at hfollows
      exact congrArg some hfollows

theorem findSome?_last (limits : Limits) (tasks : List Task) (k : Nat) :
    ((tasks.zipIdx k).map fun e => Job.last limits e.1 e.2).findSome? Job.escapeOf?
      = (tasks.map fun t => (t, (Worker.start limits t).finish)).findSome? (·.2.escape?) := by
  induction tasks generalizing k with
  | nil => rfl
  | cons t tasks ih =>
    rw [List.zipIdx_cons, List.map_cons, List.map_cons, List.findSome?_cons, List.findSome?_cons,
      ih]
    rfl

theorem filterMap_last (limits : Limits) (tasks : List Task) (k : Nat) :
    ((tasks.zipIdx k).map fun e => Job.last limits e.1 e.2).filterMap Job.recorder?
      = taskResults k (tasks.map fun t => (t, (Worker.start limits t).finish)) := by
  induction tasks generalizing k with
  | nil => rfl
  | cons t tasks ih =>
    rw [List.zipIdx_cons, List.map_cons, List.map_cons, taskResults, ← ih]
    rfl

/-- A pool that has come to an end gives what running its tasks gives, whatever the turns were. -/
theorem outcome_eq_runTasks {jobs : Pool} (hw : ∀ n ∈ workers?, 0 < n)
    (hreach : Reaches limits workers? tasks (start tasks) jobs) (hend : jobs.HasEnded) :
    jobs.outcome limits = runTasks limits workers? tasks := by
  have hjobs := (follows_start.reaches hreach).eq_of_hasEnded hend
  rw [hjobs, outcome, findSome?_last, filterMap_last]
  exact (if_neg (not_any_le_zero hw)).symm

/-! ### Coming to an end -/

/-- How many steps a pool has before it at most. -/
def remaining (tasks : List Task) (jobs : Pool) : Nat :=
  (List.zipWith Job.remaining tasks jobs).sum

theorem remaining_set_lt {tasks : List Task} {jobs : Pool} {i : Nat} {t : Task} {j j' : Job}
    (ht : tasks[i]? = some t) (hj : jobs[i]? = some j) (hlt : j'.remaining t < j.remaining t) :
    remaining tasks (jobs.set i j') < remaining tasks jobs := by
  induction tasks generalizing i jobs with
  | nil => cases ht
  | cons u tasks ih =>
    cases jobs with
    | nil => cases hj
    | cons x jobs =>
      cases i with
      | zero =>
        obtain rfl := Option.some.inj ht
        obtain rfl := Option.some.inj hj
        simpa [remaining] using hlt
      | succ i =>
        have hj' : jobs[i]? = some j := hj
        simpa [remaining] using ih ht hj'

/-- A step brings a pool closer to its end. -/
theorem Step.remaining_lt {jobs jobs' : Pool} (hlen : jobs.length = tasks.length)
    (hstep : Step limits workers? tasks jobs jobs') :
    remaining tasks jobs' < remaining tasks jobs := by
  cases hstep with
  | take ht hi _ _ =>
    refine remaining_set_lt ht hi ?_
    simp [Job.remaining, Worker.start]
  | @act i w hi hpending =>
    obtain ⟨hlt, _⟩ := List.getElem?_eq_some_iff.1 hi
    refine remaining_set_lt (List.getElem?_eq_getElem (hlen ▸ hlt)) hi ?_
    have hpos := List.length_pos_iff.2 hpending
    have hstep := w.length_pending_step
    simp only [Job.remaining]
    omega
  | finish ht hi _ => exact remaining_set_lt ht hi (Nat.succ_pos _)

theorem Step.length_eq {jobs jobs' : Pool} (hstep : Step limits workers? tasks jobs jobs') :
    jobs'.length = jobs.length := by
  cases hstep <;> exact List.length_set ..

/-- Before its end a pool can always take a step, provided that there are workers: a task that is
on its way goes on or ends, and if there is none the first that waits is taken up. -/
theorem exists_step {jobs : Pool} (hw : ∀ n ∈ workers?, 0 < n)
    (hlen : jobs.length = tasks.length) (hend : ¬jobs.HasEnded) :
    ∃ jobs', Step limits workers? tasks jobs jobs' := by
  have htask : ∀ {i : Nat} {j : Job}, jobs[i]? = some j → ∃ t, tasks[i]? = some t := by
    intro i j hi
    obtain ⟨hlt, _⟩ := List.getElem?_eq_some_iff.1 hi
    exact ⟨_, List.getElem?_eq_getElem (hlen ▸ hlt)⟩
  by_cases hrunning : ∃ w, Job.running w ∈ jobs
  · obtain ⟨w, hw⟩ := hrunning
    obtain ⟨i, hi⟩ := List.getElem?_of_mem hw
    obtain ⟨t, ht⟩ := htask hi
    by_cases hpending : w.pending = []
    · exact ⟨_, .finish ht hi hpending⟩
    · exact ⟨_, .act hi hpending⟩
  · have hwaiting : ∃ j ∈ jobs, j.isWaiting = true := by
      obtain ⟨j, hended⟩ := Classical.not_forall.1 hend
      obtain ⟨hj, hended⟩ := Classical.not_imp.1 hended
      rcases Job.cases_of_isEnded_eq_false (Bool.eq_false_iff.2 hended) with rfl | ⟨w, rfl⟩
      · exact ⟨_, hj, rfl⟩
      · exact absurd ⟨w, hj⟩ hrunning
    have hlt := List.findIdx_lt_length_of_exists hwaiting
    have hi : jobs[jobs.findIdx Job.isWaiting]? = some .waiting := by
      rw [List.getElem?_eq_getElem hlt, Job.eq_waiting (List.findIdx_getElem (w := hlt))]
    have hfirst : ∀ j ∈ jobs.take (jobs.findIdx Job.isWaiting), j.isWaiting = false := by
      intro j hj
      obtain ⟨k, hk, rfl⟩ := List.mem_take_iff_getElem.1 hj
      exact List.not_of_lt_findIdx (Nat.lt_of_lt_of_le hk (Nat.min_le_left ..))
    have hcount : jobs.countP Job.isRunning = 0 := by
      apply List.countP_eq_zero.2
      intro j hj hrun
      cases j with
      | waiting => cases hrun
      | running w => exact hrunning ⟨w, hj⟩
      | ended r x => cases hrun
    obtain ⟨t, ht⟩ := htask hi
    refine ⟨_, .take ht hi hfirst fun n hn => ?_⟩
    rw [hcount]
    exact hw n hn

/-- However far a pool has come, it can be run to its end. -/
theorem exists_ended {jobs : Pool} (hw : ∀ n ∈ workers?, 0 < n)
    (hlen : jobs.length = tasks.length) :
    ∃ last, Reaches limits workers? tasks jobs last ∧ last.HasEnded := by
  induction hn : remaining tasks jobs using Nat.strongRecOn generalizing jobs with
  | ind n ih =>
    by_cases hend : jobs.HasEnded
    · exact ⟨jobs, .refl, hend⟩
    · obtain ⟨jobs', hstep⟩ := exists_step hw hlen hend
      obtain ⟨last, hreach, hlast⟩ :=
        ih _ (hn ▸ hstep.remaining_lt hlen) (hstep.length_eq.trans hlen) rfl
      exact ⟨last, .head hstep hreach, hlast⟩

end Pool

end NoticeLedger

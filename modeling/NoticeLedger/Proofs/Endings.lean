import Mathlib.Data.List.TakeWhile
import NoticeLedger.Proofs.Errands
import NoticeLedger.Proofs.Outcomes

/-!
# How tasks end

The actions of a task are taken one after another up to the first that raises (`Recorder.Ends`), so
a task ends with nothing raised, with a failure or with an interrupt. What becomes of many tasks is
told by how each of them ends (`RunTells`), whatever the order in which they do: the first
interrupt, in the order of the tasks, is passed on; a recorder that has been given away is refused;
and otherwise there is a recorder, in which every failure is told once (`Pool.tells_of_reaches`).
-/

namespace NoticeLedger

/-! ### Texts without blanks around them -/

section Trim

variable {α : Type} (p : α → Bool) (xs : List α)

theorem dropWhile_eq_trimWhere_append : xs.dropWhile p
    = trimWhere p xs ++ ((xs.dropWhile p).reverse.takeWhile p).reverse := by
  rw [trimWhere, ← List.reverse_append, List.takeWhile_append_dropWhile, List.reverse_reverse]

theorem exists_append_trimWhere : ∃ before after, xs = before ++ trimWhere p xs ++ after ∧
    (∀ x ∈ before, p x = true) ∧ ∀ x ∈ after, p x = true := by
  refine ⟨xs.takeWhile p, ((xs.dropWhile p).reverse.takeWhile p).reverse, ?_, fun x hx => ?_,
    fun x hx => ?_⟩
  · rw [List.append_assoc, ← dropWhile_eq_trimWhere_append, List.takeWhile_append_dropWhile]
  · exact List.mem_takeWhile_imp hx
  · exact List.mem_takeWhile_imp (List.mem_reverse.mp hx)

theorem head?_trimWhere : ∀ x ∈ (trimWhere p xs).head?, p x = false := by
  intro x hx
  have hnot := List.head?_dropWhile_not p xs
  rw [dropWhile_eq_trimWhere_append, List.head?_append, Option.mem_def.mp hx] at hnot
  exact hnot

theorem getLast?_trimWhere : ∀ x ∈ (trimWhere p xs).getLast?, p x = false := by
  intro x hx
  rw [trimWhere, List.getLast?_reverse] at hx
  have hnot := List.head?_dropWhile_not p (xs.dropWhile p).reverse
  rw [Option.mem_def.mp hx] at hnot
  exact hnot

end Trim

namespace Text

/-- The symbol is a blank character. -/
def BlankSymbol (x : Symbol) : Prop :=
  x.char?.any isBlank = true

/-- The text `s` is what is left of `t` without the blanks at either end. -/
structure IsTrimOf (s t : Text) : Prop where
  around : ∃ before after, t = before ++ s ++ after ∧
    (∀ x ∈ before, BlankSymbol x) ∧ ∀ x ∈ after, BlankSymbol x
  first : ∀ x ∈ s.head?, ¬BlankSymbol x
  last : ∀ x ∈ s.getLast?, ¬BlankSymbol x

theorem isTrimOf_trim (t : Text) : t.trim.IsTrimOf t where
  around := exists_append_trimWhere _ t
  first x hx := Bool.eq_false_iff.mp (head?_trimWhere _ t x hx)
  last x hx := Bool.eq_false_iff.mp (getLast?_trimWhere _ t x hx)

end Text

/-! ### Failures that are told -/

namespace Failure

/-- The message under which a failure is told: its text without the blanks around it, or the name of
its type if nothing is left. -/
inductive IsSummarizedBy (f : Failure) : Text → Prop where
  | text {t s : Text} (ht : f.text = .ok t) (h : s.IsTrimOf t) (hne : s ≠ []) : IsSummarizedBy f s
  | type {t : Text} (ht : f.text = .ok t) (h : Text.IsTrimOf [] t) : IsSummarizedBy f f.type

theorem isSummarizedBy_summary {f : Failure} {t : Text} (ht : f.text = .ok t) :
    f.IsSummarizedBy (f.summary t) := by
  have htrim := t.isTrimOf_trim
  rw [summary]
  split
  · rename_i hempty
    rw [List.isEmpty_iff.mp hempty] at htrim
    exact .type ht htrim
  · rename_i hne
    exact .text ht htrim fun hnil => hne (List.isEmpty_iff.mpr hnil)

/-- The system error tells the failure of the task with a label and a position. -/
structure IsToldBy (f : Failure) (label : Text) (index : Nat) (e : SystemError) : Prop where
  code : e.code.text = "runtime_exception_in_task"
  context : ∃ message, f.IsSummarizedBy message ∧ e.context = .obj
    [(Text.ofString "exception", .str f.type), (Text.ofString "message", .str message),
      (Text.ofString "task", .str label), (Text.ofString "taskIndex", .int index)]

theorem isToldBy_of_toSystemError {f : Failure} {label : Text} {index : Nat} {e : SystemError}
    (h : f.toSystemError label index = .ok e) : f.IsToldBy label index e := by
  obtain ⟨t, ht, rfl⟩ := exists_of_map_ok h
  exact ⟨rfl, f.summary t, isSummarizedBy_summary ht, rfl⟩

theorem exists_toSystemError {f : Failure} {t : Text} (ht : f.text = .ok t) (label : Text)
    (index : Nat) : ∃ e, f.toSystemError label index = .ok e := by
  rw [toSystemError, ht]
  exact ⟨_, rfl⟩

end Failure

/-! ### Endings -/

/-- Actions on a recorder lead to another one, up to the first action that raises if there is
one. -/
inductive Recorder.Ends : Recorder → List Action → Recorder → Option Raised → Prop where
  | done (r : Recorder) : Ends r [] r none
  | act {r r' last : Recorder} {a : Action} {as : List Action} {x? : Option Raised}
      (h : r.act a = .ok r') (rest : Ends r' as last x?) : Ends r (a :: as) last x?
  | raise {r : Recorder} {a : Action} {as : List Action} {x : Raised}
      (h : r.act a = .error x) : Ends r (a :: as) r (some x)

namespace Recorder

theorem exists_ends (r : Recorder) (as : List Action) : ∃ last x?, r.Ends as last x? := by
  induction as generalizing r with
  | nil => exact ⟨r, none, .done r⟩
  | cons a as ih =>
    cases h : r.act a with
    | error x => exact ⟨r, some x, .raise h⟩
    | ok r' =>
      obtain ⟨last, x?, rest⟩ := ih r'
      exact ⟨last, x?, .act h rest⟩

/-- A worker that takes all its actions is where they end. -/
theorem Ends.finish_eq {r last : Recorder} {as : List Action} {x? : Option Raised}
    (h : r.Ends as last x?) : Worker.finish ⟨r, as, none⟩ = ⟨last, [], x?⟩ := by
  induction h with
  | done r => rfl
  | @act r r' last a as x? hact _ ih =>
    have hstep : Worker.step ⟨r, a :: as, none⟩ = ⟨r', as, none⟩ := by
      simp only [Worker.step, hact]
    rw [Worker.finish, List.length_cons, Worker.run, hstep]
    exact ih
  | @raise r a as x hact =>
    have hstep : Worker.step ⟨r, a :: as, none⟩ = ⟨r, [], some x⟩ := by
      simp only [Worker.step, hact]
    rw [Worker.finish, List.length_cons, Worker.run, hstep]
    exact Worker.run_of_pending_eq_nil rfl _

/-- What is raised in the end is raised by one of the actions. -/
theorem Ends.exists_act {r last : Recorder} {as : List Action} {x : Raised}
    (h : r.Ends as last (some x)) : ∃ a ∈ as, ∃ r' : Recorder, r'.act a = .error x := by
  generalize hx : some x = x? at h
  induction h with
  | done r => cases hx
  | act _ _ ih =>
    obtain ⟨a, ha, r', hact⟩ := ih hx
    exact ⟨a, List.mem_cons_of_mem _ ha, r', hact⟩
  | raise hact =>
    obtain rfl := Option.some.inj hx
    exact ⟨_, List.mem_cons_self .., _, hact⟩

theorem finish_eq_iff_ends {r last : Recorder} {as : List Action} {x? : Option Raised} :
    Worker.finish ⟨r, as, none⟩ = ⟨last, [], x?⟩ ↔ r.Ends as last x? := by
  refine ⟨fun h => ?_, Ends.finish_eq⟩
  obtain ⟨last', x?', hends⟩ := r.exists_ends as
  obtain ⟨rfl, -, rfl⟩ := Worker.mk.inj (h.symm.trans hends.finish_eq)
  exact hends

end Recorder

namespace Task

variable {limits : Limits} {t : Task}

/-- A task that has a fresh recorder to itself leaves it so, and raises something or nothing. -/
def Ends (limits : Limits) (t : Task) (r : Recorder) (x? : Option Raised) : Prop :=
  (Recorder.fresh limits).Ends t.actions r x?

/-- The task ends with an interrupt. -/
def IsInterrupted (limits : Limits) (t : Task) (name : Text) : Prop :=
  ∃ r, t.Ends limits r (some (.interrupt name))

/-- If the task ends with a failure, this has a text. -/
def IsTold (limits : Limits) (t : Task) : Prop :=
  ∀ r f, t.Ends limits r (some (.failure f)) → ∃ text, f.text = .ok text

/-- The recorder of the task has been merged into another one when the task ends. -/
def GivesAway (limits : Limits) (t : Task) : Prop :=
  ∃ r x?, t.Ends limits r x? ∧ r.consumed = true

/-- What the recorder of a task at a position brings along: the system errors of the task itself,
and behind them the one that tells its failure if it fails. -/
inductive Brings (limits : Limits) (t : Task) (index : Nat) :
    List SystemError → Option SystemError → Prop where
  | quiet {r : Recorder} (h : t.Ends limits r none) :
      Brings limits t index r.systemErrors.toList none
  | failed {r : Recorder} {f : Failure} {e : SystemError}
      (h : t.Ends limits r (some (.failure f))) (he : f.IsToldBy t.name.label index e) :
      Brings limits t index r.systemErrors.toList (some e)

theorem ends_iff {r : Recorder} {x? : Option Raised} :
    t.Ends limits r x? ↔ (Worker.start limits t).finish = ⟨r, [], x?⟩ :=
  Recorder.finish_eq_iff_ends.symm

theorem exists_ends (limits : Limits) (t : Task) :
    ∃ r x?, (Worker.start limits t).finish = ⟨r, [], x?⟩ := by
  obtain ⟨r, x?, h⟩ := (Recorder.fresh limits).exists_ends t.actions
  exact ⟨r, x?, h.finish_eq⟩

/-- Only a failure that the task itself raises can be without a text. -/
theorem isTold_of_forall_raise
    (h : ∀ f, Action.raise (.failure f) ∈ t.actions → ∃ text, f.text = .ok text) :
    t.IsTold limits := by
  intro r f hends
  obtain ⟨a, ha, r', hact⟩ := hends.exists_act
  cases a with
  | raise x =>
    obtain rfl := Except.error.inj hact
    exact h f ha
  | addValidation n =>
    obtain ⟨refusal, -, hfailure⟩ := exists_of_mapError_error hact
    obtain rfl := Raised.failure.inj hfailure
    exact ⟨_, rfl⟩
  | addSystem n =>
    obtain ⟨refusal, -, hfailure⟩ := exists_of_mapError_error hact
    obtain rfl := Raised.failure.inj hfailure
    exact ⟨_, rfl⟩
  | mergeSelf =>
    obtain rfl := Raised.failure.inj (Except.error.inj hact)
    exact ⟨_, rfl⟩
  | mergeChild notices => cases hact
  | giveAway =>
    rw [Recorder.act] at hact
    split at hact
    · obtain rfl := Raised.failure.inj (Except.error.inj hact)
      exact ⟨_, rfl⟩
    · cases hact

theorem escape?_eq_some_iff (htold : t.IsTold limits) {fault : RunFault} :
    (Worker.start limits t).finish.escape? = some fault ↔
      ∃ name, fault = .interrupted name ∧ t.IsInterrupted limits name := by
  obtain ⟨r, x?, h⟩ := exists_ends limits t
  have hends := ends_iff.mpr h
  rw [h]
  constructor
  · intro hescape
    match x? with
    | none => cases hescape
    | some (.interrupt name) => exact ⟨name, (Option.some.inj hescape).symm, r, hends⟩
    | some (.failure ⟨type, .ok text⟩) => cases hescape
    | some (.failure ⟨type, .error x⟩) =>
      obtain ⟨text, htext⟩ := htold r _ hends
      cases htext
  · rintro ⟨name, rfl, r', hr'⟩
    obtain ⟨rfl, -, rfl⟩ := Worker.mk.inj (h.symm.trans (ends_iff.mp hr'))
    rfl

theorem escape?_eq_none_iff (htold : t.IsTold limits) :
    (Worker.start limits t).finish.escape? = none ↔ ∀ name, ¬t.IsInterrupted limits name := by
  simp only [Option.eq_none_iff_forall_ne_some, ne_eq, escape?_eq_some_iff htold]
  constructor
  · intro h name hname
    exact h _ ⟨name, rfl, hname⟩
  · rintro h _ ⟨name, -, hname⟩
    exact h name hname

theorem consumed_iff :
    (Worker.start limits t).finish.recorder.consumed = true ↔ t.GivesAway limits := by
  constructor
  · intro hconsumed
    obtain ⟨r, x?, h⟩ := exists_ends limits t
    rw [h] at hconsumed
    exact ⟨r, x?, ends_iff.mpr h, hconsumed⟩
  · rintro ⟨r, x?, hr, hconsumed⟩
    rw [ends_iff.mp hr]
    exact hconsumed

end Task

namespace Worker

/-- The system error that tells the failure of a task, if it failed. -/
def failureError? (w : Worker) (label : Text) (index : Nat) : Option SystemError :=
  match w.raised with
  | some (.failure f) => (f.toSystemError label index).toOption
  | _                 => none

theorem toList_systemErrors_result (w : Worker) (label : Text) (index : Nat) :
    (w.result label index).systemErrors.toList
      = w.recorder.systemErrors.toList ++ (w.failureError? label index).toList := by
  obtain ⟨r, pending, _ | f | name⟩ := w
  · exact (List.append_nil _).symm
  · rw [result, failureError?]
    dsimp only [Recorder.addFailure]
    cases f.toSystemError label index with
    | ok e    => exact Recorder.toList_systemErrors_addSystem r _
    | error x => exact (List.append_nil _).symm
  · exact (List.append_nil _).symm

theorem consumed_result (w : Worker) (label : Text) (index : Nat) :
    (w.result label index).consumed = w.recorder.consumed := by
  rw [result]
  split
  · exact Recorder.consumed_addFailure ..
  · rfl

theorem brings_finish {limits : Limits} {t : Task} (htold : t.IsTold limits)
    (hnone : ∀ name, ¬t.IsInterrupted limits name) (index : Nat) :
    t.Brings limits index (start limits t).finish.recorder.systemErrors.toList
      ((start limits t).finish.failureError? t.name.label index) := by
  obtain ⟨r, x?, h⟩ := Task.exists_ends limits t
  have hends := Task.ends_iff.mpr h
  rw [h]
  match x? with
  | none => exact .quiet hends
  | some (.failure f) =>
    obtain ⟨text, htext⟩ := htold r f hends
    obtain ⟨e, he⟩ := Failure.exists_toSystemError htext t.name.label index
    simp only [failureError?, he, Except.toOption]
    exact .failed hends (Failure.isToldBy_of_toSystemError he)
  | some (.interrupt name) => exact absurd ⟨r, hends⟩ (hnone name)

end Worker

/-! ### Many tasks -/

namespace Recorder

theorem toList_systemErrors_foldl_absorb (r : Recorder) (rs : List Recorder) :
    (rs.foldl absorb r).systemErrors.toList
      = r.systemErrors.toList ++ rs.flatMap (·.systemErrors.toList) := by
  induction rs generalizing r with
  | nil => exact (List.append_nil _).symm
  | cons other rs ih =>
    rw [List.foldl_cons, ih, toList_systemErrors_absorb, List.flatMap_cons, List.append_assoc]

/-- A recorder whose contents another one has taken over is refused. -/
theorem mergeEach_of_consumed {rs : List Recorder} (h : ∃ other ∈ rs, other.consumed = true)
    (r : Recorder) : r.mergeEach rs = .error .alreadyMerged := by
  induction rs generalizing r with
  | nil =>
    obtain ⟨other, hother, -⟩ := h
    cases hother
  | cons other rs ih =>
    rw [mergeEach, merge]
    cases hconsumed : other.consumed with
    | true => rfl
    | false =>
      simp only [List.mem_cons, exists_eq_or_imp, hconsumed, Bool.false_eq_true, false_or] at h
      exact ih h _

end Recorder

/-- What running tasks comes to, told by how each of them ends, if every failure has a text. -/
structure RunTells (limits : Limits) (tasks : List Task) (outcome : Except RunFault Recorder) :
    Prop where
  /-- There is a recorder unless a task is interrupted or gives its recorder away. -/
  returns : (∃ r, outcome = .ok r) ↔
    ∀ t ∈ tasks, (∀ name, ¬t.IsInterrupted limits name) ∧ ¬t.GivesAway limits
  /-- The first task that is interrupted decides. -/
  interrupted : ∀ name, outcome = .error (.interrupted name) ↔
    ∃ before t after, tasks = before ++ t :: after ∧ t.IsInterrupted limits name ∧
      ∀ u ∈ before, ∀ other, ¬u.IsInterrupted limits other
  /-- A recorder that has been given away is refused. -/
  refused : outcome = .error (.refused .alreadyMerged) ↔
    (∀ t ∈ tasks, ∀ name, ¬t.IsInterrupted limits name) ∧ ∃ t ∈ tasks, t.GivesAway limits
  /-- The recorder has the system errors of the tasks, each failure behind those of its task. -/
  errors : ∀ r, outcome = .ok r → ∃ parts : List (List SystemError × Option SystemError),
    List.Forall₂ (fun e part => e.1.Brings limits e.2 part.1 part.2) tasks.zipIdx parts ∧
      r.systemErrors.toList = parts.flatMap fun part => part.1 ++ part.2.toList

section RunTasks

variable {limits : Limits} {workers? : Option Int} {tasks : List Task}
  (htold : ∀ t ∈ tasks, t.IsTold limits)

include htold

theorem runTasks_of_interrupted (hw : ∀ n ∈ workers?, 0 < n) {before after : List Task} {t : Task}
    {name : Text} (htasks : tasks = before ++ t :: after) (ht : t.IsInterrupted limits name)
    (hbefore : ∀ u ∈ before, ∀ other, ¬u.IsInterrupted limits other) :
    runTasks limits workers? tasks = .error (.interrupted name) := by
  subst htasks
  have hfirst : (before ++ t :: after).findSome? (fun t => (Worker.start limits t).finish.escape?)
      = some (.interrupted name) := by
    rw [List.findSome?_eq_some_iff]
    refine ⟨before, t, after, rfl, ?_, fun u hu => ?_⟩
    · exact (Task.escape?_eq_some_iff (htold t List.mem_append_cons_self)).mpr ⟨name, rfl, ht⟩
    · exact (Task.escape?_eq_none_iff (htold u (List.mem_append_left _ hu))).mpr (hbefore u hu)
  rw [runTasks_eq hw, hfirst]

theorem runTasks_of_not_interrupted (hw : ∀ n ∈ workers?, 0 < n)
    (hnone : ∀ t ∈ tasks, ∀ name, ¬t.IsInterrupted limits name) :
    runTasks limits workers? tasks
      = (Recorder.mergeAll limits (resultsOf limits tasks)).mapError .refused := by
  have hfirst : tasks.findSome? (fun t => (Worker.start limits t).finish.escape?) = none := by
    rw [List.findSome?_eq_none_iff]
    exact fun t ht => (Task.escape?_eq_none_iff (htold t ht)).mpr (hnone t ht)
  rw [runTasks_eq hw, hfirst]

theorem runTasks_of_givesAway (hw : ∀ n ∈ workers?, 0 < n)
    (hnone : ∀ t ∈ tasks, ∀ name, ¬t.IsInterrupted limits name)
    (hgives : ∃ t ∈ tasks, t.GivesAway limits) :
    runTasks limits workers? tasks = .error (.refused .alreadyMerged) := by
  obtain ⟨t, ht, hgives⟩ := hgives
  obtain ⟨i, hi⟩ := List.getElem?_of_mem ht
  have hmem : (t, i) ∈ tasks.zipIdx := List.mk_mem_zipIdx_iff_getElem?.mpr hi
  have hconsumed : ((Worker.start limits t).finish.result t.name.label i).consumed = true := by
    rw [Worker.consumed_result, Task.consumed_iff]
    exact hgives
  have hresult : ∃ r ∈ resultsOf limits tasks, r.consumed = true :=
    ⟨_, List.mem_map_of_mem hmem, hconsumed⟩
  rw [runTasks_of_not_interrupted htold hw hnone, Recorder.mergeAll,
    Recorder.mergeEach_of_consumed hresult]
  rfl

theorem runTasks_of_kept (hw : ∀ n ∈ workers?, 0 < n)
    (hkept : ∀ t ∈ tasks, (∀ name, ¬t.IsInterrupted limits name) ∧ ¬t.GivesAway limits) :
    runTasks limits workers? tasks
      = .ok ((resultsOf limits tasks).foldl Recorder.absorb (Recorder.fresh limits)) := by
  have hlive : ∀ r ∈ resultsOf limits tasks, r.consumed = false := by
    intro r hr
    obtain ⟨e, he, rfl⟩ := List.mem_map.mp hr
    rw [Worker.consumed_result, ← Bool.not_eq_true, Task.consumed_iff]
    exact (hkept e.1 (List.fst_mem_of_mem_zipIdx he)).2
  rw [runTasks_of_not_interrupted htold hw fun t ht => (hkept t ht).1, Recorder.mergeAll,
    Recorder.mergeEach_eq_foldl_absorb hlive]
  rfl

/-- One of the tasks is interrupted first, or none is and a recorder has been given away, or
neither. -/
theorem cases_of_tasks :
    (∃ before t after name, tasks = before ++ t :: after ∧ t.IsInterrupted limits name ∧
      ∀ u ∈ before, ∀ other, ¬u.IsInterrupted limits other) ∨
    ((∀ t ∈ tasks, ∀ name, ¬t.IsInterrupted limits name) ∧ ∃ t ∈ tasks, t.GivesAway limits) ∨
    ∀ t ∈ tasks, (∀ name, ¬t.IsInterrupted limits name) ∧ ¬t.GivesAway limits := by
  cases hfirst : tasks.findSome? (fun t => (Worker.start limits t).finish.escape?) with
  | some fault =>
    obtain ⟨before, t, after, rfl, ht, hbefore⟩ := List.findSome?_eq_some_iff.mp hfirst
    obtain ⟨name, -, hname⟩ :=
      (Task.escape?_eq_some_iff (htold t List.mem_append_cons_self)).mp ht
    exact .inl ⟨before, t, after, name, rfl, hname, fun u hu =>
      (Task.escape?_eq_none_iff (htold u (List.mem_append_left _ hu))).mp (hbefore u hu)⟩
  | none =>
    have hnone : ∀ t ∈ tasks, ∀ name, ¬t.IsInterrupted limits name := fun t ht =>
      (Task.escape?_eq_none_iff (htold t ht)).mp (List.findSome?_eq_none_iff.mp hfirst t ht)
    by_cases hgives : ∃ t ∈ tasks, t.GivesAway limits
    · exact .inr (.inl ⟨hnone, hgives⟩)
    · exact .inr (.inr fun t ht => ⟨hnone t ht, fun h => hgives ⟨t, ht, h⟩⟩)

theorem errors_of_kept (hkept : ∀ t ∈ tasks, ∀ name, ¬t.IsInterrupted limits name) :
    ∃ parts : List (List SystemError × Option SystemError),
      List.Forall₂ (fun e part => e.1.Brings limits e.2 part.1 part.2) tasks.zipIdx parts ∧
      ((resultsOf limits tasks).foldl Recorder.absorb (Recorder.fresh limits)).systemErrors.toList
        = parts.flatMap fun part => part.1 ++ part.2.toList := by
  refine ⟨tasks.zipIdx.map fun e => ((Worker.start limits e.1).finish.recorder.systemErrors.toList,
    (Worker.start limits e.1).finish.failureError? e.1.name.label e.2), ?_, ?_⟩
  · rw [List.forall₂_map_right_iff, List.forall₂_same]
    exact fun e he => Worker.brings_finish (htold e.1 (List.fst_mem_of_mem_zipIdx he))
      (hkept e.1 (List.fst_mem_of_mem_zipIdx he)) e.2
  · rw [Recorder.toList_systemErrors_foldl_absorb, resultsOf, List.flatMap_map, List.flatMap_map]
    simp only [Worker.toList_systemErrors_result]
    rfl

theorem runTells_runTasks (hw : ∀ n ∈ workers?, 0 < n) :
    RunTells limits tasks (runTasks limits workers? tasks) := by
  obtain ⟨before, t, after, name, htasks, ht, hbefore⟩ | ⟨hnone, t, ht, hgives⟩ | hkept :=
    cases_of_tasks htold
  · have hmem : t ∈ tasks := htasks ▸ List.mem_append_cons_self
    have hrun := runTasks_of_interrupted htold hw htasks ht hbefore
    rw [hrun]
    exact {
      returns     := iff_of_false nofun fun hall => (hall t hmem).1 name ht
      interrupted := fun other => by
        constructor
        · rintro ⟨rfl⟩
          exact ⟨before, t, after, htasks, ht, hbefore⟩
        · rintro ⟨before', u, after', htasks', hu, hbefore'⟩
          exact hrun.symm.trans (runTasks_of_interrupted htold hw htasks' hu hbefore')
      refused     := iff_of_false nofun fun hboth => hboth.1 t hmem name ht
      errors      := nofun }
  · rw [runTasks_of_givesAway htold hw hnone ⟨t, ht, hgives⟩]
    exact {
      returns     := iff_of_false nofun fun hall => (hall t ht).2 hgives
      interrupted := fun name => iff_of_false nofun fun ⟨_, u, _, htasks, hu, _⟩ =>
        hnone u (htasks ▸ List.mem_append_cons_self) name hu
      refused     := iff_of_true rfl ⟨hnone, t, ht, hgives⟩
      errors      := nofun }
  · rw [runTasks_of_kept htold hw hkept]
    exact {
      returns     := iff_of_true ⟨_, rfl⟩ hkept
      interrupted := fun name => iff_of_false nofun fun ⟨_, u, _, htasks, hu, _⟩ =>
        (hkept u (htasks ▸ List.mem_append_cons_self)).1 name hu
      refused     := iff_of_false nofun fun ⟨_, u, hu, hgives⟩ => (hkept u hu).2 hgives
      errors      := fun r hr => by
        obtain rfl := Except.ok.inj hr
        exact errors_of_kept htold fun t ht => (hkept t ht).1 }

end RunTasks

/-! ### Every order of ending -/

namespace Pool

/-- However workers take turns, a pool of tasks comes to an end, and if every failure has a text,
every end tells the same: the first interrupt in the order of the tasks, a recorder that has been
given away, or the recorder with every failure told once. -/
theorem tells_of_reaches {limits : Limits} {workers? : Option Int} {tasks : List Task} {jobs : Pool}
    (hw : ∀ n ∈ workers?, 0 < n) (htold : ∀ t ∈ tasks, t.IsTold limits)
    (hreach : Reaches limits workers? tasks (start tasks) jobs) :
    (∃ last, Reaches limits workers? tasks jobs last ∧ last.HasEnded) ∧
      RunTells limits tasks (runTasks limits workers? tasks) ∧
      (jobs.HasEnded → RunTells limits tasks (jobs.outcome limits)) := by
  have hrun : RunTells limits tasks (runTasks limits workers? tasks) := runTells_runTasks htold hw
  refine ⟨exists_ended hw (follows_start.reaches hreach).1, hrun, fun hend => ?_⟩
  rw [outcome_eq_runTasks hw hreach hend]
  exact hrun

/-- A task that fails with blanks around its message, and two that are interrupted. -/
def watch : List Task :=
  [⟨.type (Text.ofString "Import"),
      [.raise (.failure ⟨Text.ofString "ValueError", .ok (Text.ofString " late\n")⟩)]⟩,
    ⟨.type (Text.ofString "Stop"), [.raise (.interrupt (Text.ofString "SystemExit"))]⟩,
    ⟨.type (Text.ofString "Quit"), [.raise (.interrupt (Text.ofString "KeyboardInterrupt"))]⟩]

theorem tells_watch : ∃ jobs, Reaches {} (some 3) watch (start watch) jobs ∧ jobs.HasEnded ∧
    RunTells {} watch (jobs.outcome {}) ∧
    jobs.outcome {} = .error (.interrupted (Text.ofString "SystemExit")) := by
  have hw : ∀ n ∈ (some 3 : Option Int), 0 < n := by decide
  -- The last task ends first.
  obtain ⟨jobs, hreach, hend⟩ : ∃ jobs, Reaches {} (some 3) watch (start watch) jobs ∧
      jobs.HasEnded := by
    refine ⟨_, Relation.ReflTransGen.refl
      |>.tail (.take (i := 0) rfl rfl (by decide) (by decide))
      |>.tail (.take (i := 1) rfl rfl (by decide) (by decide))
      |>.tail (.take (i := 2) rfl rfl (by decide) (by decide))
      |>.tail (.act (i := 2) rfl (by decide))
      |>.tail (.finish (i := 2) rfl rfl rfl)
      |>.tail (.act (i := 0) rfl (by decide))
      |>.tail (.act (i := 1) rfl (by decide))
      |>.tail (.finish (i := 1) rfl rfl rfl)
      |>.tail (.finish (i := 0) rfl rfl rfl), by decide⟩
  have htold : ∀ t ∈ watch, t.IsTold {} := by
    intro t ht
    refine Task.isTold_of_forall_raise fun f hf => ?_
    simp only [watch, List.mem_cons, List.not_mem_nil, or_false] at ht
    rcases ht with rfl | rfl | rfl
    · simp only [List.mem_singleton, Action.raise.injEq, Raised.failure.injEq] at hf
      exact ⟨_, congrArg Failure.text hf⟩
    · simp at hf
    · simp at hf
  obtain ⟨-, -, htells⟩ := tells_of_reaches hw htold hreach
  refine ⟨jobs, hreach, hend, htells hend, ((htells hend).interrupted _).mpr ?_⟩
  refine ⟨[_], _, [_], rfl, ⟨_, .raise rfl⟩, fun u hu other hinterrupted => ?_⟩
  obtain rfl := List.mem_singleton.mp hu
  obtain ⟨r, hends⟩ := hinterrupted
  cases hends with
  | act hact _ => cases hact
  | raise hact => cases hact

/-- A task that gives its recorder away and ends with nothing raised. -/
def loan : Task :=
  ⟨.type (Text.ofString "Loan"), [.giveAway]⟩

/-- There is no recorder although nothing has been raised. -/
theorem not_returns_loan : ¬((∃ r, runTasks {} none [loan] = .ok r) ↔
    ∀ t ∈ [loan], ∀ name, ¬t.IsInterrupted {} name) := by
  have hgives : loan.GivesAway {} := ⟨_, _, .act rfl (.done _), rfl⟩
  have hnone : ∀ t ∈ [loan], ∀ name, ¬t.IsInterrupted {} name := by
    intro t ht name hinterrupted
    obtain rfl := List.mem_singleton.mp ht
    obtain ⟨r, hends⟩ := hinterrupted
    cases hends with
    | act _ rest => cases rest
    | raise hact => cases hact
  have htold : ∀ t ∈ [loan], t.IsTold {} := by
    intro t ht
    obtain rfl := List.mem_singleton.mp ht
    refine Task.isTold_of_forall_raise fun f hf => ?_
    cases List.mem_singleton.mp hf
  have hw : ∀ n ∈ (none : Option Int), 0 < n := by decide
  rw [runTasks_of_givesAway htold hw hnone ⟨loan, List.mem_singleton_self loan, hgives⟩]
  exact fun h => nomatch h.mpr hnone

end Pool

end NoticeLedger

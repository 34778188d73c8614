import NoticeLedger.Recorder
import NoticeLedger.Text.Blank
import NoticeLedger.Text.Quoted

/-!
# Tasks

A task is a sequence of actions on a recorder of its own, up to the first that raises. A failure
becomes a system error of the task's recorder (`Failure.toSystemError`), provided that its text can
be made; an interrupt does not. Tasks are run by workers that take one action at a time
(`Worker.step`) and share nothing, so the order in which workers take turns does not matter. In the
end the recorders are merged in the order of the tasks, unless something has escaped from a worker
(`runTasks`).
-/

namespace NoticeLedger

/-! ### Failures -/

/-- A failure of a task, with the name of its type and the text that it carries. It takes work to
make the text, and this may fail: a missing key that is an integer of too many digits cannot be
shown. -/
structure Failure where
  type : Text
  /-- The text, or the name of what is raised when it is made. -/
  text : Except Text Text
  deriving Repr

/-- What ends a task early. -/
inductive Raised where
  /-- A failure, which is recorded. -/
  | failure (f : Failure)
  /-- A request to stop, which is passed on. -/
  | interrupt (name : Text)
  deriving Repr

/-- The names of the requests to stop. -/
def interruptNames : List Text :=
  ["SystemExit", "KeyboardInterrupt", "GeneratorExit", "BaseException"].map Text.ofString

/-- The names of the failures that show a message even if they have none. -/
def syntaxFailureNames : List Text :=
  ["SyntaxError", "IndentationError", "TabError"].map Text.ofString

/-- The text of a failure under a name with an optional message. A missing key is shown quoted. -/
def failureText (name : Text) : Option Text → Text
  | none         => if syntaxFailureNames.contains name then Text.ofString "None" else []
  | some message =>
    if name = Text.ofString "KeyError" then Text.ofString message.quoted else message

/-- What is raised under a name with an optional message. -/
def Raised.ofName (name : Text) (message? : Option Text) : Raised :=
  if interruptNames.contains name then .interrupt name
  else .failure ⟨name, .ok (failureText name message?)⟩

/-- The failure that a refused call is for a task. -/
def Recorder.Refusal.toFailure (refusal : Recorder.Refusal) : Failure :=
  let type := match refusal with
    | .notValidation | .notSystem => "TypeError"
    | _                           => "ValueError"
  ⟨Text.ofString type, .ok (Text.ofString refusal.message)⟩

/-- The code of the system error that a failure becomes. -/
def failureCode : Code := ⟨"runtime_exception_in_task", by decide⟩

namespace Failure

/-- A text without blanks around it, or the name of the type if nothing is left. -/
def summary (f : Failure) (text : Text) : Text :=
  if text.trim.isEmpty then f.type else text.trim

/-- The system error for a failure of the task with a label and a position, or the name of what is
raised when the text of the failure is made. -/
def toSystemError (f : Failure) (label : Text) (index : Nat) : Except Text SystemError :=
  f.text.map fun text =>
    { code := failureCode
      context := .obj
        [(Text.ofString "exception", .str f.type), (Text.ofString "message", .str (f.summary text)),
          (Text.ofString "task", .str label), (Text.ofString "taskIndex", .int index)] }

end Failure

/-- The recorder with a failure recorded, if that has a text. -/
def Recorder.addFailure (r : Recorder) (f : Failure) (label : Text) (index : Nat) : Recorder :=
  match f.toSystemError label index with
  | .ok e    => r.addSystem e
  | .error _ => r

/-! ### Tasks -/

/-- What a task does to its recorder. -/
inductive Action where
  | addValidation (notice : Notice)
  | addSystem (notice : Notice)
  /-- Merge the recorder into itself, which is refused. -/
  | mergeSelf
  /-- Merge in a recorder of one's own that has collected the given notices. -/
  | mergeChild (notices : List Notice)
  /-- Merge the recorder into another one. -/
  | giveAway
  | raise (raised : Raised)
  deriving Repr

/-- What is known of the name of a task. -/
inductive TaskName where
  /-- A function with its full and its short name, of which either may be empty. -/
  | function (qualified short : Text)
  /-- Anything else, by the name of its type. -/
  | type (name : Text)
  deriving DecidableEq, Repr

/-- The name under which failures of a task are recorded. -/
def TaskName.label : TaskName → Text
  | function qualified short =>
    if !qualified.isEmpty then qualified
    else if !short.isEmpty then short
    else Text.ofString "function"
  | type name => name

/-- A task. -/
structure Task where
  name : TaskName
  actions : List Action
  deriving Repr

/-- The recorder after an action, or what the action raises. -/
def Recorder.act (r : Recorder) : Action → Except Raised Recorder
  | .addValidation n     => (r.addAsValidation n).mapError (.failure ·.toFailure)
  | .addSystem n         => (r.addAsSystem n).mapError (.failure ·.toFailure)
  | .mergeSelf           => .error (.failure Refusal.mergeIntoItself.toFailure)
  | .mergeChild notices  => .ok (r.absorb (notices.foldl Recorder.add (Recorder.fresh {})))
  | .giveAway            =>
    if r.consumed then .error (.failure Refusal.alreadyMerged.toFailure) else .ok r.consume
  | .raise raised        => .error raised

/-! ### Workers -/

/-- Why running tasks gives no recorder. -/
inductive RunFault where
  /-- The number of workers is not positive. -/
  | noWorkers
  | interrupted (name : Text)
  /-- A failure has no text, since making it raised something. -/
  | untold (name : Text)
  | refused (refusal : Recorder.Refusal)
  deriving DecidableEq, Repr

/-- A task on its way. -/
structure Worker where
  recorder : Recorder
  pending : List Action
  raised : Option Raised := none
  deriving Repr

namespace Worker

/-- A worker at the start of a task. -/
def start (limits : Limits) (task : Task) : Worker :=
  { recorder := Recorder.fresh limits, pending := task.actions }

/-- Take the next action, if there is one. Nothing follows an action that raises. -/
def step (w : Worker) : Worker :=
  match w.pending with
  | []      => w
  | a :: as =>
    match w.recorder.act a with
    | .ok r    => { w with recorder := r, pending := as }
    | .error x => { w with pending := [], raised := some x }

/-- Take a number of actions. -/
def run : Nat → Worker → Worker
  | 0, w     => w
  | n + 1, w => run n w.step

/-- Take all the actions that are left. -/
def finish (w : Worker) : Worker :=
  w.run w.pending.length

/-- The recorder at the end of a task, a failure recorded. -/
def result (w : Worker) (label : Text) (index : Nat) : Recorder :=
  match w.raised with
  | some (.failure f) => w.recorder.addFailure f label index
  | _                 => w.recorder

/-- What escapes from the worker at the end of a task: an interrupt, or what is raised instead of
the text of a failure. -/
def escape? (w : Worker) : Option RunFault :=
  match w.raised with
  | some (.interrupt name)         => some (.interrupted name)
  | some (.failure ⟨_, .error x⟩) => some (.untold x)
  | _                              => none

end Worker

/-! ### Running tasks -/

/-- The recorders at the end of tasks, of which the first stands at position `index`. -/
def taskResults : (index : Nat) → List (Task × Worker) → List Recorder
  | _, []              => []
  | index, (t, w) :: rest => w.result t.name.label index :: taskResults (index + 1) rest

/-- Run tasks and merge their recorders in the order of the tasks. The first task, in this order,
from which something has escaped decides a failure. -/
def runTasks (limits : Limits) (workers? : Option Int) (tasks : List Task) :
    Except RunFault Recorder :=
  if workers?.any (· ≤ 0) then .error .noWorkers
  else
    let finished := tasks.map fun t => (t, (Worker.start limits t).finish)
    match finished.findSome? (·.2.escape?) with
    | some fault => .error fault
    | none       => (Recorder.mergeAll limits (taskResults 0 finished)).mapError .refused

end NoticeLedger

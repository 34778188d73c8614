import NoticeLedger.Journal
import NoticeLedger.KeyMap
import NoticeLedger.Limits
import NoticeLedger.Notice

/-!
# Recorders

A recorder collects the notices of one task. Every system error is kept. Validation notices are
kept up to the limits of the recorder: of each key only the first few, and once the limit for all
of them is reached a notice neither is kept nor counts. Notices beyond the limit of their key
still count, and an error is remembered whether its notice is kept or not.

A recorder takes over what another one has collected without looking at limits
(`Recorder.absorb`).
-/

namespace NoticeLedger

/-- What has been collected. -/
structure Recorder where
  limits : Limits := {}
  /-- The validation notices that are kept, in the order of their arrival. -/
  retained : Journal ValidationNotice := .empty
  /-- The system errors, in the order of their arrival. -/
  systemErrors : Journal SystemError := .empty
  /-- How many validation notices of each key have counted. -/
  tally : Tally := {}
  /-- How many system errors there are of each key. -/
  systemTally : Tally := {}
  /-- Whether an error has been among the validation notices. -/
  sawError : Bool := false
  /-- Whether another recorder has taken the contents over. -/
  consumed : Bool := false
  deriving Repr, Inhabited

namespace Recorder

/-- A recorder that has collected nothing. -/
def fresh (limits : Limits) : Recorder :=
  { limits }

/-- Whether no further validation notice counts. -/
def isFull (r : Recorder) : Bool :=
  r.limits.total ≤ r.retained.size

/-- Remember an error. -/
def noteError (r : Recorder) (n : ValidationNotice) : Recorder :=
  { r with sawError := r.sawError || n.isError }

/-- Count a notice, and keep it if it is among the first of its key. -/
def keep (r : Recorder) (n : ValidationNotice) : Recorder :=
  { r with
    tally := r.tally.add n.key 1
    retained :=
      if r.tally.count n.key + 1 ≤ r.limits.perKey then r.retained.push n else r.retained }

/-- Add a validation notice. -/
def addValidation (r : Recorder) (n : ValidationNotice) : Recorder :=
  if r.isFull then r.noteError n else (r.noteError n).keep n

/-- Add a system error. -/
def addSystem (r : Recorder) (e : SystemError) : Recorder :=
  { r with
    systemErrors := r.systemErrors.push e
    systemTally := r.systemTally.add e.key 1 }

/-- Add a notice to where its kind belongs. -/
def add (r : Recorder) : Notice → Recorder
  | .validation n => r.addValidation n
  | .system e     => r.addSystem e

/-- Take over what another recorder has collected, behind what is there. -/
def absorb (r other : Recorder) : Recorder :=
  { r with
    retained := r.retained.append other.retained
    systemErrors := r.systemErrors.append other.systemErrors
    tally := r.tally.merge other.tally
    systemTally := r.systemTally.merge other.systemTally
    sawError := r.sawError || other.sawError }

/-- The recorder once its contents have been taken over. -/
def consume (r : Recorder) : Recorder :=
  { r with consumed := true }

/-! ### Refusals -/

/-- Why a call on recorders is refused. -/
inductive Refusal where
  | notValidation
  | notSystem
  | mergeIntoItself
  | joinIntoItself
  | alreadyMerged
  /-- The call names a recorder or coordinator that does not exist. -/
  | unknown
  deriving DecidableEq, Repr

/-- The words for a refusal. -/
def Refusal.message : Refusal → String
  | notValidation   => "notice must be a ValidationNotice"
  | notSystem       => "error must be a SystemErrorNotice"
  | mergeIntoItself => "cannot merge a recorder into itself"
  | joinIntoItself  => "cannot join the destination recorder into itself"
  | alreadyMerged   => "recorder has already been merged"
  | unknown         => "no such recorder"

/-- Add a notice that has to be a validation notice. -/
def addAsValidation (r : Recorder) : Notice → Except Refusal Recorder
  | .validation n => .ok (r.addValidation n)
  | .system _     => .error .notValidation

/-- Add a notice that has to be a system error. -/
def addAsSystem (r : Recorder) : Notice → Except Refusal Recorder
  | .validation _ => .error .notSystem
  | .system e     => .ok (r.addSystem e)

/-- Take over the contents of another recorder, unless they have been taken over before. -/
def merge (r other : Recorder) : Except Refusal Recorder :=
  if other.consumed then .error .alreadyMerged else .ok (r.absorb other)

/-- Merge recorders one after another. -/
def mergeEach (r : Recorder) : List Recorder → Except Refusal Recorder
  | []      => .ok r
  | o :: os =>
    match r.merge o with
    | .error e => .error e
    | .ok r'   => mergeEach r' os

/-- Merge recorders one after another into a fresh one. -/
def mergeAll (limits : Limits) (rs : List Recorder) : Except Refusal Recorder :=
  (fresh limits).mergeEach rs

end Recorder

end NoticeLedger

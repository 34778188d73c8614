import NoticeLedger.Roster

/-!
# Calls in place

A call changes the recorders and coordinators of a roster field by field, where they are. A
routine does so step by step, and if it is refused, what it has changed by then stays changed
(`Routine`). That a refused call changes nothing is then a matter of the order of its steps: every
reason to refuse it is looked at before anything is changed.
-/

namespace NoticeLedger

/-- Steps that change a roster. What is changed before a refusal stays changed. -/
abbrev Routine := EStateM Recorder.Refusal Roster

namespace Routine

/-! ### Steps -/

/-- The recorder of a number. -/
def recorder (i : Nat) : Routine Recorder := fun s =>
  match s.recorders[i]? with
  | none   => .error .unknown s
  | some r => .ok r s

/-- The coordinator of a number. -/
def coordinator (c : Nat) : Routine Coordinator := fun s =>
  match s.coordinators[c]? with
  | none   => .error .unknown s
  | some k => .ok k s

/-- Change a recorder where it is. -/
def change (i : Nat) (f : Recorder → Recorder) : Routine Unit :=
  modify fun s => { s with recorders := s.recorders.modify i f }

/-- Change a coordinator where it is. -/
def changeCoordinator (c : Nat) (f : Coordinator → Coordinator) : Routine Unit :=
  modify fun s => { s with coordinators := s.coordinators.modify c f }

/-! ### Calls -/

/-- Remember an error. -/
def noteError (i : Nat) (n : ValidationNotice) : Routine Unit :=
  if n.isError then change i fun r => { r with sawError := true } else pure ()

/-- Count a notice, and keep it if it is among the first of its key. -/
def keep (i : Nat) (n : ValidationNotice) : Routine Unit := do
  let r ← recorder i
  let count := r.tally.count n.key + 1
  change i fun r => { r with tally := r.tally.alter n.key fun _ => count }
  if count ≤ r.limits.perKey then change i fun r => { r with retained := r.retained.push n }
  else pure ()

/-- Add a notice that has to be a validation notice. -/
def addValidation (i : Nat) (notice : Notice) : Routine Unit := do
  let _ ← recorder i
  match notice with
  | .system _     => throw .notValidation
  | .validation n =>
    noteError i n
    let r ← recorder i
    if r.isFull then pure () else keep i n

/-- Add a notice that has to be a system error. -/
def addSystem (i : Nat) (notice : Notice) : Routine Unit := do
  let _ ← recorder i
  match notice with
  | .validation _ => throw .notSystem
  | .system e     =>
    change i fun r => { r with systemTally := r.systemTally.add e.key 1 }
    change i fun r => { r with systemErrors := r.systemErrors.push e }

/-- Raise the numbers of one of the tallies of a recorder, key by key. `onTally` changes that
tally. -/
def addCounts (i : Nat) (onTally : (Tally → Tally) → Recorder → Recorder) (source : Tally) :
    Routine Unit :=
  source.entries.forM fun e => change i (onTally fun t => t.add e.1 e.2)

/-- Take over what another recorder has collected, behind what is there. -/
def absorb (i : Nat) (other : Recorder) : Routine Unit := do
  change i fun r => { r with retained := r.retained.append other.retained }
  change i fun r => { r with systemErrors := r.systemErrors.append other.systemErrors }
  addCounts i (fun f r => { r with tally := f r.tally }) other.tally
  addCounts i (fun f r => { r with systemTally := f r.systemTally }) other.systemTally
  change i fun r => { r with sawError := r.sawError || other.sawError }

/-- Merge a recorder into another one. -/
def merge (target source : Nat) : Routine Unit :=
  if source = target then throw .mergeIntoItself
  else do
    let _ ← recorder target
    let other ← recorder source
    if other.consumed then throw .alreadyMerged
    else
      absorb target other
      change source fun r => { r with consumed := true }

/-- Join a recorder into the destination of a coordinator. -/
def join (c source : Nat) : Routine Unit := do
  let k ← coordinator c
  if source = k.destination then throw .joinIntoItself
  else
    merge k.destination source
    changeCoordinator c fun k => { k with joined := k.joined + 1 }

/-- The steps of a call. -/
def execute : Call → Routine Unit
  | .addValidation i n => addValidation i n
  | .addSystem i n     => addSystem i n
  | .merge i j         => merge i j
  | .join c j          => join c j

end Routine

end NoticeLedger

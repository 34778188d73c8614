import NoticeLedger.Recorder

/-!
# Rosters

A roster holds recorders and coordinators, told by their numbers. A coordinator joins recorders
into a destination of its own, which is a recorder of the roster, and counts them. A call that is
refused changes nothing (`Roster.perform`).
-/

namespace NoticeLedger

/-- Joins recorders into one. -/
structure Coordinator where
  /-- The number of the recorder that takes the contents. -/
  destination : Nat
  /-- How many recorders have been joined. -/
  joined : Nat := 0
  deriving DecidableEq, Repr

/-- Recorders and coordinators. -/
structure Roster where
  recorders : List Recorder := []
  coordinators : List Coordinator := []
  deriving Repr, Inhabited

/-- A call on a roster. -/
inductive Call where
  | addValidation (target : Nat) (notice : Notice)
  | addSystem (target : Nat) (notice : Notice)
  | merge (target source : Nat)
  | join (coordinator source : Nat)
  deriving Repr

namespace Roster

open Recorder (Refusal)

/-- The roster with one recorder exchanged. -/
def put (s : Roster) (i : Nat) (r : Recorder) : Roster :=
  { s with recorders := s.recorders.set i r }

/-- Add a fresh recorder, which takes the next number. -/
def openRecorder (s : Roster) (limits : Limits) : Roster :=
  { s with recorders := s.recorders ++ [Recorder.fresh limits] }

/-- Add a coordinator with a fresh destination. Both take their next number. -/
def openCoordinator (s : Roster) (limits : Limits) : Roster :=
  { s.openRecorder limits with
    coordinators := s.coordinators ++ [⟨s.recorders.length, 0⟩] }

/-- Merge a recorder into another one. -/
def merge (s : Roster) (target source : Nat) : Except Refusal Roster :=
  if source = target then .error .mergeIntoItself
  else
    match s.recorders[target]?, s.recorders[source]? with
    | some r, some other =>
      (r.merge other).map fun r' => (s.put target r').put source other.consume
    | _, _ => .error .unknown

/-- Join a recorder into the destination of a coordinator. -/
def join (s : Roster) (coordinator source : Nat) : Except Refusal Roster :=
  match s.coordinators[coordinator]? with
  | none   => .error .unknown
  | some c =>
    if source = c.destination then .error .joinIntoItself
    else
      (s.merge c.destination source).map fun s' =>
        { s' with
          coordinators := s'.coordinators.set coordinator { c with joined := c.joined + 1 } }

/-- Change a recorder by an operation that may be refused. -/
def modify (s : Roster) (i : Nat) (f : Recorder → Except Refusal Recorder) :
    Except Refusal Roster :=
  match s.recorders[i]? with
  | none   => .error .unknown
  | some r => (f r).map (s.put i)

/-- The roster after a call, or why the call is refused. -/
def call (s : Roster) : Call → Except Refusal Roster
  | .addValidation i n => s.modify i (·.addAsValidation n)
  | .addSystem i n     => s.modify i (·.addAsSystem n)
  | .merge i j         => s.merge i j
  | .join c j          => s.join c j

/-- The roster after a call, which is the same roster if the call is refused. -/
def perform (s : Roster) (c : Call) : Roster :=
  match s.call c with
  | .ok s'   => s'
  | .error _ => s

/-- The roster after calls. -/
def performAll (s : Roster) (cs : List Call) : Roster :=
  cs.foldl perform s

/-- Join recorders one after another. What was joined before a refusal stays joined. -/
def joinEach (s : Roster) (coordinator : Nat) : List Nat → Roster × Except Refusal Unit
  | []      => (s, .ok ())
  | j :: js =>
    match s.join coordinator j with
    | .error e => (s, .error e)
    | .ok s'   => joinEach s' coordinator js

/-- Join recorders one after another into the destination of a new coordinator. -/
def gather (s : Roster) (limits : Limits) (js : List Nat) : Roster × Except Refusal Nat :=
  let (s', result) := (s.openCoordinator limits).joinEach s.coordinators.length js
  (s', result.map fun _ => s.recorders.length)

end Roster

end NoticeLedger

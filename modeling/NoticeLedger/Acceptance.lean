import NoticeLedger.Diff
import NoticeLedger.Value.Shown

/-!
# Acceptance

A change is accepted if the percentage of datasets that gain error codes is at most a threshold.
The percentage is computed in doubles: the quotient of two counts, times one hundred.
-/

namespace NoticeLedger

/-- Datasets by their ids, each with a difference. -/
abbrev Datasets := List (String × Diff)

/-- Set the difference of a dataset; an id that is present keeps its place. -/
def Datasets.insert (id : String) (d : Diff) : Datasets → Datasets
  | []      => [(id, d)]
  | e :: es => if e.1 = id then (id, d) :: es else e :: Datasets.insert id d es

/-- The verdict on datasets. -/
structure Acceptance where
  datasetCount : Nat
  /-- The ids of the datasets with new errors, in order. -/
  flagged : List String
  percent : Float
  threshold : Float
  /-- In how many datasets each new code occurs, in the order of the codes. -/
  codeCounts : List (String × Nat)
  deriving Repr

namespace Acceptance

/-- A code without the NUL characters at its end. -/
def dropNuls (code : String) : String :=
  String.ofList (code.toList.reverse.dropWhile (· == '\x00')).reverse

/-- Each string of a list with the number of its occurrences, in order. -/
def countEach (ss : List String) : List (String × Nat) :=
  (sortStrings (distinct ss)).map fun s => (s, ss.count s)

/-- The percentage that a count is of another one, zero of nothing. -/
def percentOf (part whole : Nat) : Float :=
  if whole = 0 then 0 else Float.ofNat part / Float.ofNat whole * 100

/-- Whether a threshold is a percentage. -/
def isThreshold (t : Float) : Bool :=
  t.isFinite && (0 : Float) ≤ t && t ≤ (100 : Float)

/-- Why a value is no threshold. -/
inductive ThresholdFault where
  | notNumber (kind : String)
  /-- An integer is beyond the largest double. -/
  | tooLarge
  | notPercentage
  deriving DecidableEq, Repr

/-- The words for a fault. -/
def ThresholdFault.message : ThresholdFault → String
  | notNumber kind => "must be real number, not " ++ kind
  | tooLarge       => "int too large to convert to float"
  | notPercentage  => "threshold_percent must be within [0, 100]"

/-- The double that a value is. A truth value counts as zero or one. -/
def doubleOf : Value → Except ThresholdFault Float
  | .float x => .ok x
  | .bool b  => .ok (if b then 1 else 0)
  | .int n   =>
    let x := (Decimal.mk n.natAbs 0).toFloat
    if x.isFinite then .ok (if n < 0 then -x else x) else .error .tooLarge
  | v        => .error (.notNumber v.kindName)

/-- The verdict on datasets, if the threshold is a percentage. -/
def ofDiffs? (ds : Datasets) (threshold : Float) : Option Acceptance :=
  if isThreshold threshold then
    let flagged := ds.filter (·.2.hasNewErrors)
    some
      { datasetCount := ds.length
        flagged := sortStrings (flagged.map (·.1))
        percent := percentOf flagged.length ds.length
        threshold
        codeCounts := countEach ((ds.flatMap (·.2.newErrors)).map dropNuls) }
  else none

/-- The verdict on datasets where a value is given as the threshold. -/
def ofValue (ds : Datasets) (threshold : Value) : Except ThresholdFault Acceptance := do
  match ofDiffs? ds (← doubleOf threshold) with
  | none   => throw .notPercentage
  | some a => return a

/-- Whether the change is accepted. -/
def passed (a : Acceptance) : Bool :=
  a.percent ≤ a.threshold

/-- The verdict as a document. -/
def toJson (a : Acceptance) : Json :=
  .obj
    [(Text.ofString "datasetCount", .int a.datasetCount),
      (Text.ofString "datasetsWithNewErrors", Diff.stringsJson a.flagged),
      (Text.ofString "newErrorPercent", .float a.percent),
      (Text.ofString "thresholdPercent", .float a.threshold),
      (Text.ofString "newErrorDatasetCounts",
        .obj (a.codeCounts.map fun e => (Text.ofString e.1, .int e.2))),
      (Text.ofString "passed", .bool a.passed)]

end Acceptance

end NoticeLedger

import NoticeLedger.Json
import NoticeLedger.Report

/-!
# Differences between reports

Two reports are compared by their error codes: a code of the candidate that the baseline does not
have is new, a code of the baseline that the candidate does not have is resolved.
-/

namespace NoticeLedger

/-- How the error codes of a candidate differ from those of a baseline. -/
structure Diff where
  newErrors : List String
  resolvedErrors : List String
  deriving DecidableEq, Repr

namespace Diff

/-- Whether the candidate has new error codes. -/
def hasNewErrors (d : Diff) : Bool :=
  !d.newErrors.isEmpty

/-- The codes in `xs` that are not in `ys`, in order. -/
def missingFrom (ys xs : List Code) : List String :=
  sortStrings ((xs.filter fun c => !ys.contains c).map (·.text))

/-- How a candidate differs from a baseline. -/
def between (baseline candidate : Report) : Diff where
  newErrors := missingFrom baseline.errorCodes candidate.errorCodes
  resolvedErrors := missingFrom candidate.errorCodes baseline.errorCodes

/-- Strings as a JSON array. -/
def stringsJson (ss : List String) : Json :=
  .arr (ss.map fun s => .str (Text.ofString s))

/-- The difference as a document. -/
def toJson (d : Diff) : Json :=
  .obj
    [(Text.ofString "newErrors", stringsJson d.newErrors),
      (Text.ofString "resolvedErrors", stringsJson d.resolvedErrors)]

end Diff

end NoticeLedger

import NoticeLedger.Key

/-!
# Reports

A report has one summary for each group of notices: the code and severity of the group, how many
notices it had, and the contexts of some of them. The error codes of a report are the codes of its
error summaries, in order of their first occurrence.
-/

namespace NoticeLedger

/-- What a report tells of one group of notices. -/
structure Summary where
  code : Code
  severity : Severity
  total : Nat
  contexts : List Value
  deriving Repr

/-- Whether the group has the severity of an error. -/
def Summary.isError (s : Summary) : Bool :=
  s.severity == .error

/-- A report as it has been read. -/
structure Report where
  summaries : List Summary
  deriving Repr

namespace Report

/-- The codes of the error summaries, in order of their first occurrence. -/
def errorCodes (r : Report) : List Code :=
  distinct ((r.summaries.filter (·.isError)).map (·.code))

/-- Whether a string is one of the error codes. -/
def hasErrorCode (r : Report) (code : String) : Bool :=
  r.errorCodes.any (·.text == code)

end Report

end NoticeLedger

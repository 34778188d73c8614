import NoticeLedger.Json.Reader
import NoticeLedger.Notice.Fields
import NoticeLedger.Report

/-!
# Reading reports

A document is a report if it is a mapping with a list of summaries under `notices`. Each summary has
a code, a severity, a total that is a natural number, and possibly contexts; two members have a
second spelling, and other members do not matter. Of a summary every fault is reported, of a
document the first summary with faults (`Report.ofDocument`).
-/

namespace NoticeLedger

/-! ### Faults -/

/-- What is wrong with a member of a summary. -/
inductive SummaryFault where
  | missing
  | code (fault : CodeFault)
  | severity (fault : SeverityFault)
  | totalNotInteger
  | totalNegative
  | contextsNotList
  | notMap
  deriving DecidableEq, Repr

/-- The words for a fault. -/
def SummaryFault.message : SummaryFault → String
  | missing         => "Field required"
  | code fault      => fault.message
  | severity fault  => fault.message
  | totalNotInteger => "Input should be a valid integer"
  | totalNegative   => "Input should be greater than or equal to 0"
  | contextsNotList => "Input should be a valid tuple"
  | notMap          => "Input should be a valid dictionary or instance of NoticeSummary"

/-- A fault and the member in which it lies. -/
structure SummaryError where
  member : String
  fault : SummaryFault
  deriving DecidableEq, Repr

/-- The words for an error. -/
def SummaryError.message (e : SummaryError) : String :=
  e.member ++ ": " ++ e.fault.message

/-- Why a document is no report. -/
inductive ReportFault where
  | notMap
  | noticesMissing
  | noticesNotList
  | summaryInvalid (index : Nat) (errors : List SummaryError)
  /-- The text is no JSON document. -/
  | notJson (fault : Json.Fault) (place : Json.Place)
  /-- The file cannot be read. -/
  | unreadable
  deriving DecidableEq, Repr

namespace ReportFault

/-- The code of a fault. -/
def code : ReportFault → String
  | notMap             => "E_REPORT_NOT_OBJECT"
  | noticesMissing     => "E_REPORT_NOTICES_MISSING"
  | noticesNotList     => "E_REPORT_NOTICES_NOT_ARRAY"
  | summaryInvalid _ _ => "E_REPORT_SUMMARY_INVALID"
  | notJson _ _        => "E_REPORT_JSON_INVALID"
  | unreadable         => "E_REPORT_READ_FAILED"

/-- The words for a fault, except for a file that cannot be read. -/
def message? : ReportFault → Option String
  | notMap                      => some "report document must be a JSON object"
  | noticesMissing              => some "report document has no 'notices' member"
  | noticesNotList              => some "report member 'notices' must be an array"
  | summaryInvalid index errors =>
    some (s!"notices[{index}] is not a valid notice summary: " ++
      String.intercalate "; " (errors.map SummaryError.message))
  | notJson fault place         =>
    some ("report is not valid JSON: " ++ Json.describeFault fault place)
  | unreadable                  => none

end ReportFault

/-- Why a text gives no report. -/
inductive ReportError where
  | malformed (fault : ReportFault)
  /-- An integer in the text has more digits than are converted. -/
  | integerTooLong
  /-- No file can have a name in the path. -/
  | unnameable
  deriving DecidableEq, Repr

/-! ### Summaries -/

namespace Summary

/-- A member under the first of its spellings that is there, with that spelling. -/
def spelled? (spellings : List String) (members : List (Value × Value)) :
    Option (String × Value) :=
  spellings.findSome? fun s => (Fields.value? s members).map (s, ·)

/-- The code, which has to be there. -/
def readCode (members : List (Value × Value)) : Except SummaryError Code :=
  match Fields.value? "code" members with
  | none   => .error ⟨"code", .missing⟩
  | some v => (Code.ofTextValue v).mapError fun fault => ⟨"code", .code fault⟩

/-- The severity, which has to be there. -/
def readSeverity (members : List (Value × Value)) : Except SummaryError Severity :=
  match Fields.value? "severity" members with
  | none   => .error ⟨"severity", .missing⟩
  | some v => (Severity.ofValue v).mapError fun fault => ⟨"severity", .severity fault⟩

/-- The total, which has to be there. -/
def readTotal (members : List (Value × Value)) : Except SummaryError Nat :=
  match spelled? ["totalNotices", "total_notices"] members with
  | none             => .error ⟨"totalNotices", .missing⟩
  | some (s, .int n) => if n < 0 then .error ⟨s, .totalNegative⟩ else .ok n.toNat
  | some (s, _)      => .error ⟨s, .totalNotInteger⟩

/-- The contexts, none if they are not there. -/
def readContexts (members : List (Value × Value)) : Except SummaryError (List Value) :=
  match spelled? ["notices", "contexts"] members with
  | none                   => .ok []
  | some (_, .list items)  => .ok items
  | some (_, .tuple items) => .ok items
  | some (_, .set items)   => .ok items
  | some (s, _)            => .error ⟨s, .contextsNotList⟩

/-- The error of a member that has been read, if there is one. -/
def errorOf {α : Type} : Except SummaryError α → List SummaryError
  | .ok _    => []
  | .error e => [e]

/-- The summary that a value describes. The kind of a mapping does not matter here, so a map stands
for all of them. -/
def ofValue : Value → Except (List SummaryError) Summary
  | .map members =>
    match readCode members, readSeverity members, readTotal members, readContexts members with
    | .ok code, .ok severity, .ok total, .ok contexts => .ok ⟨code, severity, total, contexts⟩
    | code, severity, total, contexts                 =>
      .error (errorOf code ++ errorOf severity ++ errorOf total ++ errorOf contexts)
  | _            => .error [⟨"<root>", .notMap⟩]

end Summary

/-! ### Reports -/

/-- A document as it is handed in. -/
inductive Document where
  | value (v : Value)
  /-- A mapping that is no map, such as a read-only view of one or a chain of several. -/
  | mapping (entries : List (Value × Value))
  deriving Repr

namespace Report

/-- The summaries that values describe, of which the first has a given position. -/
def readSummaries (index : Nat) : List Value → Except ReportFault (List Summary)
  | []      => .ok []
  | v :: vs =>
    match Summary.ofValue v with
    | .error errors => .error (.summaryInvalid index errors)
    | .ok s         => (readSummaries (index + 1) vs).map (s :: ·)

/-- The report that a value describes. -/
def ofValue : Value → Except ReportFault Report
  | .map members =>
    match Fields.value? "notices" members with
    | none               => .error .noticesMissing
    | some (.list items) => (readSummaries 0 items).map Report.mk
    | some _             => .error .noticesNotList
  | _            => .error .notMap

/-- The report that a document describes. A mapping is read like the map with its entries. -/
def ofDocument : Document → Except ReportFault Report
  | .value v         => ofValue v
  | .mapping entries => ofValue (.map entries)

/-- The report in a text. -/
def ofText (t : Text) : Except ReportError Report :=
  match Json.read t with
  | .error (.malformed fault place) => .error (.malformed (.notJson fault place))
  | .error .integerTooLong          => .error .integerTooLong
  | .ok j                           => (ofValue (Value.ofJson j)).mapError .malformed

end Report

end NoticeLedger

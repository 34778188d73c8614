import NoticeLedger.Acceptance
import NoticeLedger.Command
import NoticeLedger.Decimal.Layout
import NoticeLedger.Json.Writer
import NoticeLedger.Report.File
import NoticeLedger.Text.ControlSequence

/-!
# Answers to commands

What a command prints and how it ends. A command passes or fails by the reports that it reads. A
report that cannot be read ends it before it prints anything but messages (`Answer.ofUnread`), and
so does a path that is too long to ask what it leads to.
-/

namespace NoticeLedger

/-- How a command ends. -/
inductive Ending where
  | passed
  /-- There are more new errors than are allowed. -/
  | failed
  /-- A report cannot be read, or there are none. -/
  | malformed
  /-- The command line does not tell what to do. -/
  | misuse
  /-- An integer in a report has more digits than are converted. -/
  | integerTooLong
  /-- No report can have a name in the path. -/
  | unnameable
  /-- The path to a counterpart is too long to ask what it leads to. -/
  | pathTooLong
  deriving DecidableEq, Repr

/-- The exit code of an ending. -/
def Ending.exitCode : Ending → Nat
  | passed         => 0
  | failed         => 1
  | malformed      => 2
  | misuse         => 2
  | integerTooLong => 1
  | unnameable     => 1
  | pathTooLong    => 1

/-- What a command prints, each in lines, and how it ends. -/
structure Answer where
  output : List String
  messages : List String
  ending : Ending
  deriving DecidableEq, Repr

namespace Answer

/-- What is printed for lines: they hold no control sequences, and each ends with a line feed. -/
def printed (lines : List String) : String :=
  String.join (lines.map fun line =>
    String.ofList (dropControlSequences line.toList) ++ "\n")

/-- The text of the output. -/
def outputText (a : Answer) : String :=
  printed a.output

/-- The text of the messages. -/
def messageText (a : Answer) : String :=
  printed a.messages

/-- The line for a report that cannot be read. -/
def malformedLine (p : Path) (fault : ReportFault) : String :=
  "malformed report " ++ p.text ++ ": " ++ fault.code ++
    ((fault.message?.map (": " ++ ·)).getD "")

/-- The answer where a report cannot be read, behind earlier messages. -/
def ofUnread (messages : List String) (p : Path) : ReportError → Answer
  | .malformed fault => ⟨[], messages ++ [malformedLine p fault], .malformed⟩
  | .integerTooLong  => ⟨[], messages, .integerTooLong⟩
  | .unnameable      => ⟨[], messages, .unnameable⟩

/-- The answer where the command line does not tell what to do. -/
def misuse (messages : List String) : Answer :=
  ⟨[], messages, .misuse⟩

/-- The line of a document. -/
def documentLine (j : Json) : String :=
  ((j.canonicalText .ascii).toString?).getD ""

/-! ### Comparison -/

/-- The lines for a difference. -/
def diffLines (d : Diff) : List String :=
  d.newErrors.map ("NEW_ERROR code=" ++ ·) ++ d.resolvedErrors.map ("RESOLVED_ERROR code=" ++ ·) ++
    [s!"SUMMARY new_errors={d.newErrors.length} resolved_errors={d.resolvedErrors.length}"]

/-- The difference of two reports in files; the baseline is read first. -/
def diffOf (files : FileTree) (baseline candidate : Path) : Except (Path × ReportError) Diff :=
  match Report.load files baseline with
  | .error e => .error (baseline, e)
  | .ok b    =>
    match Report.load files candidate with
    | .error e => .error (candidate, e)
    | .ok c    => .ok (Diff.between b c)

/-- Compare two reports. -/
def compare (files : FileTree) (baseline candidate : Path) (format : Format) : Answer :=
  match diffOf files baseline candidate with
  | .error (p, e) => ofUnread [] p e
  | .ok d         =>
    { output :=
        match format with
        | .text => diffLines d
        | .json => [documentLine d.toJson]
      messages := []
      ending := if d.hasNewErrors then .failed else .passed }

/-! ### Acceptance -/

/-- Whether a name is that of a report. -/
def isReportName (name : String) : Bool :=
  ".json".toList.isSuffixOf name.toList

/-- The names of the reports in a directory, in order. -/
def reportNames (files : FileTree) (directory : Path) : List String :=
  sortStrings ((files.namesIn directory).filter isReportName)

/-- The line for a report without a counterpart. -/
def skipLine (name : String) : String :=
  "SKIP dataset=" ++ stemOf name ++ " reason=missing_candidate"

/-- What ends a comparison of directories early. -/
inductive Stop where
  /-- A report cannot be read. -/
  | unread (p : Path) (e : ReportError)
  /-- A path is too long to ask what it leads to. -/
  | pathTooLong
  deriving DecidableEq, Repr

/-- The answer to a comparison that ends early, behind earlier messages. -/
def ofStop (messages : List String) : Stop → Answer
  | .unread p e  => ofUnread messages p e
  | .pathTooLong => ⟨[], messages, .pathTooLong⟩

/-- Compare the reports of the given names in two directories, in order. Those that are no file in
the second one are passed over with a message. A report that cannot be read ends the comparison, and
so does a path in the second directory that is too long. -/
def compareShared (files : FileTree) (baseline candidate : Path) :
    List String → List String × Except Stop (List (String × Diff))
  | []            => ([], .ok [])
  | name :: names =>
    match files.isFile (candidate.child name) with
    | .error _  => ([], .error .pathTooLong)
    | .ok false =>
      let (messages, rest) := compareShared files baseline candidate names
      (skipLine name :: messages, rest)
    | .ok true  =>
      match diffOf files (baseline.child name) (candidate.child name) with
      | .error (p, e) => ([], .error (.unread p e))
      | .ok d         =>
        let (messages, rest) := compareShared files baseline candidate names
        (messages, rest.map ((stemOf name, d) :: ·))

/-- The datasets that differences belong to; the last of several for one dataset counts. -/
def datasetsOf (diffs : List (String × Diff)) : Datasets :=
  diffs.foldl (fun ds e => Datasets.insert e.1 e.2 ds) []

/-- The line for a dataset with new errors. -/
def datasetLine (ds : Datasets) (id : String) : String :=
  "DATASET id=" ++ id ++ " new_errors=" ++
    String.intercalate "," ((ds.lookup id).map (·.newErrors) |>.getD [])

/-- The lines for a verdict. -/
def verdictLines (ds : Datasets) (a : Acceptance) : List String :=
  a.flagged.map (datasetLine ds) ++
    a.codeCounts.map (fun e => s!"NEW_ERROR code={e.1} datasets={e.2}") ++
    [s!"ACCEPTANCE datasets={a.datasetCount} with_new_errors={a.flagged.length}" ++
      " percent=" ++ sixDigitText a.percent ++ " threshold=" ++ sixDigitText a.threshold ++
      " status=" ++ (if a.passed then "pass" else "fail")]

/-- The answer on datasets that have been compared. -/
def ofDatasets (messages : List String) (ds : Datasets) (threshold : Float) (format : Format) :
    Answer :=
  match Acceptance.ofDiffs? ds threshold with
  | none   => misuse messages
  | some a =>
    { output :=
        match format with
        | .text => verdictLines ds a
        | .json => [documentLine a.toJson]
      messages
      ending := if a.passed then .passed else .failed }

/-- The line where two directories share no reports. -/
def nothingSharedLine (baseline candidate : Path) : String :=
  "no dataset reports compared between " ++ baseline.text ++ " and " ++ candidate.text

/-- Decide on the reports that two directories share. -/
def acceptance (files : FileTree) (baseline candidate : Path) (threshold : Float)
    (format : Format) : Answer :=
  if files.isDirectory baseline && files.isDirectory candidate then
    match compareShared files baseline candidate (reportNames files baseline) with
    | (messages, .error stop) => ofStop messages stop
    | (messages, .ok [])      =>
      ⟨[], messages ++ [nothingSharedLine baseline candidate], .malformed⟩
    | (messages, .ok diffs)   => ofDatasets messages (datasetsOf diffs) threshold format
  else misuse []

/-! ### Summary -/

/-- The line for one group of a report. -/
def noticeLine (s : Summary) : String :=
  "NOTICE code=" ++ s.code.text ++ " severity=" ++ s.severity.name ++
    s!" total={s.total} samples={s.contexts.length}"

/-- The line for the error codes of a report. -/
def errorCodesLine (r : Report) : String :=
  "ERROR_CODES " ++ String.intercalate "," (r.errorCodes.map (·.text))

/-- Summarize a report. -/
def summary (files : FileTree) (p : Path) : Answer :=
  match Report.load files p with
  | .error e => ofUnread [] p e
  | .ok r    => ⟨r.summaries.map noticeLine ++ [errorCodesLine r], [], .passed⟩

end Answer

/-- The answer to a command. -/
def Command.answer (files : FileTree) : Command → Answer
  | compare baseline candidate format              => Answer.compare files baseline candidate format
  | acceptance baseline candidate threshold format =>
    Answer.acceptance files baseline candidate threshold format
  | summary report                                 => Answer.summary files report

/-- The answer to a command line. -/
def answerArguments (files : FileTree) (arguments : List String) : Answer :=
  match Command.ofArguments? arguments with
  | none   => Answer.misuse []
  | some c => c.answer files

end NoticeLedger

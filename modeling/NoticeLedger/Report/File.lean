import NoticeLedger.Files.Tree
import NoticeLedger.Report.Reading
import NoticeLedger.Text.Decoded
import NoticeLedger.Value.Document

/-!
# Reports in files

A report is read from a file as UTF-8. It is written in three steps: the directories around the file
are made, the text is composed, and the file is written; a failure leaves what the steps before it
have done (`writeReport`).
-/

namespace NoticeLedger

/-- The report in a file. -/
def Report.load (files : FileTree) (p : Path) : Except ReportError Report :=
  match files.read p with
  | .error .unnameable => .error .unnameable
  | .error _           => .error (.malformed .unreadable)
  | .ok bs             =>
    match fileText? bs with
    | none   => .error (.malformed .unreadable)
    | some s => Report.ofText (Text.ofString s)

/-- Why a document is not written. -/
inductive WriteFault where
  | file (fault : FileFault)
  | unwritable (fault : Unwritable)
  /-- The text of the document holds a surrogate. -/
  | notEncodable
  deriving DecidableEq, Repr

/-- Write a text to a file; one that has no UTF-8 form leaves the file empty. -/
def FileTree.writeText (files : FileTree) (p : Path) (t : Text) : FileTree × Except WriteFault Unit :=
  match files.write p (t.encode?.getD []) with
  | .error fault => (files, .error (.file fault))
  | .ok files    => (files, if t.encode?.isSome then .ok () else .error .notEncodable)

/-- Write the canonical text of a document to a file. -/
def writeReport (files : FileTree) (p : Path) (document : Value) :
    FileTree × Except WriteFault Unit :=
  match files.makeDirectories p.parent with
  | (files, .error fault) => (files, .error (.file fault))
  | (files, .ok ())       =>
    match document.canonicalText? with
    | .error fault => (files, .error (.unwritable fault))
    | .ok t        => files.writeText p t

end NoticeLedger

import NoticeLedger.Text.Split
import NoticeLedger.Text.Utf8

/-!
# Texts of files

The text of a file is its bytes as UTF-8, where every line end counts as a line feed.
-/

namespace NoticeLedger

/-- The text that the bytes of a file hold. -/
def fileText? (bs : List UInt8) : Option String :=
  (decodeUtf8? bs).map fun s => String.ofList (unifyLineEnds s.toList)

end NoticeLedger

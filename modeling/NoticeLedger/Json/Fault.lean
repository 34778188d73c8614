import NoticeLedger.Outcome
import NoticeLedger.Text

/-!
# Faults in JSON documents

What can be wrong with a document, and where. A reader knows what is left of its input; the place
of a fault is counted back from there (`Place.ofRest`).
-/

namespace NoticeLedger.Json

/-- What is wrong at a place of a document. -/
inductive Fault where
  | valueExpected
  | nameExpected
  | colonExpected
  | commaExpected
  | stringUnterminated
  | controlCharacter
  | escapeInvalid
  | unicodeEscapeInvalid
  | extraData
  | byteOrderMark
  deriving DecidableEq, Repr

/-- The words for a fault. -/
def Fault.message : Fault → String
  | valueExpected        => "Expecting value"
  | nameExpected         => "Expecting property name enclosed in double quotes"
  | colonExpected        => "Expecting ':' delimiter"
  | commaExpected        => "Expecting ',' delimiter"
  | stringUnterminated   => "Unterminated string starting at"
  | controlCharacter     => "Invalid control character at"
  | escapeInvalid        => "Invalid \\escape"
  | unicodeEscapeInvalid => "Invalid \\uXXXX escape"
  | extraData            => "Extra data"
  | byteOrderMark        => "Unexpected UTF-8 BOM (decode using utf-8-sig)"

/-- A place in a text. Lines and columns count from one, the offset counts code points from
zero. -/
structure Place where
  line : Nat
  column : Nat
  offset : Nat
  deriving DecidableEq, Repr

namespace Place

/-- The place one symbol further on; only a line feed ends a line. -/
def step (p : Place) (s : Symbol) : Place :=
  if s = .char '\n' then ⟨p.line + 1, 1, p.offset + 1⟩ else ⟨p.line, p.column + 1, p.offset + 1⟩

/-- The place in `document` where its last `remaining` symbols begin. -/
def ofRest (document : Text) (remaining : Nat) : Place :=
  (document.take (document.length - remaining)).foldl step ⟨1, 1, 0⟩

end Place

/-- Why a reader stops: a fault, told by the number of symbols left where it lies, or an integer
with more digits than are converted. -/
inductive Stop where
  | fault (fault : Fault) (remaining : Nat)
  | integerTooLong
  deriving DecidableEq, Repr

/-- Why a document cannot be read. -/
inductive ReadError where
  | malformed (fault : Fault) (place : Place)
  | integerTooLong
  deriving DecidableEq, Repr

/-- The words for a fault at a place. -/
def describeFault (fault : Fault) (p : Place) : String :=
  s!"{fault.message}: line {p.line} column {p.column} (char {p.offset})"

/-- The error of a reader that stops in a document. -/
def Stop.within (document : Text) : Stop → ReadError
  | fault f remaining => .malformed f (Place.ofRest document remaining)
  | integerTooLong    => .integerTooLong

end NoticeLedger.Json

import NoticeLedger.Value
import NoticeLedger.Yaml.Base64
import NoticeLedger.Yaml.Tag
import NoticeLedger.Yaml.Timestamp

/-!
# Scalars

The kind of a plain scalar shows in its characters (`plainTag`), and its value follows from kind and
characters (`scalarValue`). A scalar that is tagged with a kind need not look like one of that kind.
-/

namespace NoticeLedger.Yaml

/-! ### Kinds of plain scalars -/

/-- The words for truth values. -/
def boolWords : List (String × Bool) :=
  [("yes", true), ("no", false), ("true", true), ("false", false), ("on", true), ("off", false)]

/-- Whether a scalar is a word for a truth value in small letters, in capitals, or with a capital in
front. -/
def isBoolWord (cs : List Char) : Bool :=
  let lower := cs.map Char.toLower
  let capitalized := (lower.take 1).map Char.toUpper ++ lower.drop 1
  (boolWords.lookup (String.ofList lower)).isSome &&
    (cs == lower || cs == capitalized || cs == lower.map Char.toUpper)

/-- The kind that the characters of a plain scalar tell. -/
def tagOfChars (cs : List Char) : Tag :=
  if isBoolWord cs then .bool
  else if isFloat cs then .float
  else if isInteger cs then .int
  else if String.ofList cs ∈ ["", "~", "null", "Null", "NULL"] then .null
  else if isTimestamp cs then .timestamp
  else if cs = ['<', '<'] then .merge
  else if cs = ['='] then .value
  else if cs = ['!'] ∨ cs = ['&'] ∨ cs = ['*'] then .unknown
  else .str

/-- A list without a line feed at its end, unless nothing would be left. -/
def dropFinalBreak (cs : List Char) : List Char :=
  if cs.getLast? = some '\n' ∧ cs.length ≠ 1 then cs.dropLast else cs

/-- The kind of a plain scalar, where a line feed at the end does not count. -/
def plainTag (t : Text) : Tag :=
  match t.mapM Symbol.char? with
  | none    => .str
  | some cs => tagOfChars (dropFinalBreak cs)

/-! ### Values -/

/-- The truth value of a scalar that is tagged as one. -/
def readBool (cs : List Char) : Except Fault Bool :=
  match boolWords.lookup (String.ofList (cs.map Char.toLower)) with
  | some b => .ok b
  | none   => .error .notBool

/-- The point in time of a scalar that is tagged as one. -/
def readTimestamp (cs : List Char) : Except Fault Timestamp :=
  match Timestamp.read? (dropFinalBreak cs) with
  | none   => .error .notTimestamp
  | some t => if t.isReal then .ok t else .error .impossibleDate

/-- The value of a scalar of a kind. Points in time are known by their texts only. -/
def scalarValue (tag : Tag) (t : Text) : Except Fault Value :=
  let cs := t.map fun s => s.char?.getD '\uFFFD'
  match tag with
  | .null      => .ok .null
  | .str       => .ok (.text t)
  | .bool      => (readBool cs).map .bool
  | .int       => (readInteger cs).map .int
  | .float     => (readFloat cs).map .float
  | .timestamp => (readTimestamp cs).map fun time => .foreign (Text.ofString time.shown)
  | .binary    =>
    match decodeBase64? cs with
    | some bs => .ok (.bytes bs)
    | none    => .error .malformed
  | _          => .error .malformed

end NoticeLedger.Yaml

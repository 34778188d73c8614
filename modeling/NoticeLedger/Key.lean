import NoticeLedger.Severity

/-!
# Keys of notices

Notices are counted and grouped by their key, which is a code and a severity. Keys are ordered by
their token, the code followed by the name of the severity. The three names end in different
letters, so no two keys have one token and the order of tokens is an order of keys.
-/

namespace NoticeLedger

/-! ### Codes -/

/-- The code of a notice, a string that is not empty. -/
structure Code where
  text : String
  text_ne : text ≠ ""
  deriving DecidableEq, Repr

/-- Why a text or value is no code. -/
inductive CodeFault where
  /-- It is not a text. -/
  | notText
  /-- It is a text that no string spells. -/
  | notUnicode
  /-- It is empty. -/
  | empty
  deriving DecidableEq, Repr

namespace Code

/-- The code with a given string. -/
def ofString (s : String) : Except CodeFault Code :=
  if h : s = "" then .error .empty else .ok ⟨s, h⟩

/-- The code with a given text. -/
def ofText (t : Text) : Except CodeFault Code :=
  match t.toString? with
  | none   => .error .notUnicode
  | some s => ofString s

/-- The code that a value is. Bytes count as the string whose UTF-8 form they are. -/
def ofValue : Value → Except CodeFault Code
  | .text t   => ofText t
  | .bytes bs =>
    match decodeUtf8? bs with
    | none   => .error .notUnicode
    | some s => ofString s
  | _         => .error .notText

/-- The code that a value is, where bytes do not count as a text. -/
def ofTextValue : Value → Except CodeFault Code
  | .text t => ofText t
  | _       => .error .notText

end Code

/-! ### Keys -/

/-- What notices are counted by. -/
structure Key where
  code : Code
  severity : Severity
  deriving DecidableEq, Repr

namespace Key

/-- The code followed by the name of the severity. -/
def token (k : Key) : String :=
  k.code.text ++ k.severity.name

/-- Strictly before, by token, then by code, then by severity. -/
def lt (a b : Key) : Bool :=
  Text.lt (Text.ofString a.token) (Text.ofString b.token) ||
    (a.token == b.token &&
      (Text.lt (Text.ofString a.code.text) (Text.ofString b.code.text) ||
        (a.code.text == b.code.text && decide (a.severity.rank < b.severity.rank))))

/-- At or before. -/
def le (a b : Key) : Bool :=
  !lt b a

/-- Keys in order. -/
def sort (ks : List Key) : List Key :=
  ks.mergeSort le

end Key

end NoticeLedger

import NoticeLedger.Text

/-!
# Cursors in YAML texts

A cursor knows what is left of a text and where it stands: the number of characters behind it, the
line, and the column. A YAML text holds printable characters only, so the character NUL can stand
for the end (`Cursor.peek`).
-/

namespace NoticeLedger.Yaml

/-! ### Characters -/

/-- The characters that a YAML text may hold. -/
def isYamlPrintable (c : Char) : Bool :=
  let n := c.toNat
  n == 0x09 || n == 0x0A || n == 0x0D || (0x20 ≤ n && n ≤ 0x7E) || n == 0x85 ||
    (0xA0 ≤ n && n ≤ 0xD7FF) || (0xE000 ≤ n && n ≤ 0xFFFD) || 0x10000 ≤ n

/-- The characters that end a line. -/
def isBreak (c : Char) : Bool :=
  c == '\n' || c == '\r' || c == '\u0085' || c == '\u2028' || c == '\u2029'

/-- A line break, or the end of the text. -/
def endsLine (c : Char) : Bool :=
  c == '\x00' || isBreak c

/-- A space, a line break, or the end of the text. -/
def endsWord (c : Char) : Bool :=
  c == ' ' || endsLine c

/-- A space, a tab, a line break, or the end of the text. -/
def endsToken (c : Char) : Bool :=
  c == '\t' || endsWord c

/-- The characters of a name: ASCII letters and digits, the hyphen and the underscore. -/
def isNameChar (c : Char) : Bool :=
  c.isAlphanum || c == '-' || c == '_'

/-! ### Faults -/

/-- Why a YAML text gives no document. -/
inductive Fault where
  /-- The text is not well formed, or names something unknown. -/
  | malformed
  /-- An escape names a number beyond the last code point. -/
  | beyondUnicode
  /-- An escape names a number of more than thirty-one bits. -/
  | beyondWord
  /-- A scalar tagged as a number is none. -/
  | notNumber
  /-- A scalar tagged as a number is empty. -/
  | emptyNumber
  /-- An integer has more digits than are converted. -/
  | integerTooLong
  /-- A place of a double in base sixty stands for more than the largest double. -/
  | placeTooHigh
  /-- A mapping stands for a scalar that is in turn that mapping. -/
  | endless
  /-- A scalar tagged as a truth value is none. -/
  | notBool
  /-- A scalar tagged as a point in time is none. -/
  | notTimestamp
  /-- A mapping is tagged as a point in time. -/
  | mappedTimestamp
  /-- A point in time does not exist. -/
  | impossibleDate
  deriving DecidableEq, Repr

/-! ### Cursors -/

/-- A place in a text, with what is left from there. -/
structure Cursor where
  rest : List Char
  index : Nat := 0
  line : Nat := 0
  column : Nat := 0
  deriving Repr

namespace Cursor

/-- The next character, NUL at the end. -/
def peek (c : Cursor) : Char :=
  c.rest.headD '\x00'

/-- The character `n` places further on. -/
def peekAt (c : Cursor) (n : Nat) : Char :=
  (c.rest.drop n).headD '\x00'

/-- One character further on. A byte order mark takes no column, and of a carriage return and the
line feed behind it only the second ends the line. -/
def next (c : Cursor) : Cursor :=
  match c.rest with
  | []      => c
  | x :: xs =>
    if isBreak x && !(x == '\r' && xs.head? == some '\n') then ⟨xs, c.index + 1, c.line + 1, 0⟩
    else ⟨xs, c.index + 1, c.line, if x == '\uFEFF' || x == '\r' then c.column else c.column + 1⟩

/-- A number of characters further on. -/
def advance (c : Cursor) : Nat → Cursor
  | 0     => c
  | n + 1 => c.next.advance n

/-- The characters in front that satisfy `p`, and the place behind them. -/
def span (c : Cursor) (p : Char → Bool) : List Char × Cursor :=
  let taken := c.rest.takeWhile p
  (taken, c.advance taken.length)

/-- The place behind the characters that satisfy `p`. -/
def skip (c : Cursor) (p : Char → Bool) : Cursor :=
  (c.span p).2

/-- Whether a character stands in front. -/
def sees (c : Cursor) (x : Char) : Bool :=
  c.peek == x

/-- Behind the line break in front, with the break as it counts in a scalar: most breaks count as
a line feed. -/
def readBreak? (c : Cursor) : Option (Char × Cursor) :=
  match c.rest with
  | '\r' :: '\n' :: _ => some ('\n', c.advance 2)
  | x :: _            =>
    if x == '\u2028' || x == '\u2029' then some (x, c.next)
    else if isBreak x then some ('\n', c.next)
    else none
  | []                => none

/-- Behind spaces, a comment and the line break after them, if nothing else is on the line. -/
def finishLine (c : Cursor) : Except Fault Cursor :=
  let c := c.skip (· == ' ')
  let c := if c.sees '#' then c.skip (fun x => !endsLine x) else c
  if endsLine c.peek then .ok ((c.readBreak?.map (·.2)).getD c) else .error .malformed

/-- Whether a line of three hyphens or three points, as separate documents, begins here. -/
def atSeparator (c : Cursor) : Bool :=
  let front := c.rest.take 3
  (front == ['-', '-', '-'] || front == ['.', '.', '.']) && endsToken (c.peekAt 3)

end Cursor

end NoticeLedger.Yaml

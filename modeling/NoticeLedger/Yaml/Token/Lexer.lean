import NoticeLedger.Journal
import NoticeLedger.Yaml.Token.Block
import NoticeLedger.Yaml.Token.Plain
import NoticeLedger.Yaml.Token.Properties

/-!
# Cutting texts into tokens

A lexer reads one token after another. In block context the columns of its tokens start and end
collections. Whether a token begins a key shows only at a colon further on in its line; until then
it is a candidate, and the tokens that mark a key are put in front of it afterwards
(`Lexer.readColon`).

A text that is not well formed has tokens up to its fault (`Tokens`). A candidate is no token yet
while it may still turn out to be a key, so a fault that is met behind it stands in its place.
-/

namespace NoticeLedger.Yaml

/-- The tokens of a text, and what is wrong behind the last of them. -/
structure Tokens where
  tokens : List Token
  fault? : Option Fault
  deriving Repr

/-- A token that begins a key if a colon follows. -/
structure KeyCandidate where
  /-- How many tokens stand in front. -/
  position : Nat
  /-- Whether nothing but a key may stand there. -/
  required : Bool
  index : Nat
  line : Nat
  column : Nat
  deriving Repr

/-- A lexer between two tokens. -/
structure Lexer where
  cursor : Cursor
  tokens : Journal Token := .empty
  /-- How many brackets are open. -/
  depth : Nat := 0
  keyAllowed : Bool := true
  /-- The candidates by the depth they stand at. -/
  candidates : List (Nat × KeyCandidate) := []
  /-- The column of the innermost block collection, and those around it. -/
  indent : Int := -1
  outer : List Int := []
  finished : Bool := false

namespace Lexer

/-- Whether the lexer is outside of brackets. -/
def inBlock (l : Lexer) : Bool :=
  l.depth == 0

/-- Put a token behind the others. -/
def push (l : Lexer) (t : Token) : Lexer :=
  { l with tokens := l.tokens.push t }

/-- Put a token behind the others and go on elsewhere. -/
def emit (l : Lexer) (t : Token) (c : Cursor) : Lexer :=
  { l.push t with cursor := c }

/-- Put a token in front of those from a position on. -/
def insertAt (l : Lexer) (position : Nat) (t : Token) : Lexer :=
  { l with tokens := l.tokens.insertAt position t }

/-- Allow or forbid a key at the next token. -/
def allowKey (l : Lexer) (allowed : Bool) : Lexer :=
  { l with keyAllowed := allowed }

/-! ### Indentation -/

/-- End the collections in `outer` that are indented further than a column. -/
def unwindFrom (column : Int) : (outer : List Int) → Lexer → Lexer
  | [], l             => l
  | i :: outer, l     =>
    if l.indent > column then
      unwindFrom column outer { l.push .blockEnd with indent := i, outer }
    else l

/-- End the block collections that are indented further than a column. -/
def unwind (l : Lexer) (column : Int) : Lexer :=
  if l.inBlock then unwindFrom column l.outer l else l

/-- Begin a collection at a column, unless one is there already. -/
def beginBlock (l : Lexer) (column position : Nat) (start : Token) : Lexer :=
  if l.indent < column then
    { l.insertAt position start with indent := column, outer := l.indent :: l.outer }
  else l

/-- Begin a collection at the cursor, unless one is there already. -/
def beginBlockHere (l : Lexer) (start : Token) : Lexer :=
  l.beginBlock l.cursor.column l.tokens.size start

/-! ### Candidates -/

/-- A candidate is given up at the end of its line and after 1024 characters. -/
def isStale (l : Lexer) (k : KeyCandidate) : Bool :=
  k.line ≠ l.cursor.line || l.cursor.index - k.index > 1024

/-- Give up stale candidates. -/
def dropStale (l : Lexer) : Except Fault Lexer :=
  if l.candidates.any fun k => l.isStale k.2 && k.2.required then .error .malformed
  else .ok { l with candidates := l.candidates.filter fun k => !l.isStale k.2 }

/-- The candidate at this depth. -/
def candidate? (l : Lexer) : Option KeyCandidate :=
  l.candidates.lookup l.depth

/-- Forget the candidate at this depth. -/
def forget (l : Lexer) : Lexer :=
  { l with candidates := l.candidates.filter fun k => k.1 ≠ l.depth }

/-- Give up the candidate at this depth. -/
def giveUp (l : Lexer) : Except Fault Lexer :=
  if l.candidate?.any (·.required) then .error .malformed else .ok l.forget

/-- Make the next token a candidate, if a key is allowed. -/
def mark (l : Lexer) : Except Fault Lexer :=
  if l.keyAllowed then do
    let l ← l.giveUp
    let candidate : KeyCandidate :=
      { position := l.tokens.size
        required := l.inBlock && l.indent == l.cursor.column
        index := l.cursor.index
        line := l.cursor.line
        column := l.cursor.column }
    return { l with candidates := (l.depth, candidate) :: l.candidates }
  else .ok l

/-! ### Tokens -/

/-- Behind blanks, comments and line breaks. After a break outside of brackets a key is allowed. -/
def skipBlanks : (fuel : Nat) → Lexer → Lexer
  | 0, l        => l
  | fuel + 1, l =>
    let c := l.cursor.skip (· == ' ')
    let c := if c.sees '#' then c.skip (fun x => !endsLine x) else c
    match c.readBreak? with
    | none        => { l with cursor := c }
    | some (_, c) => skipBlanks fuel { l with cursor := c, keyAllowed := l.keyAllowed || l.inBlock }

/-- Behind a byte order mark in front of the whole text. -/
def skipMark (l : Lexer) : Lexer :=
  if l.cursor.index = 0 ∧ l.cursor.sees '\uFEFF' then { l with cursor := l.cursor.next } else l

/-- End everything that is open, in front of a token between documents. -/
def closeAll (l : Lexer) : Except Fault Lexer :=
  (l.unwind (-1)).giveUp.map (·.allowKey false)

/-- The end of the text. -/
def readEnd (l : Lexer) : Except Fault Lexer :=
  l.closeAll.map fun l => { l.push .streamEnd with finished := true }

/-- A directive. -/
def readDirectiveLine (l : Lexer) : Except Fault Lexer := do
  let l ← l.closeAll
  let (token, c) ← readDirective l.cursor
  return l.emit token c

/-- The line that begins or ends a document. -/
def readSeparator (l : Lexer) : Except Fault Lexer :=
  let token := if l.cursor.sees '-' then Token.documentStart else .documentEnd
  l.closeAll.map fun l => l.emit token (l.cursor.advance 3)

/-- An opening bracket. -/
def readOpening (l : Lexer) (token : Token) : Except Fault Lexer :=
  l.mark.map fun l => { (l.allowKey true).emit token l.cursor.next with depth := l.depth + 1 }

/-- A closing bracket, for which one has to be open. -/
def readClosing (l : Lexer) (token : Token) : Except Fault Lexer := do
  let l ← l.giveUp
  if l.inBlock then throw .malformed
  return { (l.allowKey false).emit token l.cursor.next with depth := l.depth - 1 }

/-- A comma. -/
def readComma (l : Lexer) : Except Fault Lexer :=
  (l.allowKey true).giveUp.map fun l => l.emit .flowEntry l.cursor.next

/-- An indicator that begins a collection in block context, where a key has to be allowed. -/
def readIndicator (l : Lexer) (start token : Token) (allowed : Bool) : Except Fault Lexer := do
  if l.inBlock && !l.keyAllowed then throw .malformed
  let l ← ((if l.inBlock then l.beginBlockHere start else l).allowKey allowed).giveUp
  return l.emit token l.cursor.next

/-- A colon. With a candidate it makes a key of it, and of the first key in a column also the
start of a mapping. -/
def readColon (l : Lexer) : Except Fault Lexer :=
  match l.candidate? with
  | none   => l.readIndicator .mappingStart .value l.inBlock
  | some k =>
    let l := l.forget.insertAt k.position .key
    let l := if l.inBlock then l.beginBlock k.column k.position .mappingStart else l
    .ok ((l.allowKey false).emit .value l.cursor.next)

/-- A token that may begin a key. -/
def readMarked (l : Lexer) (read : Cursor → Except Fault (Token × Cursor)) : Except Fault Lexer := do
  let l ← l.mark
  let (token, c) ← read l.cursor
  return (l.allowKey false).emit token c

/-- A block scalar. -/
def readBlockScalar (l : Lexer) : Except Fault Lexer := do
  let l ← (l.allowKey true).giveUp
  let (text, c) ← readBlock l.indent l.cursor
  return l.emit (.scalar text false) c

/-- A plain scalar. -/
def readPlainScalar (l : Lexer) : Except Fault Lexer := do
  let l ← l.mark
  let (text, allowed, c) := readPlain (!l.inBlock) l.indent l.cursor
  return (l.allowKey allowed).emit (.scalar text true) c

/-- Whether a plain scalar begins at the cursor. -/
def atPlain (l : Lexer) : Bool :=
  let x := l.cursor.peek
  let indicators := "-?:,[]\x7b\x7d#&*!|>\x27\x22%@\x60".toList
  !(endsToken x || indicators.contains x) ||
    (!endsToken (l.cursor.peekAt 1) && (x == '-' || (l.inBlock && (x == '?' || x == ':'))))

/-- Whether the character at the cursor is an indicator: inside brackets always, else in front of
a blank. -/
def atIndicator (l : Lexer) : Bool :=
  !l.inBlock || endsToken (l.cursor.peekAt 1)

/-- The token at the cursor. -/
def readToken (l : Lexer) : Except Fault Lexer :=
  let c := l.cursor
  let x := c.peek
  if c.rest.isEmpty then l.readEnd
  else if x == '%' && c.column == 0 then l.readDirectiveLine
  else if c.column == 0 && c.atSeparator then l.readSeparator
  else if x == '[' then l.readOpening .flowSequenceStart
  else if x == '\x7b' then l.readOpening .flowMappingStart
  else if x == ']' then l.readClosing .flowSequenceEnd
  else if x == '\x7d' then l.readClosing .flowMappingEnd
  else if x == ',' then l.readComma
  else if x == '-' && endsToken (c.peekAt 1) then l.readIndicator .sequenceStart .entry true
  else if x == '?' && l.atIndicator then l.readIndicator .mappingStart .key l.inBlock
  else if x == ':' && l.atIndicator then l.readColon
  else if x == '*' then l.readMarked fun c => (readAnchor c).map fun (s, c) => (.alias s, c)
  else if x == '&' then l.readMarked fun c => (readAnchor c).map fun (s, c) => (.anchor s, c)
  else if x == '!' then l.readMarked readTag
  else if (x == '|' || x == '>') && l.inBlock then l.readBlockScalar
  else if x == '\x27' || x == '\x22' then
    l.readMarked fun c => (readQuoted c).map fun (t, c) => (.scalar t false, c)
  else if l.atPlain then l.readPlainScalar
  else .error .malformed

/-- One token further on, behind at most `fuel` line breaks. -/
def step (fuel : Nat) (l : Lexer) : Except Fault Lexer := do
  let l ← (skipBlanks fuel l.skipMark).dropStale
  (l.unwind l.cursor.column).readToken

/-- The tokens in front of the first candidate that is still open. -/
def settled (l : Lexer) : List Token :=
  let positions := (l.candidates.filter fun k => !l.isStale k.2).map (·.2.position)
  l.tokens.toList.take (positions.foldl min l.tokens.size)

/-- The tokens from a lexer on. Every token but the last takes a character, so `fuel` stays above
the number of characters that are left. -/
def run : (fuel : Nat) → Lexer → Tokens
  | 0, l        => ⟨l.settled, some .malformed⟩
  | fuel + 1, l =>
    if l.finished then ⟨l.tokens.toList, none⟩
    else
      match l.step fuel with
      | .error fault => ⟨l.settled, some fault⟩
      | .ok l        => run fuel l

end Lexer

/-- The tokens of a text. -/
def Tokens.ofChars (cs : List Char) : Tokens :=
  Lexer.run (cs.length + 2) { cursor := { rest := cs } }

end NoticeLedger.Yaml

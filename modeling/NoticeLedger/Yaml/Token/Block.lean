import NoticeLedger.Yaml.Token.Quoted

/-!
# Block scalars

A block scalar is made of the lines that are indented behind its indicator. A literal block keeps
its line breaks; a folded one joins lines that begin with text. The indicator may tell what becomes
of the breaks at the end and how far the lines are indented.
-/

namespace NoticeLedger.Yaml

/-- What becomes of the line breaks at the end of a block. -/
inductive Chomping where
  | strip
  | clip
  | keep
  deriving DecidableEq, Repr

/-- The chomping that a character tells. -/
def chomping? : Char → Option Chomping
  | '+' => some .keep
  | '-' => some .strip
  | _   => none

/-- The indentation that a character tells, which is not zero. -/
def readIncrement (c : Cursor) : Except Fault (Option Nat × Cursor) :=
  if c.sees '0' then .error .malformed
  else if c.peek.isDigit then .ok (some (c.peek.toNat - '0'.toNat), c.next)
  else .ok (none, c)

/-- The header of a block behind its indicator. -/
def readBlockHeader (c : Cursor) : Except Fault (Chomping × Option Nat × Cursor) := do
  let (chomping, increment, c) ←
    match chomping? c.peek with
    | some chomping => do
      let (increment, c) ← readIncrement c.next
      pure (chomping, increment, c)
    | none => do
      let (increment, c) ← readIncrement c
      match increment.bind fun _ => chomping? c.peek with
      | some chomping => pure (chomping, increment, c.next)
      | none          => pure (.clip, increment, c)
  if endsWord c.peek then
    let c ← c.finishLine
    return (chomping, increment, c)
  else throw .malformed

/-- The breaks in front of the first line with text, and the widest column on the way. -/
def readIndentation : (fuel : Nat) → (widest : Nat) → Cursor → Text × Nat × Cursor
  | 0, widest, c        => ([], widest, c)
  | fuel + 1, widest, c =>
    if c.sees ' ' then readIndentation fuel (max widest c.next.column) c.next
    else
      match c.readBreak? with
      | none        => ([], widest, c)
      | some (b, c) =>
        let (bs, widest, c) := readIndentation fuel widest c
        (.char b :: bs, widest, c)

/-- Behind spaces, but not behind a column. -/
def skipIndent (indent : Nat) (c : Cursor) : Cursor :=
  c.advance (min (c.rest.takeWhile (· == ' ')).length (indent - c.column))

/-- The breaks of lines without text, and the place at the first line with text. -/
def readBlockBreaks (indent : Nat) : (fuel : Nat) → Cursor → Text × Cursor
  | 0, c        => ([], c)
  | fuel + 1, c =>
    let c := skipIndent indent c
    match c.readBreak? with
    | none        => ([], c)
    | some (b, c) =>
      let (bs, c) := readBlockBreaks indent fuel c
      (.char b :: bs, c)

/-- Whether a line of a block goes on at the cursor. -/
def inBlock (indent : Nat) (c : Cursor) : Bool :=
  c.column == indent && !c.rest.isEmpty

/-- The lines of a block from the one at the cursor on: their text, the break behind the last of
them, and the breaks of empty lines behind that. -/
def readBlockLines (folded : Bool) (indent : Nat) :
    (fuel : Nat) → Cursor → Text × Text × Text × Cursor
  | 0, c        => ([], [], [], c)
  | fuel + 1, c =>
    let startsWithText := !(c.sees ' ' || c.sees '\t')
    let (line, c) := c.span fun x => !endsLine x
    let (lineBreak, c) : Text × Cursor :=
      match c.readBreak? with
      | none         => ([], c)
      | some (b, c') => ([.char b], c')
    let (breaks, c) := readBlockBreaks indent (c.rest.length + 1) c
    if inBlock indent c then
      let joined : Text :=
        if folded && lineBreak == [.char '\n'] && startsWithText &&
            !(c.sees ' ' || c.sees '\t') then
          if breaks.isEmpty then [.char ' '] else []
        else lineBreak
      let (text, rest) := readBlockLines folded indent fuel c
      (symbols line ++ joined ++ breaks ++ text, rest)
    else (symbols line, lineBreak, breaks, c)

/-- A block scalar inside a collection that is indented by `outer`. -/
def readBlock (outer : Int) (c : Cursor) : Except Fault (Text × Cursor) := do
  let folded := c.sees '>'
  let (chomping, increment, c) ← readBlockHeader c.next
  let least := (max 1 (outer + 1)).toNat
  let (breaks, indent, c) : Text × Nat × Cursor :=
    match increment with
    | none =>
      let (breaks, widest, c) := readIndentation (c.rest.length + 1) 0 c
      (breaks, max least widest, c)
    | some n =>
      let (breaks, c) := readBlockBreaks (least + n - 1) (c.rest.length + 1) c
      (breaks, least + n - 1, c)
  let (text, lineBreak, trailing, c) : Text × Text × Text × Cursor :=
    if inBlock indent c then
      let (text, rest) := readBlockLines folded indent (c.rest.length + 1) c
      (breaks ++ text, rest)
    else ([], [], breaks, c)
  return match chomping with
    | .strip => (text, c)
    | .clip  => (text ++ lineBreak, c)
    | .keep  => (text ++ lineBreak ++ trailing, c)

end NoticeLedger.Yaml

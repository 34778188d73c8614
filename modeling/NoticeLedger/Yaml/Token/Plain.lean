import NoticeLedger.Yaml.Token.Quoted

/-!
# Plain scalars

A plain scalar has neither quotes nor an indicator. It ends where a colon or a comment follows,
inside brackets also at the characters that structure them, and at a line that is not indented.
Lines are joined as in quoted scalars.
-/

namespace NoticeLedger.Yaml

/-- Whether a plain scalar cannot go on with the character at the cursor. -/
def endsPlain (inFlow : Bool) (c : Cursor) : Bool :=
  let x := c.peek
  endsToken x ||
    (x == ':' && (endsToken (c.peekAt 1) || (inFlow && ",[]\x7b\x7d".toList.contains (c.peekAt 1)))) ||
    (inFlow && ",?[]\x7b\x7d".toList.contains x)

/-- The characters of a plain scalar up to a blank or its end. -/
def readPlainWord (inFlow : Bool) : (fuel : Nat) → Cursor → List Char × Cursor
  | 0, c        => ([], c)
  | fuel + 1, c =>
    if endsPlain inFlow c then ([], c)
    else
      let (cs, c') := readPlainWord inFlow fuel c.next
      (c.peek :: cs, c')

/-- The breaks of empty lines behind a first one, unless a separator of documents follows. -/
def readPlainBreaks : (fuel : Nat) → Cursor → Option Text × Cursor
  | 0, c        => (some [], c)
  | fuel + 1, c =>
    if c.sees ' ' then readPlainBreaks fuel c.next
    else
      match c.readBreak? with
      | none        => (some [], c)
      | some (b, c) =>
        if c.atSeparator then (none, c)
        else
          let (bs, c) := readPlainBreaks fuel c
          (bs.map (.char b :: ·), c)

/-- What the blanks behind a word count as, nothing if the scalar ends there. The flag tells
whether a line has ended. -/
def readPlainBlanks (c : Cursor) : Text × Bool × Cursor :=
  let (blanks, c) := c.span (· == ' ')
  match c.readBreak? with
  | none        => (symbols blanks, false, c)
  | some (b, c) =>
    if c.atSeparator then ([], true, c)
    else
      let (bs?, c) := readPlainBreaks (c.rest.length + 1) c
      match bs? with
      | none    => ([], true, c)
      | some bs =>
        if b ≠ '\n' then (.char b :: bs, true, c)
        else if bs.isEmpty then ([.char ' '], true, c)
        else (bs, true, c)

/-- A plain scalar from a word on, behind the blanks `before`. The flag tells whether a key may
follow, which is so after a line has ended. -/
def readPlainWords (inFlow : Bool) (indent : Int) :
    (fuel : Nat) → (before : Text) → (keyAllowed : Bool) → Cursor → Text × Bool × Cursor
  | 0, _, keyAllowed, c             => ([], keyAllowed, c)
  | fuel + 1, before, keyAllowed, c =>
    if c.sees '#' then ([], keyAllowed, c)
    else
      let (word, c) := readPlainWord inFlow (c.rest.length + 1) c
      if word.isEmpty then ([], keyAllowed, c)
      else
        let (blanks, broken, c) := readPlainBlanks c
        if blanks.isEmpty || c.sees '#' || (!inFlow && (c.column : Int) < indent) then
          (before ++ symbols word, broken, c)
        else
          let (text, keyAllowed, c) := readPlainWords inFlow indent fuel blanks broken c
          (before ++ symbols word ++ text, keyAllowed, c)

/-- A plain scalar inside a collection that is indented by `outer`. -/
def readPlain (inFlow : Bool) (outer : Int) (c : Cursor) : Text × Bool × Cursor :=
  readPlainWords inFlow (outer + 1) (c.rest.length + 1) [] false c

end NoticeLedger.Yaml

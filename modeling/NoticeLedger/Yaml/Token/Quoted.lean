import NoticeLedger.Json.StringLiteral
import NoticeLedger.Yaml.Cursor

/-!
# Quoted scalars

A quoted scalar may run over several lines: a line break between words counts as a space, and of
several breaks the first does not count. Between single quotes a quote is written twice; between
double quotes a backslash begins an escape.
-/

namespace NoticeLedger.Yaml

open Json (hexValue?)

/-- The symbols of characters. -/
def symbols (cs : List Char) : Text :=
  cs.map .char

/-- The characters with a short escape. -/
def shortEscapes : List (Char × Nat) :=
  [('0', 0x00), ('a', 0x07), ('b', 0x08), ('t', 0x09), ('\t', 0x09), ('n', 0x0A), ('v', 0x0B),
    ('f', 0x0C), ('r', 0x0D), ('e', 0x1B), (' ', 0x20), ('\x22', 0x22), ('\\', 0x5C),
    ('/', 0x2F), ('N', 0x85), ('_', 0xA0), ('L', 0x2028), ('P', 0x2029)]

/-- How many hexadecimal digits follow a letter behind a backslash. -/
def escapeWidth? : Char → Option Nat
  | 'x' => some 2
  | 'u' => some 4
  | 'U' => some 8
  | _   => none

/-- The breaks of empty lines, with the blanks around them left out. A separator of documents may
not stand inside a scalar. -/
def readQuotedBreaks : (fuel : Nat) → Cursor → Except Fault (Text × Cursor)
  | 0, c        => .ok ([], c)
  | fuel + 1, c =>
    if c.atSeparator then .error .malformed
    else
      let c := c.skip fun x => x == ' ' || x == '\t'
      match c.readBreak? with
      | none        => .ok ([], c)
      | some (b, c) => (readQuotedBreaks fuel c).map fun (bs, c) => (.char b :: bs, c)

/-- What blanks and line breaks between words count as. -/
def readQuotedBlanks (c : Cursor) : Except Fault (Text × Cursor) :=
  let (blanks, c) := c.span fun x => x == ' ' || x == '\t'
  match c.readBreak? with
  | none =>
    if c.rest.isEmpty then .error .malformed else .ok (symbols blanks, c)
  | some (b, c) =>
    (readQuotedBreaks (c.rest.length + 1) c).map fun (bs, c) =>
      if b ≠ '\n' then (.char b :: bs, c)
      else if bs.isEmpty then ([.char ' '], c)
      else (bs, c)

/-- The number that hexadecimal digits write. -/
def hexNumber? (cs : List Char) : Option Nat :=
  cs.foldlM (fun n c => (hexValue? c).map (16 * n + ·)) 0

/-- The symbols of an escape, from behind its backslash. -/
def readEscape (c : Cursor) : Except Fault (Text × Cursor) :=
  match shortEscapes.lookup c.peek with
  | some n => .ok ([.ofCodePoint n], c.next)
  | none   =>
    match escapeWidth? c.peek with
    | some width =>
      let digits := (c.rest.drop 1).take width
      match hexNumber? digits with
      | none   => .error .malformed
      | some n =>
        if digits.length < width then .error .malformed
        else if n < 0x110000 then .ok ([.ofCodePoint n], c.advance (width + 1))
        else .error (if n < 0x80000000 then .beyondUnicode else .beyondWord)
    | none =>
      match c.readBreak? with
      | some (_, c) => readQuotedBreaks (c.rest.length + 1) c
      | none        => .error .malformed

/-- The symbols up to the closing quote, and the place behind it. -/
def readQuotedRest (quote : Char) : (fuel : Nat) → Cursor → Except Fault (Text × Cursor)
  | 0, _        => .error .malformed
  | fuel + 1, c =>
    match c.rest with
    | []      => .error .malformed
    | x :: xs =>
      if x == quote then
        if quote == '\x27' && xs.head? == some quote then
          (readQuotedRest quote fuel (c.advance 2)).map fun (t, c) => (.char quote :: t, c)
        else .ok ([], c.next)
      else if x == '\\' && quote == '\x22' then
        match readEscape c.next with
        | .error e    => .error e
        | .ok (t, c') => (readQuotedRest quote fuel c').map fun (u, c) => (t ++ u, c)
      else if endsToken x then
        match readQuotedBlanks c with
        | .error e    => .error e
        | .ok (t, c') => (readQuotedRest quote fuel c').map fun (u, c) => (t ++ u, c)
      else (readQuotedRest quote fuel c.next).map fun (t, c) => (.char x :: t, c)

/-- A quoted scalar. -/
def readQuoted (c : Cursor) : Except Fault (Text × Cursor) :=
  readQuotedRest c.peek (c.rest.length + 1) c.next

end NoticeLedger.Yaml

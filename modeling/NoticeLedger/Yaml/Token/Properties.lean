import NoticeLedger.Json.NumberLiteral
import NoticeLedger.Json.StringLiteral
import NoticeLedger.Text.Utf8
import NoticeLedger.Yaml.Cursor
import NoticeLedger.Yaml.Token

/-!
# Names, tags and directives

The tokens that stand in front of a node or a document. Anchors and aliases have names, a tag has a
handle and a suffix that is written like a web address, and a directive tells the version of YAML or
gives a handle its meaning.
-/

namespace NoticeLedger.Yaml

open Json (hexValue?)

/-! ### Anchors and aliases -/

/-- What may follow a name directly. -/
def endsName (c : Char) : Bool :=
  endsToken c || "?:,]\x7d%@".toList.contains c || c == '\x60'

/-- The name behind the indicator of an anchor or alias. -/
def readAnchor (c : Cursor) : Except Fault (String × Cursor) :=
  let (name, c) := c.next.span isNameChar
  if name.isEmpty || !endsName c.peek then .error .malformed else .ok (String.ofList name, c)

/-! ### Tags -/

/-- The characters of a tag suffix, the percent sign apart. -/
def isSuffixChar (c : Char) : Bool :=
  c.isAlphanum || "-;/?:@&=+$,_.!~*\x27()[]".toList.contains c

/-- The bytes of the escapes in front, each a percent sign with two hexadecimal digits. `fuel`
bounds their number. -/
def readEscapes : (fuel : Nat) → Cursor → Except Fault (List UInt8 × Cursor)
  | 0, c        => .ok ([], c)
  | fuel + 1, c =>
    if c.sees '%' then
      match hexValue? (c.peekAt 1), hexValue? (c.peekAt 2) with
      | some a, some b =>
        (readEscapes fuel (c.advance 3)).map fun (bs, c) => ((16 * a + b).toUInt8 :: bs, c)
      | _, _ => .error .malformed
    else .ok ([], c)

/-- The characters of a suffix, its escapes read as UTF-8. -/
def readSuffixChars : (fuel : Nat) → Cursor → Except Fault (List Char × Cursor)
  | 0, c        => .ok ([], c)
  | fuel + 1, c =>
    if c.sees '%' then
      match readEscapes fuel c with
      | .error e    => .error e
      | .ok (bs, c) =>
        match decodeUtf8? bs with
        | none   => .error .malformed
        | some s => (readSuffixChars fuel c).map fun (cs, c) => (s.toList ++ cs, c)
    else
      let (taken, c) := c.span isSuffixChar
      if taken.isEmpty then .ok ([], c)
      else (readSuffixChars fuel c).map fun (cs, c) => (taken ++ cs, c)

/-- A suffix, which is not empty. -/
def readSuffix (c : Cursor) : Except Fault (String × Cursor) :=
  if c.sees '%' || isSuffixChar c.peek then
    (readSuffixChars (c.rest.length + 1) c).map fun (cs, c) => (String.ofList cs, c)
  else .error .malformed

/-- A handle: an exclamation mark alone in front of a space, or a name between two. -/
def readHandle (c : Cursor) : Except Fault (String × Cursor) :=
  if c.sees '!' then
    if c.peekAt 1 == ' ' then .ok ("!", c.next)
    else
      let (name, c) := c.next.span isNameChar
      if c.sees '!' then .ok ("!" ++ String.ofList name ++ "!", c.next) else .error .malformed
  else .error .malformed

/-- Whether a second exclamation mark is part of the word in front. -/
def hasHandle (c : Cursor) : Bool :=
  ((c.rest.drop 1).takeWhile fun x => !endsWord x).contains '!'

/-- A tag: a suffix between angle brackets, an exclamation mark alone, or a suffix behind a
handle. -/
def readTag (c : Cursor) : Except Fault (Token × Cursor) := do
  let (token, c) ←
    if c.peekAt 1 == '<' then do
      let (suffix, c) ← readSuffix (c.advance 2)
      if c.sees '>' then pure (Token.tag none suffix, c.next) else throw .malformed
    else if endsToken (c.peekAt 1) then pure (Token.tag none "!", c.next)
    else if hasHandle c then do
      let (handle, c) ← readHandle c
      let (suffix, c) ← readSuffix c
      pure (Token.tag (some handle) suffix, c)
    else do
      let (suffix, c) ← readSuffix c.next
      pure (Token.tag (some "!") suffix, c)
  if endsWord c.peek then pure (token, c) else throw .malformed

/-! ### Directives -/

/-- The digits of a version number, which are not none. -/
def readVersionPart (c : Cursor) : Except Fault (Nat × Cursor) :=
  let (ds, c) := c.span Char.isDigit
  if ds.isEmpty then .error .malformed
  else if ds.length > Json.maxIntegerDigits then .error .integerTooLong
  else .ok (ds.foldl (fun n d => 10 * n + (d.toNat - '0'.toNat)) 0, c)

/-- The version that a directive tells. -/
def readVersion (c : Cursor) : Except Fault (Directive × Cursor) := do
  let (major, c) ← readVersionPart (c.skip (· == ' '))
  if c.sees '.' then
    let (_, c) ← readVersionPart c.next
    if endsWord c.peek then pure (.version major, c) else throw .malformed
  else throw .malformed

/-- The handle that a directive gives a meaning to, and that meaning. -/
def readTagDirective (c : Cursor) : Except Fault (Directive × Cursor) := do
  let (handle, c) ← readHandle (c.skip (· == ' '))
  if c.sees ' ' then
    let (target, c) ← readSuffix (c.skip (· == ' '))
    if endsWord c.peek then pure (.tag handle target, c) else throw .malformed
  else throw .malformed

/-- A directive and the rest of its line. -/
def readDirective (c : Cursor) : Except Fault (Token × Cursor) := do
  let (name, c) := c.next.span isNameChar
  if name.isEmpty || !endsWord c.peek then throw .malformed
  let (directive, c) ←
    if name == "YAML".toList then readVersion c
    else if name == "TAG".toList then readTagDirective c
    else pure (.other, c.skip fun x => !endsLine x)
  let c ← c.finishLine
  return (.directive directive, c)

end NoticeLedger.Yaml

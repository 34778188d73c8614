import NoticeLedger.Json.Writer
import NoticeLedger.Yaml.Number

/-!
# Points in time

A scalar is a date, or a date with a time of day and possibly the offset of a time zone. A plain
scalar that is only a date has two digits in each of its places (`isTimestamp`). A date has to
exist, and an offset is shorter than a day (`Timestamp.isReal`).
-/

namespace NoticeLedger.Yaml

/-- An offset from universal time. -/
structure ZoneOffset where
  negative : Bool
  minutes : Nat
  deriving DecidableEq, Repr

/-- A time of day, in fractions of a second down to a millionth. -/
structure TimeOfDay where
  hour : Nat
  minute : Nat
  second : Nat
  millionths : Nat
  zone? : Option ZoneOffset
  deriving DecidableEq, Repr

/-- A date, and possibly a time of day. -/
structure Timestamp where
  year : Nat
  month : Nat
  day : Nat
  time? : Option TimeOfDay
  deriving DecidableEq, Repr

namespace Timestamp

/-! ### Reading -/

/-- A blank between the parts. -/
def isGap (c : Char) : Bool :=
  c == ' ' || c == '\t'

/-- Exactly two digits, or one if `short`. -/
def readPair? (short : Bool) (cs : List Char) : Option (Nat × List Char) :=
  let (ds, rest) := cs.span Char.isDigit
  if ds.length = 2 ∨ (short ∧ ds.length = 1) then some (natOfDigits ds, rest) else none

/-- What is behind a character. -/
def dropChar? (x : Char) : List Char → Option (List Char)
  | []      => none
  | c :: cs => if c = x then some cs else none

/-- The first six of the digits behind a point, and the rest. -/
def readMillionths (cs : List Char) : Nat × List Char :=
  match cs with
  | '.' :: cs =>
    let (ds, rest) := cs.span Char.isDigit
    (natOfDigits (ds.take 6) * Nat.pow 10 (6 - (ds.take 6).length), rest)
  | _         => (0, cs)

/-- The offset that takes up all the characters. -/
def readZone? (cs : List Char) : Option ZoneOffset :=
  match cs with
  | ['Z']      => some ⟨false, 0⟩
  | sign :: cs =>
    if sign = '+' ∨ sign = '-' then do
      let (hours, rest) ← readPair? true cs
      if rest.isEmpty then return ⟨sign = '-', 60 * hours⟩
      let rest ← dropChar? ':' rest
      let (minutes, rest) ← readPair? false rest
      if rest.isEmpty then return ⟨sign = '-', 60 * hours + minutes⟩
      none
    else none
  | []         => none

/-- The time of day that takes up all the characters. -/
def readTime? (cs : List Char) : Option TimeOfDay := do
  let (hour, cs) ← readPair? true cs
  let (minute, cs) ← readPair? false (← dropChar? ':' cs)
  let (second, cs) ← readPair? false (← dropChar? ':' cs)
  let (millionths, cs) := readMillionths cs
  if cs.isEmpty then return ⟨hour, minute, second, millionths, none⟩
  let zone ← readZone? (cs.dropWhile isGap)
  return ⟨hour, minute, second, millionths, some zone⟩

/-- What is behind the gap between a date and a time of day. -/
def dropDivider? (cs : List Char) : Option (List Char) :=
  match cs with
  | []      => none
  | c :: cs => if c = 'T' ∨ c = 't' then some cs else if isGap c then some (cs.dropWhile isGap) else none

/-- The point in time that takes up all the characters. -/
def read? (cs : List Char) : Option Timestamp := do
  let (year, rest) := cs.span Char.isDigit
  if year.length ≠ 4 then none
  let (month, rest) ← readPair? true (← dropChar? '-' rest)
  let (day, rest) ← readPair? true (← dropChar? '-' rest)
  if rest.isEmpty then return ⟨natOfDigits year, month, day, none⟩
  let time ← readTime? (← dropDivider? rest)
  return ⟨natOfDigits year, month, day, some time⟩

/-! ### The calendar -/

/-- Whether a year has a leap day. -/
def isLeap (year : Nat) : Bool :=
  year % 4 == 0 && (year % 100 ≠ 0 || year % 400 == 0)

/-- The days of a month. -/
def daysOf (year month : Nat) : Nat :=
  if month = 2 then if isLeap year then 29 else 28
  else if month ∈ [4, 6, 9, 11] then 30
  else 31

/-- Whether a time of day is one. -/
def isRealTime (t : TimeOfDay) : Bool :=
  t.hour < 24 && t.minute < 60 && t.second < 60 && t.zone?.all (·.minutes < 24 * 60)

/-- Whether a point in time exists. -/
def isReal (t : Timestamp) : Bool :=
  1 ≤ t.year && 1 ≤ t.month && t.month ≤ 12 && 1 ≤ t.day && t.day ≤ daysOf t.year t.month &&
    t.time?.all isRealTime

/-! ### Text -/

/-- The digits of a number, with zeros in front up to a width. -/
def padded (width n : Nat) : String :=
  let ds := Nat.toDigits 10 n
  String.ofList (List.replicate (width - ds.length) '0' ++ ds)

/-- The text of an offset. -/
def zoneText (z : ZoneOffset) : String :=
  (if z.negative && z.minutes ≠ 0 then "-" else "+") ++ padded 2 (z.minutes / 60) ++ ":" ++
    padded 2 (z.minutes % 60)

/-- The text of a time of day. -/
def timeText (t : TimeOfDay) : String :=
  padded 2 t.hour ++ ":" ++ padded 2 t.minute ++ ":" ++ padded 2 t.second ++
    (if t.millionths = 0 then "" else "." ++ padded 6 t.millionths) ++
    ((t.zone?.map zoneText).getD "")

/-- The text of a point in time. -/
def shown (t : Timestamp) : String :=
  padded 4 t.year ++ "-" ++ padded 2 t.month ++ "-" ++ padded 2 t.day ++
    ((t.time?.map fun time => " " ++ timeText time).getD "")

end Timestamp

/-- Whether a plain scalar is a point in time. -/
def isTimestamp (cs : List Char) : Bool :=
  match Timestamp.read? cs with
  | none   => false
  | some t => t.time?.isSome || cs.length == 10

end NoticeLedger.Yaml

import NoticeLedger.Text.Split

/-!
# Paths

A path is a list of names, counted from the root or from a working directory. Names that stand for
nothing, the empty one and the single point, are left out; two points stay, since what they lead to
shows only in a tree of files. A path that begins with exactly two slashes keeps both in its text,
though it is counted from the root like any other. Only the last suffix of a name counts as one.
-/

namespace NoticeLedger

/-- What a path is counted from. -/
inductive PathStart where
  | workingDirectory
  | root
  /-- The root, written as two slashes. -/
  | doubleRoot
  deriving DecidableEq, Repr

namespace PathStart

/-- The start of a path that begins with a number of slashes. -/
def ofSlashes : Nat → PathStart
  | 0 => workingDirectory
  | 2 => doubleRoot
  | _ => root

/-- The text in front of the names. -/
def text : PathStart → String
  | workingDirectory => ""
  | root             => "/"
  | doubleRoot       => "//"

end PathStart

/-- A path to a file or directory. -/
structure Path where
  start : PathStart
  parts : List String
  deriving DecidableEq, Repr

namespace Path

/-- The path that a string writes. -/
def ofString (s : String) : Path where
  start := .ofSlashes (s.toList.takeWhile (· = '/')).length
  parts := ((splitAt '/' s.toList).map String.ofList).filter fun part => part ≠ "" ∧ part ≠ "."

/-- The text of a path. The path to the working directory itself is a point. -/
def text (p : Path) : String :=
  if p.start = .workingDirectory ∧ p.parts = [] then "."
  else p.start.text ++ String.intercalate "/" p.parts

/-- The place that a path is counted from, given that of the working directory. -/
def origin (workingDirectory : List String) (p : Path) : List String :=
  if p.start = .workingDirectory then workingDirectory else []

/-- Whether files can have the names of a path: none of them holds a NUL. -/
def isNameable (p : Path) : Bool :=
  p.parts.all fun part => !part.toList.contains '\x00'

/-- The path without its last name. -/
def parent (p : Path) : Path :=
  { p with parts := p.parts.dropLast }

/-- The path to an entry of a directory. -/
def child (p : Path) (name : String) : Path :=
  { p with parts := p.parts ++ [name] }

/-- The names from the root on, where two points undo the name in front of them. -/
def resolved (workingDirectory : List String) (p : Path) : List String :=
  p.parts.foldl (fun place part => if part = ".." then place.dropLast else place ++ [part])
    (p.origin workingDirectory)

end Path

/-- A name without its last suffix. A point at either end of the name begins none. -/
def stemOf (name : String) : String :=
  let reversed := name.toList.reverse
  match reversed.dropWhile (· ≠ '.') with
  | []         => name
  | _ :: front =>
    if front.isEmpty || reversed.head? = some '.' then name else String.ofList front.reverse

end NoticeLedger

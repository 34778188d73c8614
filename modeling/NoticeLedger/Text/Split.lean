import NoticeLedger.Text

/-!
# Cutting and line ends

A list is cut at every occurrence of a separator. In texts that come from files, three spellings of
a line end count as one.
-/

namespace NoticeLedger

/-- The parts of a list between the occurrences of a separator, at least one. -/
def splitAt (separator : Char) : List Char → List (List Char)
  | []      => [[]]
  | c :: cs =>
    if c = separator then [] :: splitAt separator cs
    else
      match splitAt separator cs with
      | []      => [[c]]
      | p :: ps => (c :: p) :: ps

/-- A carriage return, with the line feed behind it if there is one, as a line feed. -/
def unifyLineEnds : List Char → List Char
  | []                => []
  | '\r' :: '\n' :: cs => '\n' :: unifyLineEnds cs
  | '\r' :: cs        => '\n' :: unifyLineEnds cs
  | c :: cs           => c :: unifyLineEnds cs

end NoticeLedger

import NoticeLedger.Text

/-!
# Blank characters

The characters that separate words and are trimmed from the ends of a message: the ASCII blanks,
the four information separators, NEXT LINE, and the spaces and line separators of Unicode. The
zero width space is not one of them.
-/

namespace NoticeLedger

/-- A blank character. -/
def isBlank (c : Char) : Bool :=
  let n := c.toNat
  (9 ≤ n && n ≤ 13) || (28 ≤ n && n ≤ 32) || n == 0x85 || n == 0xA0 || n == 0x1680 ||
    (0x2000 ≤ n && n ≤ 0x200A) || n == 0x2028 || n == 0x2029 || n == 0x202F || n == 0x205F ||
    n == 0x3000

/-- A list without what satisfies `p` at either end. -/
def trimWhere {α : Type} (p : α → Bool) (xs : List α) : List α :=
  ((xs.dropWhile p).reverse.dropWhile p).reverse

/-- The text without the blanks at either end. -/
def Text.trim (t : Text) : Text :=
  trimWhere (fun x => x.char?.any isBlank) t

end NoticeLedger

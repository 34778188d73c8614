/-!
# Texts

A text is a list of symbols. A symbol is a character or a surrogate that stands without its
partner, as an escape in a JSON document can leave it; so texts are exactly the finite sequences
of code points. They are ordered by code point, and the order is total, transitive and
antisymmetric (`Text.le_total`, `Text.le_trans`, `Text.le_antisymm`).
-/

namespace NoticeLedger

/-! ### Symbols -/

/-- One code point: a character, or the surrogate `0xD800 + s` without its partner. -/
inductive Symbol where
  | char (c : Char)
  | surrogate (s : Fin 2048)
  deriving DecidableEq, Repr, Inhabited

namespace Symbol

/-- The number of the code point. -/
def codePoint : Symbol → Nat
  | char c      => c.toNat
  | surrogate s => 0xD800 + s.val

@[simp] theorem codePoint_char (c : Char) : (char c).codePoint = c.toNat := rfl

@[simp] theorem codePoint_surrogate (s : Fin 2048) :
    (surrogate s).codePoint = 0xD800 + s.val := rfl

theorem toNat_ne_surrogate (c : Char) (s : Fin 2048) : c.toNat ≠ 0xD800 + s.val := by
  have h : c.toNat < 0xD800 ∨ (0xDFFF < c.toNat ∧ c.toNat < 0x110000) := c.valid
  omega

/-- No character is a surrogate, so the number tells the symbol. -/
theorem codePoint_inj {a b : Symbol} (h : a.codePoint = b.codePoint) : a = b := by
  match a, b with
  | char c, char d           => exact congrArg char (Char.toNat_inj.1 h)
  | surrogate s, surrogate t => simp only [codePoint_surrogate] at h; congr; omega
  | char c, surrogate s      => exact absurd h (toNat_ne_surrogate c s)
  | surrogate s, char c      => exact absurd h.symm (toNat_ne_surrogate c s)

/-- The symbol of a code point. -/
def ofCodePoint (n : Nat) : Symbol :=
  if h : 0xD800 ≤ n ∧ n < 0xE000 then surrogate ⟨n - 0xD800, by omega⟩ else char (Char.ofNat n)

/-- The character, unless the symbol is a surrogate. -/
def char? : Symbol → Option Char
  | char c      => some c
  | surrogate _ => none

@[simp] theorem char?_char (c : Char) : (char c).char? = some c := rfl

@[simp] theorem char?_surrogate (s : Fin 2048) : (surrogate s).char? = none := rfl

end Symbol

/-! ### Texts -/

/-- A finite sequence of code points. -/
abbrev Text := List Symbol

namespace Text

/-- The text of a string. -/
def ofString (s : String) : Text :=
  s.toList.map .char

/-- The string with the same code points, if no surrogate stands alone. -/
def toString? (t : Text) : Option String :=
  (t.mapM Symbol.char?).map String.ofList

instance : Coe String Text := ⟨ofString⟩

/-- The texts in order, with a separator between neighbours. -/
def join (separator : Text) : List Text → Text
  | []      => []
  | [t]     => t
  | t :: ts => t ++ separator ++ join separator ts

/-! ### Order -/

/-- Strictly before, by code point. -/
def lt : Text → Text → Bool
  | _, []          => false
  | [], _ :: _     => true
  | a :: s, b :: t => a.codePoint < b.codePoint || (a.codePoint == b.codePoint && lt s t)

/-- At or before, by code point. -/
def le (s t : Text) : Bool :=
  !lt t s

@[simp] theorem lt_nil (s : Text) : lt s [] = false := by cases s <;> rfl

@[simp] theorem nil_lt_cons (b : Symbol) (t : Text) : lt [] (b :: t) = true := rfl

theorem cons_lt_cons (a b : Symbol) (s t : Text) :
    lt (a :: s) (b :: t) = true ↔
      a.codePoint < b.codePoint ∨ (a.codePoint = b.codePoint ∧ lt s t = true) := by
  simp [lt]

theorem lt_irrefl (s : Text) : lt s s = false := by
  induction s with
  | nil => rfl
  | cons a s ih => simp [lt, ih]

theorem lt_trans {s t u : Text} (hst : lt s t = true) (htu : lt t u = true) : lt s u = true := by
  induction s generalizing t u with
  | nil =>
    cases u with
    | nil => simp at htu
    | cons => rfl
  | cons a s ih =>
    cases t with
    | nil => simp at hst
    | cons b t =>
      cases u with
      | nil => simp at htu
      | cons c u =>
        rw [cons_lt_cons] at hst htu ⊢
        rcases hst with h | ⟨h, hs⟩ <;> rcases htu with k | ⟨k, ht⟩
        · exact .inl (by omega)
        · exact .inl (by omega)
        · exact .inl (by omega)
        · exact .inr ⟨by omega, ih hs ht⟩

/-- Of two texts, one is before the other or they are equal. -/
theorem lt_trichotomy (s t : Text) : lt s t = true ∨ s = t ∨ lt t s = true := by
  induction s generalizing t with
  | nil => cases t <;> simp
  | cons a s ih =>
    cases t with
    | nil => simp
    | cons b t =>
      simp only [cons_lt_cons]
      rcases Nat.lt_trichotomy a.codePoint b.codePoint with h | h | h
      · exact .inl (.inl h)
      · rcases ih t with k | k | k
        · exact .inl (.inr ⟨h, k⟩)
        · exact .inr (.inl (by rw [Symbol.codePoint_inj h, k]))
        · exact .inr (.inr (.inr ⟨h.symm, k⟩))
      · exact .inr (.inr (.inl h))

theorem le_total (s t : Text) : (le s t || le t s) = true := by
  simp only [le, Bool.or_eq_true, Bool.not_eq_true']
  cases h : lt t s with
  | false => exact .inl rfl
  | true =>
    exact .inr (Bool.eq_false_iff.2 fun k => by simpa [lt_irrefl] using lt_trans k h)

theorem le_antisymm {s t : Text} (hst : le s t = true) (hts : le t s = true) : s = t := by
  simp only [le, Bool.not_eq_true'] at hst hts
  rcases lt_trichotomy s t with h | h | h
  · simp [h] at hts
  · exact h
  · simp [h] at hst

theorem le_trans {s t u : Text} (hst : le s t = true) (htu : le t u = true) : le s u = true := by
  simp only [le, Bool.not_eq_true'] at hst htu ⊢
  refine Bool.eq_false_iff.2 fun h => ?_
  rcases lt_trichotomy s t with k | rfl | k
  · simp [lt_trans h k] at htu
  · simp [h] at htu
  · simp [k] at hst

end Text

/-! ### Strings -/

/-- At or before, by code point. -/
def stringLe (a b : String) : Bool :=
  Text.le (Text.ofString a) (Text.ofString b)

/-- Strings in order. -/
def sortStrings (ss : List String) : List String :=
  ss.mergeSort stringLe

/-- The members of a list in order of their first occurrence, each once. -/
def distinct {α : Type} [DecidableEq α] : List α → List α
  | []      => []
  | x :: xs => x :: (distinct xs).filter (· ≠ x)

end NoticeLedger

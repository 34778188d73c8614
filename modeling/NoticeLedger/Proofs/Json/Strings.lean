import NoticeLedger.Json.StringLiteral
import NoticeLedger.Json.Writer

/-!
# Strings that are written and read back

Each symbol is written as itself or as an escape, and the reader takes either back to the symbol.
Over the code points of Unicode every string is therefore read back whole, surrogates that stand
alone included, and what stands behind its closing quote is left. Over ASCII a character beyond the
sixteen-bit units is written as two escapes, which are read as one character; so what is to be read
back must hold no surrogates of its own (`Json.readString_flatMap_writeSymbol`).
-/

namespace NoticeLedger

namespace Symbol

theorem ofCodePoint_codePoint (x : Symbol) : ofCodePoint x.codePoint = x := by
  apply codePoint_inj
  rw [ofCodePoint]
  split
  · rename_i h
    rw [codePoint_surrogate]
    exact Nat.add_sub_of_le h.1
  · rename_i h
    cases x with
    | char c => rw [codePoint_char, codePoint_char, Char.ofNat_toNat]
    | surrogate s =>
      exfalso
      apply h
      rw [codePoint_surrogate]
      exact ⟨Nat.le_add_right .., by omega⟩

end Symbol

namespace Json

/-! ### Escapes -/

theorem hexValue?_hexDigit {n : Nat} (h : n < 16) : hexValue? (hexDigit n) = some n := by
  have hall : ∀ m : Fin 16, hexValue? (hexDigit m) = some m.val := by decide
  exact hall ⟨n, h⟩

theorem unit?_digits {a b c d : Nat} (ha : a < 16) (hb : b < 16) (hc : c < 16) (hd : d < 16) :
    unit? (.char (hexDigit a)) (.char (hexDigit b)) (.char (hexDigit c)) (.char (hexDigit d))
      = some (a * 4096 + b * 256 + c * 16 + d) := by
  simp [unit?, hexValue?_hexDigit ha, hexValue?_hexDigit hb, hexValue?_hexDigit hc,
    hexValue?_hexDigit hd]

/-- The digits of an escape name its unit. -/
theorem readUnit?_unitEscape {n : Nat} (h : n < 0x10000) (x : Symbol) (rest : Text) :
    readUnit? (((unitEscape n).drop 2).map .char ++ x :: rest) = some (n, x :: rest) := by
  have hdigit : ∀ m, m % 16 < 16 := fun m => Nat.mod_lt m (by decide)
  show (unit? _ _ _ _).map _ = _
  rw [unit?_digits (hdigit _) (hdigit _) (hdigit _) (hdigit _), Option.map_some]
  have hsum : n / 4096 % 16 * 4096 + n / 256 % 16 * 256 + n / 16 % 16 * 16 + n % 16 = n := by
    omega
  rw [hsum]

/-- A unit that begins no pair is read back, whatever follows. -/
theorem readUnicodeEscape_unitEscape {n : Nat} (h : n < 0x10000) (hhigh : isHighUnit n = false)
    (x : Symbol) (rest : Text) :
    readUnicodeEscape (((unitEscape n).drop 2).map .char ++ x :: rest)
      = .ok (.ofCodePoint n, x :: rest) := by
  rw [readUnicodeEscape, readUnit?_unitEscape h]
  simp only [hhigh, Bool.false_eq_true, if_false]

/-- A high unit and the low unit behind it are read as one code point, whatever follows. -/
theorem readUnicodeEscape_pair {high low : Nat} (hhigh : isHighUnit high = true)
    (hlow : isLowUnit low = true) (x : Symbol) (rest : Text) :
    readUnicodeEscape (((unitEscape high).drop 2 ++ unitEscape low).map .char ++ x :: rest)
      = .ok (.ofCodePoint (pairPoint high low), x :: rest) := by
  have hhigh' : high < 0x10000 := by
    simp only [isHighUnit, Bool.and_eq_true, decide_eq_true_eq] at hhigh
    omega
  have hlow' : low < 0x10000 := by
    simp only [isLowUnit, Bool.and_eq_true, decide_eq_true_eq] at hlow
    omega
  have hbehind : unicodeEscape? ((unitEscape low).map .char ++ x :: rest)
      = some (((unitEscape low).drop 2).map .char ++ x :: rest) := rfl
  obtain ⟨y, tail, htail⟩ : ∃ y tail, (unitEscape low).map .char ++ x :: rest = y :: tail :=
    ⟨_, _, rfl⟩
  rw [List.map_append, List.append_assoc, htail, readUnicodeEscape, readUnit?_unitEscape hhigh',
    ← htail]
  simp only [hhigh, if_true, hbehind, readUnit?_unitEscape hlow', hlow]

/-- The escape of a code point is read back, unless the code point is a unit that begins a pair. -/
theorem readUnicodeEscape_pointEscape {n : Nat} (h : n < 0x110000) (hhigh : isHighUnit n = false)
    (x : Symbol) (rest : Text) :
    readUnicodeEscape (((pointEscape n).drop 2).map .char ++ x :: rest)
      = .ok (.ofCodePoint n, x :: rest) := by
  by_cases hunit : n < 0x10000
  · rw [pointEscape, if_pos hunit]
    exact readUnicodeEscape_unitEscape hunit hhigh x rest
  · have hpoint :
        pairPoint (0xD800 + (n - 0x10000) / 0x400) (0xDC00 + (n - 0x10000) % 0x400) = n := by
      unfold pairPoint
      omega
    have hfirst : isHighUnit (0xD800 + (n - 0x10000) / 0x400) = true := by
      simp only [isHighUnit, Bool.and_eq_true, decide_eq_true_eq]
      omega
    have hsecond : isLowUnit (0xDC00 + (n - 0x10000) % 0x400) = true := by
      simp only [isLowUnit, Bool.and_eq_true, decide_eq_true_eq]
      omega
    rw [pointEscape, if_neg hunit]
    have hread := readUnicodeEscape_pair hfirst hsecond x rest
    rwa [hpoint] at hread

/-! ### Symbols -/

variable (opening : Text)

theorem readString_quote (rest : Text) :
    readString opening (.char '\x22' :: rest) = .ok ([], rest) := by
  rw [readString.eq_def]
  simp

theorem readString_escaped {e c : Char} (he : e ≠ 'u') (h : escaped? e = some c) (rest : Text) :
    readString opening (.char '\\' :: .char e :: rest)
      = (readString opening rest).map (consSymbol (.char c)) := by
  rw [readString.eq_def]
  simp [he, h]

theorem readString_unicodeEscape {s : Text} {escape : Symbol × Text}
    (h : readUnicodeEscape s = .ok escape) :
    readString opening (.char '\\' :: .char 'u' :: s)
      = (readString opening escape.2).map (consSymbol escape.1) := by
  rw [readString.eq_def]
  simp only [Symbol.char.injEq, Char.reduceEq, if_false, if_true]
  split
  · rename_i stop hstop
    rw [h] at hstop
    cases hstop
  · rename_i escape' hescape
    rw [h] at hescape
    cases hescape
    rfl

theorem readString_plain {x : Symbol} (hquote : x ≠ .char '\x22') (hback : x ≠ .char '\\')
    (h : 0x20 ≤ x.codePoint) (rest : Text) :
    readString opening (x :: rest) = (readString opening rest).map (consSymbol x) := by
  rw [readString.eq_def]
  simp only [hquote, hback, if_false, Nat.not_lt.2 h]

/-- The symbols that are read back where they are written over an alphabet: over ASCII no
surrogates. -/
def Alphabet.Spells (alphabet : Alphabet) (x : Symbol) : Prop :=
  alphabet = .ascii → ∃ c, x = .char c

variable {alphabet : Alphabet}

/-- The text of a string has no surrogates, so it is read back from whatever it is written over. -/
theorem spells_of_mem_ofString {s : String} {x : Symbol}
    (hx : x ∈ Text.ofString s) : alphabet.Spells x := by
  obtain ⟨c, -, rfl⟩ := List.mem_map.mp hx
  exact fun _ => ⟨c, rfl⟩

/-- What is not written as it is has an escape that is read back. -/
theorem readUnicodeEscape_of_not_isPlain {x : Symbol} (hx : alphabet.Spells x)
    (hplain : ¬alphabet.isPlain x.codePoint = true) (y : Symbol) (rest : Text) :
    readUnicodeEscape (((pointEscape x.codePoint).drop 2).map .char ++ y :: rest)
      = .ok (x, y :: rest) := by
  have hbound : x.codePoint < 0x110000 ∧ isHighUnit x.codePoint = false := by
    cases alphabet with
    | unicode =>
      have hlow : x.codePoint < 0x20 := Nat.not_le.1 fun h => hplain (decide_eq_true h)
      refine ⟨by omega, ?_⟩
      rw [isHighUnit, decide_eq_false (by omega), Bool.false_and]
    | ascii =>
      obtain ⟨c, rfl⟩ := hx rfl
      have hvalid : c.toNat < 0xD800 ∨ (0xDFFF < c.toNat ∧ c.toNat < 0x110000) := c.valid
      rw [Symbol.codePoint_char]
      refine ⟨by omega, ?_⟩
      rw [isHighUnit, Bool.and_eq_false_iff, decide_eq_false_iff_not, decide_eq_false_iff_not]
      omega
  have hread := readUnicodeEscape_pointEscape hbound.1 hbound.2 y rest
  rwa [Symbol.ofCodePoint_codePoint] at hread

theorem le_of_isPlain {n : Nat} (h : alphabet.isPlain n = true) : 0x20 ≤ n := by
  cases alphabet with
  | unicode => exact of_decide_eq_true h
  | ascii => exact of_decide_eq_true (Bool.and_eq_true_iff.mp h).1

/-- A symbol that is written is read back. -/
theorem readString_writeSymbol {x : Symbol} (hx : alphabet.Spells x) (y : Symbol) (rest : Text) :
    readString opening (writeSymbol alphabet x ++ y :: rest)
      = (readString opening (y :: rest)).map (consSymbol x) := by
  unfold writeSymbol
  split
  case h_8 hquote hback _ _ _ _ _ =>
    by_cases hplain : alphabet.isPlain x.codePoint = true
    · rw [if_pos hplain]
      exact readString_plain opening hquote hback (le_of_isPlain hplain) _
    · have hmarks : (pointEscape x.codePoint).map Symbol.char
          = .char '\\' :: .char 'u' :: ((pointEscape x.codePoint).drop 2).map .char := by
        rw [pointEscape]
        split <;> rfl
      rw [if_neg hplain, hmarks]
      exact readString_unicodeEscape opening (readUnicodeEscape_of_not_isPlain hx hplain y rest)
  all_goals exact readString_escaped opening (by decide) rfl _

/-! ### Strings -/

/-- What is written between quotes is read back up to the closing one. -/
theorem readString_flatMap_writeSymbol {t : Text} (ht : ∀ x ∈ t, alphabet.Spells x)
    (rest : Text) :
    readString opening (t.flatMap (writeSymbol alphabet) ++ .char '\x22' :: rest)
      = .ok (t, rest) := by
  induction t with
  | nil => exact readString_quote opening rest
  | cons x t ih =>
    rw [List.flatMap_cons, List.append_assoc]
    obtain ⟨y, tail, htail⟩ : ∃ y tail,
        t.flatMap (writeSymbol alphabet) ++ .char '\x22' :: rest = y :: tail :=
      List.exists_cons_of_ne_nil (List.append_ne_nil_of_right_ne_nil _ nofun)
    rw [htail, readString_writeSymbol opening (ht x (List.mem_cons_self ..)), ← htail,
      ih fun z hz => ht z (List.mem_cons_of_mem x hz)]
    rfl

end Json

end NoticeLedger

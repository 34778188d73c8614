import NoticeLedger.Json.Fault

/-!
# Strings in JSON documents

The body of a string, from behind its opening quote to its closing one (`Json.readString`). An
escape of four hexadecimal digits names a 16-bit unit; a high and a low unit that follow each
other name one character, any other surrogate stands alone. What is left after a string is always
shorter (`Json.length_of_readString`).
-/

namespace NoticeLedger.Json

/-- The value of a hexadecimal digit in either case. -/
def hexValue? (c : Char) : Option Nat :=
  if '0' ≤ c ∧ c ≤ '9' then some (c.toNat - '0'.toNat)
  else if 'a' ≤ c ∧ c ≤ 'f' then some (c.toNat - 'a'.toNat + 10)
  else if 'A' ≤ c ∧ c ≤ 'F' then some (c.toNat - 'A'.toNat + 10)
  else none

/-- The unit named by four hexadecimal digits. -/
def unit? (a b c d : Symbol) : Option Nat := do
  let a ← a.char? >>= hexValue?
  let b ← b.char? >>= hexValue?
  let c ← c.char? >>= hexValue?
  let d ← d.char? >>= hexValue?
  return a * 4096 + b * 256 + c * 16 + d

/-- The symbol that a letter stands for behind a backslash. -/
def escaped? : Char → Option Char
  | '\x22' => some '\x22'
  | '\\'   => some '\\'
  | '/'    => some '/'
  | 'b'    => some '\x08'
  | 'f'    => some '\x0c'
  | 'n'    => some '\n'
  | 'r'    => some '\r'
  | 't'    => some '\t'
  | _      => none

/-- The first unit of a pair. -/
def isHighUnit (n : Nat) : Bool :=
  0xD800 ≤ n && n < 0xDC00

/-- The second unit of a pair. -/
def isLowUnit (n : Nat) : Bool :=
  0xDC00 ≤ n && n < 0xE000

/-- The code point of a pair of units. -/
def pairPoint (high low : Nat) : Nat :=
  0x10000 + (high - 0xD800) * 0x400 + (low - 0xDC00)

/-- The unit named by the four digits in front, if a symbol is left behind them: no string ends
with its last digit. -/
def readUnit? : Text → Option (Nat × Text)
  | a :: b :: c :: d :: e :: rest => (unit? a b c d).map (·, e :: rest)
  | _                             => none

/-- What is behind the `\u` of an escape, if at least five symbols are. -/
def unicodeEscape? : Text → Option Text
  | .char '\\' :: .char 'u' :: s => if (s.drop 4).isEmpty then none else some s
  | _                            => none

/-- The symbol of an escape, from behind its `u`. A high unit looks for its partner in the escape
that follows. -/
def readUnicodeEscape (s : Text) : Except Stop (Symbol × Text) :=
  match readUnit? s with
  | none              => .error (.fault .unicodeEscapeInvalid (s.length + 1))
  | some (high, rest) =>
    if isHighUnit high then
      match unicodeEscape? rest with
      | none        => .ok (.ofCodePoint high, rest)
      | some behind =>
        match readUnit? behind with
        | none              => .error (.fault .unicodeEscapeInvalid (behind.length + 1))
        | some (low, rest') =>
          if isLowUnit low then .ok (.ofCodePoint (pairPoint high low), rest')
          else .ok (.ofCodePoint high, rest)
    else .ok (.ofCodePoint high, rest)

theorem length_of_readUnit? {s r : Text} {n : Nat} (h : readUnit? s = some (n, r)) :
    r.length + 4 = s.length := by
  match s with
  | a :: b :: c :: d :: e :: rest =>
    obtain ⟨_, _, h⟩ := Option.map_eq_some_iff.1 h
    cases h
    simp
  | [] | [_] | [_, _] | [_, _, _] | [_, _, _, _] => simp [readUnit?] at h

theorem length_of_unicodeEscape? {s r : Text} (h : unicodeEscape? s = some r) :
    r.length < s.length := by
  unfold unicodeEscape? at h
  split at h
  · split at h
    · cases h
    · cases h; simp only [List.length_cons]; omega
  · cases h

theorem length_of_readUnicodeEscape {s : Text} {read : Symbol × Text}
    (h : readUnicodeEscape s = .ok read) : read.2.length < s.length := by
  unfold readUnicodeEscape at h
  split at h
  · cases h
  · rename_i high rest hu
    have hrest := length_of_readUnit? hu
    split at h
    · split at h
      · obtain rfl := Except.ok.inj h
        simp only
        omega
      · rename_i behind hb
        have hbehind := length_of_unicodeEscape? hb
        split at h
        · cases h
        · rename_i low rest' hl
          have := length_of_readUnit? hl
          split at h <;> obtain rfl := Except.ok.inj h <;> simp only <;> omega
    · obtain rfl := Except.ok.inj h
      simp only
      omega

/-- Put a symbol in front of what has been read. -/
def consSymbol (x : Symbol) (read : Text × Text) : Text × Text :=
  (x :: read.1, read.2)

/-- The symbols of a string up to its closing quote, and what follows that. An unterminated string is
reported where `opening` begins, at its opening quote. -/
def readString (opening s : Text) : Except Stop (Text × Text) :=
  match s with
  | []        => .error (.fault .stringUnterminated opening.length)
  | x :: rest =>
    if x = .char '\x22' then .ok ([], rest)
    else if x = .char '\\' then
      match rest with
      | []          => .error (.fault .stringUnterminated opening.length)
      | e :: behind =>
        if e = .char 'u' then
          match _h : readUnicodeEscape behind with
          | .error stop  => .error stop
          | .ok escape   => (readString opening escape.2).map (consSymbol escape.1)
        else
          match e.char? >>= escaped? with
          | none   => .error (.fault .escapeInvalid s.length)
          | some c => (readString opening behind).map (consSymbol (.char c))
    else if x.codePoint < 0x20 then .error (.fault .controlCharacter s.length)
    else (readString opening rest).map (consSymbol x)
termination_by s.length
decreasing_by
  · have := length_of_readUnicodeEscape _h
    simp only [List.length_cons]
    omega
  · simp only [List.length_cons]
    omega
  · simp only [List.length_cons]
    omega

/-- A string uses up at least its closing quote. -/
theorem length_of_readString {opening s : Text} {read : Text × Text}
    (h : readString opening s = .ok read) : read.2.length < s.length := by
  fun_induction readString opening s generalizing read with
  | case1 => cases h
  | case2 => cases h; simp
  | case3 => cases h
  | case4 => cases h
  | case5 behind escape he hq ih =>
    obtain ⟨u, hu, rfl⟩ := exists_of_map_ok h
    have := length_of_readUnicodeEscape he
    have := ih hu
    simp only [consSymbol, List.length_cons]
    omega
  | case6 => cases h
  | case7 e behind he c hc hq ih =>
    obtain ⟨u, hu, rfl⟩ := exists_of_map_ok h
    have := ih hu
    simp only [consSymbol, List.length_cons]
    omega
  | case8 => cases h
  | case9 x rest hq hb hc ih =>
    obtain ⟨u, hu, rfl⟩ := exists_of_map_ok h
    have := ih hu
    simp only [consSymbol, List.length_cons]
    omega

end NoticeLedger.Json

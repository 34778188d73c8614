import NoticeLedger.Json
import NoticeLedger.Json.Fault
import NoticeLedger.Decimal

/-!
# Numbers in JSON documents

A number is a whole part without a needless zero, then an optional fraction and an optional power
of ten. A part that is not complete is not part of the number: `1.` is the number `1` and a point
behind it. A number with neither fraction nor power is an integer, any other a double.
-/

namespace NoticeLedger.Json

/-- The digits in front of a text, and what is behind them. -/
def spanDigits : Text → List Char × Text
  | []     => ([], [])
  | x :: s =>
    match x.char? with
    | none   => ([], x :: s)
    | some c => if c.isDigit then (c :: (spanDigits s).1, (spanDigits s).2) else ([], x :: s)

theorem length_of_spanDigits (s : Text) :
    (spanDigits s).1.length + (spanDigits s).2.length = s.length := by
  induction s with
  | nil => rfl
  | cons x s ih =>
    unfold spanDigits
    split
    · simp
    · split
      · simp only [List.length_cons]; omega
      · simp

/-- The whole part of a number, and what is behind it. A leading zero stands alone. -/
def readWhole : Text → List Char × Text
  | .char '0' :: s => (['0'], s)
  | s              => spanDigits s

/-- The digits of a fraction, none if there is no point with a digit behind it. -/
def readFraction (s : Text) : List Char × Text :=
  match s with
  | .char '.' :: rest =>
    match spanDigits rest with
    | ([], _)      => ([], s)
    | (ds, behind) => (ds, behind)
  | _ => ([], s)

/-- The sign of a power of ten, `true` for a minus. -/
def readSign : Text → Bool × Text
  | .char '-' :: s => (true, s)
  | .char '+' :: s => (false, s)
  | s              => (false, s)

/-- The power of ten, if it is complete. -/
def readPower (s : Text) : Option Int × Text :=
  match s with
  | .char c :: rest =>
    if c = 'e' ∨ c = 'E' then
      let (negative, unsigned) := readSign rest
      match spanDigits unsigned with
      | ([], _)      => (none, s)
      | (ds, behind) =>
        (some (if negative then -(natOfDigits ds : Int) else natOfDigits ds), behind)
    else (none, s)
  | _ => (none, s)

/-- The most digits of an integer that is converted. -/
def maxIntegerDigits : Nat := 4300

/-- The value of a number with the given parts. -/
def numberOf (negative : Bool) (whole fraction : List Char) (power : Option Int) :
    Except Stop Json :=
  if fraction.isEmpty && power.isNone then
    if maxIntegerDigits < whole.length then .error .integerTooLong
    else
      let n : Int := natOfDigits whole
      .ok (.int (if negative then -n else n))
  else
    let x := (Decimal.mk (natOfDigits (whole ++ fraction))
      (power.getD 0 - fraction.length)).toFloat
    .ok (.float (if negative then -x else x))

/-- An unsigned number, if one stands in front of the text. -/
def readUnsigned (negative : Bool) (s : Text) : Option (Except Stop Json × Text) :=
  let whole := readWhole s
  if whole.1.isEmpty then none
  else
    let fraction := readFraction whole.2
    let power := readPower fraction.2
    some (numberOf negative whole.1 fraction.1 power.1, power.2)

/-- A number, if one stands in front of the text. -/
def readNumber (s : Text) : Option (Except Stop Json × Text) :=
  match s with
  | .char '-' :: rest => readUnsigned true rest
  | _                 => readUnsigned false s

/-! ### What is left -/

theorem length_of_readWhole (s : Text) :
    (readWhole s).1.length + (readWhole s).2.length = s.length := by
  unfold readWhole
  split
  · simp only [List.length_cons, List.length_nil]; omega
  · exact length_of_spanDigits s

theorem length_of_readFraction (s : Text) : (readFraction s).2.length ≤ s.length := by
  unfold readFraction
  split
  · rename_i rest
    have h := length_of_spanDigits rest
    split
    · exact Nat.le_refl _
    · rename_i heq
      rw [heq] at h
      simp only [List.length_cons] at h ⊢
      omega
  · exact Nat.le_refl _

theorem length_of_readSign (s : Text) : (readSign s).2.length ≤ s.length := by
  unfold readSign
  split <;> simp

theorem length_of_readPower (s : Text) : (readPower s).2.length ≤ s.length := by
  unfold readPower
  split
  · rename_i c rest
    split
    · have hs := length_of_readSign rest
      have h := length_of_spanDigits (readSign rest).2
      simp only
      split
      · exact Nat.le_refl _
      · rename_i heq
        rw [heq] at h
        simp only [List.length_cons] at h ⊢
        omega
    · exact Nat.le_refl _
  · exact Nat.le_refl _

theorem length_of_readUnsigned {negative : Bool} {s : Text} {read : Except Stop Json × Text}
    (h : readUnsigned negative s = some read) : read.2.length < s.length := by
  have hw := length_of_readWhole s
  have hf := length_of_readFraction (readWhole s).2
  have hp := length_of_readPower (readFraction (readWhole s).2).2
  rw [readUnsigned] at h
  simp only at h
  split at h
  · cases h
  · rename_i hne
    obtain rfl := Option.some.inj h
    have : 0 < (readWhole s).1.length := List.length_pos_iff.2 (by simpa using hne)
    simp only
    omega

/-- A number uses up at least one symbol. -/
theorem length_of_readNumber {s : Text} {read : Except Stop Json × Text}
    (h : readNumber s = some read) : read.2.length < s.length := by
  unfold readNumber at h
  split at h
  · have := length_of_readUnsigned h
    simp only [List.length_cons]
    omega
  · exact length_of_readUnsigned h

end NoticeLedger.Json

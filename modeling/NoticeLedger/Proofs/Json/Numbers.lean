import NoticeLedger.Json.Reader
import NoticeLedger.Json.Writer
import NoticeLedger.Proofs.Decimal.Numerals
import NoticeLedger.Value.Shown

/-!
# Numbers that are written and read back

The reader takes a numeral apart into the digits in front of its point, those behind it, and its
power of ten, provided that what follows cannot be part of a number (`Json.readScalar_signed`).
An integer is read back if its digits are not too many, and a finite double if reading its exact
text gives the double.
-/

namespace NoticeLedger.Json

/-! ### What follows a value -/

/-- What may follow a value inside a document without blanks: nothing, a comma or a closing
bracket. -/
def EndsValue (rest : Text) : Prop :=
  ∀ x ∈ rest.head?, x ∈ [.char ',', .char ']', .char '\x7d']

theorem endsValue_nil : EndsValue [] := nofun

theorem endsValue_cons {c : Char} (h : c ∈ [',', ']', '\x7d']) (rest : Text) :
    EndsValue (.char c :: rest) := by
  intro x hx
  obtain rfl := Option.some.inj hx
  exact List.mem_map_of_mem h

/-- The first symbol is no digit. -/
def NoDigitFirst (s : Text) : Prop :=
  ∀ c, s.head? = some (.char c) → c.isDigit = false

theorem EndsValue.noDigitFirst {rest : Text} (h : EndsValue rest) : NoDigitFirst rest := by
  intro c hc
  have hall : ∀ d ∈ [',', ']', '\x7d'], d.isDigit = false := by simp
  apply hall
  simpa using h _ hc

theorem EndsValue.ne_char {rest : Text} (h : EndsValue rest) {c : Char}
    (hc : c ∉ [',', ']', '\x7d']) (s : Text) : rest ≠ .char c :: s := by
  rintro rfl
  apply hc
  simpa using h _ rfl

theorem noDigitFirst_append {cs : List Char} {rest : Text} (h : ∀ c ∈ cs.head?, c.isDigit = false)
    (hrest : NoDigitFirst rest) : NoDigitFirst (cs.map .char ++ rest) := by
  cases cs with
  | nil => exact hrest
  | cons c cs =>
    intro d hd
    obtain rfl : c = d := by simpa using hd
    exact h c rfl

/-! ### The parts of a number -/

theorem spanDigits_append {ds : List Char} {rest : Text} (hds : ∀ c ∈ ds, c.isDigit = true)
    (hrest : NoDigitFirst rest) : spanDigits (ds.map .char ++ rest) = (ds, rest) := by
  induction ds with
  | nil =>
    cases rest with
    | nil => rfl
    | cons x rest =>
      cases x with
      | char c => simp [spanDigits, hrest c rfl]
      | surrogate s => rfl
  | cons d ds ih =>
    have hd := hds d (List.mem_cons_self ..)
    have htail := ih fun c hc => hds c (List.mem_cons_of_mem _ hc)
    simp [spanDigits, hd, htail]

variable {n : Numeral} (h : n.IsProper) {rest : Text}

include h

theorem readWhole_whole (hrest : NoDigitFirst rest) :
    readWhole (n.whole.map .char ++ rest) = (n.whole, rest) := by
  unfold readWhole
  split
  · rename_i s hs
    obtain ⟨c, cs, hcons⟩ := List.exists_cons_of_ne_nil h.whole_ne
    have hzero := h.zero
    rw [hcons] at hs hzero
    obtain rfl : c = '0' := by simpa using (List.cons.inj hs).1
    have hnil := hzero rfl
    rw [hnil] at hs
    rw [hcons, hnil, ← (List.cons.inj hs).2]
    rfl
  · exact spanDigits_append h.whole hrest

theorem readFraction_pointPart (hrest : NoDigitFirst rest)
    (hpoint : n.fraction = [] → ∀ s, rest ≠ .char '.' :: s) :
    readFraction (n.pointPart.map .char ++ rest) = (n.fraction, rest) := by
  by_cases hf : n.fraction = []
  · rw [Numeral.pointPart, hf]
    show readFraction rest = ([], rest)
    unfold readFraction
    split
    · rename_i s
      exact absurd rfl (hpoint hf s)
    · rfl
  · have hspan := spanDigits_append h.fraction hrest
    rw [n.pointPart_of_ne hf, List.map_cons, List.cons_append]
    simp only [readFraction, hspan]

theorem readPower_powerPart (hrest : EndsValue rest) :
    readPower (n.powerPart.map .char ++ rest) = (n.exponent?, rest) := by
  rw [Numeral.powerPart, Numeral.exponent?]
  cases hp : n.power? with
  | none =>
    show readPower rest = (none, rest)
    unfold readPower
    split
    · rename_i c s
      split
      · rename_i hc
        rcases hc with rfl | rfl
        · exact absurd rfl (hrest.ne_char (by decide) s)
        · exact absurd rfl (hrest.ne_char (by decide) s)
      · rfl
    · rfl
  | some p =>
    obtain ⟨negative, ds⟩ := p
    obtain ⟨hne, hds⟩ := h.power _ hp
    have hspan := spanDigits_append hds hrest.noDigitFirst
    have hsign : readSign (.char (if negative then '-' else '+') :: (ds.map .char ++ rest))
        = (negative, ds.map .char ++ rest) := by
      cases negative <;> rfl
    obtain ⟨d, ds, rfl⟩ := List.exists_cons_of_ne_nil hne
    simp only [List.map_cons, List.cons_append] at hspan hsign
    simp [readPower, hsign, hspan]

/-! ### Numbers -/

theorem readUnsigned_text (negative : Bool) (hrest : EndsValue rest) :
    readUnsigned negative (n.text.map .char ++ rest)
      = some (numberOf negative n.whole n.fraction n.exponent?, rest) := by
  have hpower := readPower_powerPart h hrest
  have hpowerFirst := noDigitFirst_append n.isDigit_head?_powerPart hrest.noDigitFirst
  have hfraction := readFraction_pointPart h hpowerFirst fun _ s hs => by
    cases hp : n.powerPart with
    | nil =>
      rw [hp] at hs
      exact hrest.ne_char (by decide) s hs
    | cons c cs =>
      obtain rfl := Numeral.head?_powerPart (n := n) (c := c) (by rw [hp]; rfl)
      rw [hp] at hs
      cases hs
  have hfirst := noDigitFirst_append n.isDigit_head?_pointPart_append hrest.noDigitFirst
  have hwhole := readWhole_whole h hfirst
  rw [List.map_append, List.append_assoc] at hwhole
  have hne : n.whole.isEmpty = false := by simpa using h.whole_ne
  rw [Numeral.text, List.map_append, List.map_append, List.append_assoc, List.append_assoc]
  simp only [readUnsigned, hwhole, hfraction, hpower, hne, Bool.false_eq_true, if_false]

theorem readNumber_signed (negative : Bool) (hrest : EndsValue rest) :
    readNumber ((signed negative n.text).map .char ++ rest)
      = some (numberOf negative n.whole n.fraction n.exponent?, rest) := by
  have hread := readUnsigned_text h negative hrest
  cases negative with
  | true => exact hread
  | false =>
    obtain ⟨c, cs, hcons, hc⟩ := Numeral.exists_text_eq_cons h
    unfold readNumber
    split
    · rename_i s hs
      rw [signed, if_neg Bool.false_ne_true, hcons] at hs
      obtain rfl : c = '-' := by simpa using (List.cons.inj hs).1
      cases hc
    · exact hread

/-- No word begins like a number. -/
theorem readWord_signed (negative : Bool) :
    readWord ((signed negative n.text).map .char ++ rest) = none := by
  obtain ⟨c, cs, hcons, hc⟩ := Numeral.exists_text_eq_cons h
  have hne : ∀ d ∈ ['n', 't', 'f', 'N', 'I', '-'], d ≠ c := by
    intro d hd
    have hall : ∀ d ∈ ['n', 't', 'f', 'N', 'I', '-'], d.isDigit = false := by simp
    exact (ne_of_isDigit hc (hall d hd)).symm
  simp only [List.mem_cons, List.not_mem_nil, or_false, forall_eq_or_imp, forall_eq] at hne
  obtain ⟨hn, ht, hf, hN, hI, hminus⟩ := hne
  rw [signed, hcons]
  cases negative <;>
    simp [readWord, words, Text.ofString, hn, ht, hf, hN, hI, hminus]

/-- A numeral with a sign is read as the number with its parts. -/
theorem readScalar_signed (negative : Bool) (hrest : EndsValue rest) :
    readScalar ((signed negative n.text).map .char ++ rest)
      = (numberOf negative n.whole n.fraction n.exponent?).map (·, rest) := by
  rw [readScalar]
  rw [readWord_signed h, readNumber_signed h negative hrest]

omit h

/-! ### Integers and doubles -/

theorem isProper_toDigits (k : Nat) : Numeral.IsProper ⟨Nat.toDigits 10 k, [], none⟩ where
  whole := isDigit_of_mem_toDigits
  whole_ne := Nat.toDigits_ne_nil
  zero hhead := by
    have hk : k = 0 := Classical.byContradiction fun hk => head?_toDigits_ne hk hhead
    rw [hk]
    rfl
  fraction := nofun
  power := nofun

theorem intText_eq_signed (i : Int) :
    intText i = signed (i < 0) (Numeral.text ⟨Nat.toDigits 10 i.natAbs, [], none⟩) := by
  rw [Numeral.text, Numeral.pointPart, Numeral.powerPart, List.append_nil, List.append_nil]
  by_cases hi : i < 0 <;> simp [intText, signed, hi]

/-- An integer that is not too long is read back. -/
theorem readScalar_intText {i : Int} (hi : Value.isConvertible i = true) (hrest : EndsValue rest) :
    readScalar ((intText i).map .char ++ rest) = .ok (.int i, rest) := by
  have hlength : ¬maxIntegerDigits < (Nat.toDigits 10 i.natAbs).length :=
    Nat.not_lt.mpr (of_decide_eq_true hi)
  have hvalue : (if i < 0 then -((i.natAbs : Nat) : Int) else i.natAbs) = i := by
    split <;> omega
  have hnumber : numberOf (i < 0) (Nat.toDigits 10 i.natAbs) [] none = .ok (.int i) := by
    simp only [numberOf, List.isEmpty_nil, Option.isNone_none, Bool.and_self, if_true,
      if_neg hlength, natOfDigits_toDigits, decide_eq_true_eq, hvalue]
  rw [intText_eq_signed, readScalar_signed (isProper_toDigits _) _ hrest]
  show (numberOf _ _ [] none).map _ = _
  rw [hnumber]
  rfl

theorem json_double_eq_exact {x : Float} (h : x.isFinite = true) :
    Layout.json.double Binary.shortest x = Layout.exact.double Binary.shortest x := by
  obtain ⟨hnan, hinf⟩ := isNaN_of_isFinite h
  unfold Layout.double
  rw [hnan, hinf]
  rfl

/-- A finite double is read back if its exact text is read as the double. -/
theorem readScalar_double {x : Float} (hfinite : x.isFinite = true)
    (hexact : readDouble? (exactText x) = some x) (hrest : EndsValue rest) :
    readScalar ((Layout.json.double Binary.shortest x).map .char ++ rest)
      = .ok (.float x, rest) := by
  obtain ⟨m, ⟨hm, hdouble⟩, htext⟩ := exists_numeral_of_isFinite hfinite
  rw [exactText, htext, Numeral.readDouble?_signed hm] at hexact
  have hinteger : (m.fraction.isEmpty && m.exponent?.isNone) = false := by
    rcases hdouble with hf | hp
    · rw [List.isEmpty_eq_false_iff.mpr hf, Bool.false_and]
    · rw [Numeral.exponent?, Option.isNone_map, Option.isNone_eq_false_iff.mpr, Bool.and_false]
      exact Option.isSome_iff_ne_none.mpr hp
  rw [json_double_eq_exact hfinite, htext, readScalar_signed hm _ hrest, numberOf, hinteger]
  exact congrArg (fun y => (.ok (float y, rest) : Except Stop (Json × Text)))
    (Option.some.inj hexact)

end NoticeLedger.Json

import Mathlib.Algebra.Group.Nat.Defs
import Mathlib.Data.List.TakeDrop
import NoticeLedger.Decimal.Layout
import NoticeLedger.Decimal.Reading

/-!
# Numerals

A numeral is a number as it is written: digits in front of a point and behind it, and a power of
ten. The exact layout of a decimal is a numeral without a needless zero in front
(`Layout.exists_numeral`), and reading the numeral gives its parts (`Decimal.read?_text`).
-/

namespace NoticeLedger

/-! ### Digits -/

theorem natOfDigits_toDigits (n : Nat) : natOfDigits (Nat.toDigits 10 n) = n :=
  Nat.ofDigitChars_ten_toDigits

theorem natOfDigits_append (as bs : List Char) :
    natOfDigits (as ++ bs) = natOfDigits as * 10 ^ bs.length + natOfDigits bs := by
  rw [Nat.mul_comm]
  exact (Nat.ofDigitChars_append 0).trans Nat.ofDigitChars_eq_ofDigitChars_zero

theorem natOfDigits_replicate (k : Nat) : natOfDigits (List.replicate k '0') = 0 :=
  Nat.ofDigitChars_replicate_zero

theorem isDigit_of_mem_toDigits {n : Nat} : ∀ c ∈ Nat.toDigits 10 n, c.isDigit = true :=
  fun _ hc => Nat.isDigit_of_mem_toDigits (by decide) (by decide) hc

/-- Only zero is written with a zero in front. -/
theorem head?_toDigits_ne {n : Nat} (h : n ≠ 0) : (Nat.toDigits 10 n).head? ≠ some '0' := by
  induction n using Nat.strongRecOn with
  | ind n ih =>
    rcases Nat.lt_or_ge n 10 with hlt | hge
    · have hall : ∀ m : Fin 10, m.val ≠ 0 → some m.val.digitChar ≠ some '0' := by decide
      rw [Nat.toDigits_of_lt_base hlt]
      exact hall ⟨n, hlt⟩ h
    · have hne : Nat.toDigits 10 (n / 10) ≠ [] := Nat.toDigits_ne_nil
      obtain ⟨c, ds, hds⟩ := List.exists_cons_of_ne_nil hne
      have hhead := ih (n / 10) (Nat.div_lt_self (by omega) (by decide)) (by omega)
      rw [hds] at hhead
      rw [Nat.toDigits_of_base_le (by decide) hge, hds]
      exact hhead

theorem span_isDigit {ds rest : List Char} (hds : ∀ c ∈ ds, c.isDigit = true)
    (hrest : ∀ c ∈ rest.head?, c.isDigit = false) :
    (ds ++ rest).span Char.isDigit = (ds, rest) := by
  rw [List.span_eq_takeWhile_dropWhile, List.takeWhile_append_of_pos hds,
    List.dropWhile_append_of_pos hds]
  cases rest with
  | nil => rw [List.takeWhile_nil, List.dropWhile_nil, List.append_nil]
  | cons c rest =>
    have hc := hrest c rfl
    rw [List.takeWhile_cons, List.dropWhile_cons, hc]
    simp

/-! ### Numerals -/

/-- A number as it is written. The power of ten has a sign, `true` for a minus. -/
structure Numeral where
  whole : List Char
  fraction : List Char := []
  power? : Option (Bool × List Char) := none

/-- The characters of a number with its sign, `true` for a minus. -/
def signed (negative : Bool) (cs : List Char) : List Char :=
  if negative then '-' :: cs else cs

namespace Numeral

/-- The point and the digits behind it. -/
def pointPart (n : Numeral) : List Char :=
  match n.fraction with
  | [] => []
  | ds => '.' :: ds

/-- The power of ten with its mark and its sign. -/
def powerPart (n : Numeral) : List Char :=
  match n.power? with
  | none                => []
  | some (negative, ds) => 'e' :: (if negative then '-' else '+') :: ds

/-- The characters of a numeral. -/
def text (n : Numeral) : List Char :=
  n.whole ++ (n.pointPart ++ n.powerPart)

/-- The power of ten, if one is written. -/
def exponent? (n : Numeral) : Option Int :=
  n.power?.map fun p => if p.1 then -(natOfDigits p.2 : Int) else natOfDigits p.2

/-- The decimal that a numeral writes. -/
def decimal (n : Numeral) : Decimal :=
  ⟨natOfDigits (n.whole ++ n.fraction), n.exponent?.getD 0 - n.fraction.length⟩

/-- The digits are digits, there is one in front of the point, and a zero there stands alone. -/
structure IsProper (n : Numeral) : Prop where
  whole : ∀ c ∈ n.whole, c.isDigit = true
  whole_ne : n.whole ≠ []
  zero : n.whole.head? = some '0' → n.whole = ['0']
  fraction : ∀ c ∈ n.fraction, c.isDigit = true
  power : ∀ p ∈ n.power?, p.2 ≠ [] ∧ ∀ c ∈ p.2, c.isDigit = true

theorem pointPart_of_ne (n : Numeral) (h : n.fraction ≠ []) : n.pointPart = '.' :: n.fraction := by
  rw [pointPart]
  split
  · rename_i hf
    exact absurd hf h
  · rfl

theorem head?_powerPart {n : Numeral} {c : Char} (h : c ∈ n.powerPart.head?) : c = 'e' := by
  rw [powerPart] at h
  split at h
  · cases h
  · exact (Option.some.inj h).symm

theorem isDigit_head?_powerPart (n : Numeral) : ∀ c ∈ n.powerPart.head?, c.isDigit = false := by
  intro c hc
  rw [head?_powerPart hc]
  decide

theorem head?_pointPart_append {n : Numeral} {c : Char}
    (h : c ∈ (n.pointPart ++ n.powerPart).head?) : c = '.' ∨ c = 'e' := by
  rw [pointPart] at h
  split at h
  · exact Or.inr (head?_powerPart h)
  · exact Or.inl (Option.some.inj h).symm

theorem isDigit_head?_pointPart_append (n : Numeral) :
    ∀ c ∈ (n.pointPart ++ n.powerPart).head?, c.isDigit = false := by
  intro c hc
  rcases head?_pointPart_append hc with rfl | rfl <;> decide

end Numeral

/-! ### Reading a numeral -/

theorem Decimal.readPower?_powerPart {n : Numeral} (h : n.IsProper) :
    Decimal.readPower? n.powerPart = some (n.exponent?.getD 0) := by
  rw [Numeral.powerPart, Numeral.exponent?]
  cases hp : n.power? with
  | none => rfl
  | some p =>
    obtain ⟨hne, hds⟩ := h.power p hp
    have hall : p.2.all Char.isDigit = true := List.all_eq_true.2 hds
    have hsign : Decimal.readSign ((if p.1 then '-' else '+') :: p.2) = p := by
      obtain ⟨negative, ds⟩ := p
      cases negative <;> rfl
    show Decimal.readPower? ('e' :: (if p.1 then '-' else '+') :: p.2) = _
    simp [Decimal.readPower?, hsign, hne, hall]

/-- A numeral is read as the decimal that it writes. -/
theorem Decimal.read?_text {n : Numeral} (h : n.IsProper) :
    Decimal.read? n.text = some n.decimal := by
  have hwhole := span_isDigit h.whole n.isDigit_head?_pointPart_append
  have hpower := Decimal.readPower?_powerPart h
  have hne : n.whole.isEmpty = false := by simpa using h.whole_ne
  rw [Decimal.read?]
  rw [Numeral.text, hwhole]
  rw [Numeral.decimal]
  by_cases hf : n.fraction = []
  · have hpoint : n.pointPart = [] := by rw [Numeral.pointPart, hf]
    rw [hpoint, hf, List.nil_append]
    cases hp : n.powerPart with
    | nil =>
      rw [hp] at hpower
      simp [hpower, hne]
    | cons c t =>
      obtain rfl := Numeral.head?_powerPart (n := n) (c := c) (by rw [hp]; rfl)
      rw [hp] at hpower
      simp [hpower, hne]
  · have hfraction := span_isDigit h.fraction n.isDigit_head?_powerPart
    rw [n.pointPart_of_ne hf, List.cons_append]
    simp [hfraction, hpower, hne, -List.span_eq_takeWhile_dropWhile]

/-! ### Layouts -/

/-- A numeral of a double: what is no integer by its form. -/
def Numeral.IsDouble (n : Numeral) : Prop :=
  n.IsProper ∧ (n.fraction ≠ [] ∨ n.power? ≠ none)

namespace Layout

theorem isDigit_of_mem_replicate {n : Nat} : ∀ c ∈ List.replicate n '0', c.isDigit = true := by
  intro c hc
  rw [List.eq_of_mem_replicate hc]
  rfl

theorem isDigit_of_mem_append {as bs : List Char} (has : ∀ c ∈ as, c.isDigit = true)
    (hbs : ∀ c ∈ bs, c.isDigit = true) : ∀ c ∈ as ++ bs, c.isDigit = true := by
  intro c hc
  rcases List.mem_append.mp hc with hc | hc
  · exact has c hc
  · exact hbs c hc

/-- Digits on either side of a point are a numeral. -/
theorem exists_numeral_point (whole fraction : List Char)
    (hwhole : ∀ c ∈ whole, c.isDigit = true) (hne : whole ≠ [])
    (hzero : whole.head? = some '0' → whole = ['0'])
    (hfraction : ∀ c ∈ fraction, c.isDigit = true) (hfne : fraction ≠ []) :
    ∃ m : Numeral, m.IsDouble ∧ whole ++ '.' :: fraction = m.text ∧
      m.decimal = ⟨natOfDigits (whole ++ fraction), -fraction.length⟩ := by
  refine ⟨⟨whole, fraction, none⟩, ⟨⟨hwhole, hne, hzero, hfraction, nofun⟩, Or.inl hfne⟩, ?_, ?_⟩
  · rw [Numeral.text, Numeral.pointPart_of_ne _ hfne, Numeral.powerPart, List.append_nil]
  · simp [Numeral.decimal, Numeral.exponent?]

variable {ds : List Char} (hds : ∀ c ∈ ds, c.isDigit = true) (hne : ds ≠ [])

include hds hne

theorem exists_numeral_below (k : Nat) :
    ∃ m : Numeral, m.IsDouble ∧ '0' :: '.' :: (List.replicate k '0' ++ ds) = m.text ∧
      m.decimal = ⟨natOfDigits ds, -(k + ds.length : Nat)⟩ := by
  have hdigits : natOfDigits (['0'] ++ (List.replicate k '0' ++ ds)) = natOfDigits ds := by
    have hzeros : ['0'] ++ List.replicate k '0' = List.replicate (k + 1) '0' := rfl
    rw [← List.append_assoc, hzeros, natOfDigits_append, natOfDigits_replicate]
    simp
  have hlength : (List.replicate k '0' ++ ds).length = k + ds.length := by simp
  rw [← hdigits, ← hlength]
  apply exists_numeral_point ['0']
  · exact isDigit_of_mem_replicate (n := 1)
  · nofun
  · exact fun _ => rfl
  · exact isDigit_of_mem_append isDigit_of_mem_replicate hds
  · exact List.append_ne_nil_of_right_ne_nil _ hne

/-- Digits that all stand in front of the point. Zeros behind them fill them up, unless zero is
what they write. -/
theorem exists_numeral_behind {k : Nat} (hzero : ds.head? = some '0' → ds = ['0'] ∧ k = 0) :
    ∃ m : Numeral, m.IsDouble ∧ ds ++ List.replicate k '0' ++ ['.', '0'] = m.text ∧
      m.decimal = ⟨natOfDigits ds * 10 ^ (k + 1), -1⟩ := by
  have hdigits : natOfDigits (ds ++ List.replicate k '0' ++ ['0'])
      = natOfDigits ds * 10 ^ (k + 1) := by
    rw [List.append_assoc, ← List.replicate_succ', natOfDigits_append, natOfDigits_replicate,
      List.length_replicate, Nat.add_zero]
  rw [← hdigits]
  apply exists_numeral_point
  · exact isDigit_of_mem_append hds isDigit_of_mem_replicate
  · exact List.append_ne_nil_of_left_ne_nil hne _
  · intro h
    obtain ⟨c, cs, rfl⟩ := List.exists_cons_of_ne_nil hne
    obtain ⟨hc, rfl⟩ := hzero h
    rw [hc]
    rfl
  · exact isDigit_of_mem_replicate (n := 1)
  · nofun

/-- Digits with the point among them. -/
theorem exists_numeral_within {k : Nat} (hpos : 0 < k) (hdrop : ds.drop k ≠ [])
    (hzero : ds.head? = some '0' → ds = ['0']) :
    ∃ m : Numeral, m.IsDouble ∧ ds.take k ++ '.' :: ds.drop k = m.text ∧
      m.decimal = ⟨natOfDigits ds, -(ds.length - k : Nat)⟩ := by
  have hpoint := exists_numeral_point (ds.take k) (ds.drop k)
  rw [List.take_append_drop, List.length_drop] at hpoint
  apply hpoint _ _ _ _ hdrop
  · exact fun c hc => hds c (List.mem_of_mem_take hc)
  · intro h
    rcases List.take_eq_nil_iff.mp h with h | h
    · omega
    · exact hne h
  · intro h
    rw [List.head?_take, if_neg (by omega)] at h
    rw [hzero h, List.take_of_length_le hpos]
  · exact fun c hc => hds c (List.mem_of_mem_drop hc)

/-- Positional digits are a numeral of the decimal with these digits, or with zeros behind them. -/
theorem exists_numeral_positional {n : Int} (hzero : ds.head? = some '0' → ds = ['0'] ∧ n = 1) :
    ∃ m : Numeral, m.IsDouble ∧ exact.positional ds n = m.text ∧
      ∃ k : Nat, m.decimal = ⟨natOfDigits ds * 10 ^ k, n - ds.length - k⟩ := by
  rw [positional]
  split
  · rename_i hn
    obtain ⟨m, hm, htext, hdecimal⟩ := exists_numeral_below hds hne (-n).toNat
    refine ⟨m, hm, htext, 0, ?_⟩
    rw [hdecimal, Nat.pow_zero, Nat.mul_one]
    congr 1
    omega
  · rename_i hn
    have hpos : 0 < n.toNat := by omega
    simp only
    split
    · rename_i hdrop
      have hlength := List.drop_eq_nil_iff.mp hdrop
      obtain ⟨m, hm, htext, hdecimal⟩ := exists_numeral_behind hds hne
        (k := n.toNat - ds.length) fun h => by
          obtain ⟨rfl, rfl⟩ := hzero h
          exact ⟨rfl, rfl⟩
      rw [List.take_of_length_le hlength]
      refine ⟨m, hm, htext, n.toNat - ds.length + 1, ?_⟩
      rw [hdecimal]
      congr 1
      omega
    · rename_i hdrop
      obtain ⟨m, hm, htext, hdecimal⟩ := exists_numeral_within hds hne hpos hdrop
        fun h => (hzero h).1
      have hlength : n.toNat < ds.length := by simpa using hdrop
      refine ⟨m, hm, htext, 0, ?_⟩
      rw [hdecimal, Nat.pow_zero, Nat.mul_one]
      congr 1
      omega

theorem exists_numeral_scientific (e : Int) :
    ∃ m : Numeral, m.IsDouble ∧ scientific ds e = m.text ∧
      m.decimal = ⟨natOfDigits ds, e - (ds.length - 1 : Nat)⟩ := by
  refine ⟨⟨ds.take 1, ds.drop 1, some (e < 0,
      List.replicate (2 - (Nat.toDigits 10 e.natAbs).length) '0' ++ Nat.toDigits 10 e.natAbs)⟩,
    ⟨⟨?_, ?_, ?_, ?_, ?_⟩, Or.inr nofun⟩, ?_, ?_⟩
  · exact fun c hc => hds c (List.mem_of_mem_take hc)
  · obtain ⟨c, cs, rfl⟩ := List.exists_cons_of_ne_nil hne
    nofun
  · obtain ⟨c, cs, rfl⟩ := List.exists_cons_of_ne_nil hne
    intro h
    obtain rfl := Option.some.inj h
    rfl
  · exact fun c hc => hds c (List.mem_of_mem_drop hc)
  · intro p hp
    obtain rfl := Option.some.inj hp
    constructor
    · exact List.append_ne_nil_of_right_ne_nil _ Nat.toDigits_ne_nil
    · exact isDigit_of_mem_append isDigit_of_mem_replicate isDigit_of_mem_toDigits
  · rw [scientific, Numeral.text, Numeral.pointPart, Numeral.powerPart]
    cases ds.drop 1 <;> simp
  · have hpower : natOfDigits (List.replicate (2 - (Nat.toDigits 10 e.natAbs).length) '0'
        ++ Nat.toDigits 10 e.natAbs) = e.natAbs := by
      rw [natOfDigits_append, natOfDigits_replicate, Nat.zero_mul, Nat.zero_add,
        natOfDigits_toDigits]
    have hsign : (if e < 0 then -(e.natAbs : Int) else e.natAbs) = e := by
      split <;> omega
    rw [Numeral.decimal]
    simp only [Numeral.exponent?, List.take_append_drop, List.length_drop, Option.map_some,
      Option.getD_some, decide_eq_true_eq, hpower, hsign]

omit hds hne

/-- The exact layout of a decimal is a numeral of it, perhaps with zeros behind its digits, provided
that zero has no power of ten. -/
theorem exists_numeral {d : Decimal} (hd : d.coefficient = 0 → d.exponent = 0) :
    ∃ m : Numeral, m.IsDouble ∧ exact.decimal d = m.text ∧
      ∃ k : Nat, m.decimal = ⟨d.coefficient * 10 ^ k, d.exponent - k⟩ := by
  have hds : ∀ c ∈ d.digits, c.isDigit = true := isDigit_of_mem_toDigits
  have hne : d.digits ≠ [] := Nat.toDigits_ne_nil
  have hdigits : natOfDigits d.digits = d.coefficient := natOfDigits_toDigits _
  have hlength := List.length_pos_iff.mpr hne
  unfold Layout.decimal
  simp only
  split
  · obtain ⟨m, hm, htext, k, hdecimal⟩ := exists_numeral_positional hds hne
      (n := d.leadingExponent + 1) fun hhead => by
        have hzero : d.coefficient = 0 :=
          Classical.byContradiction fun h => head?_toDigits_ne h hhead
        have hdigits : d.digits = ['0'] := by
          rw [Decimal.digits, hzero]
          rfl
        refine ⟨hdigits, ?_⟩
        rw [Decimal.leadingExponent, hdigits, hd hzero]
        rfl
    refine ⟨m, hm, htext, k, ?_⟩
    rw [hdecimal, hdigits, Decimal.leadingExponent]
    congr 1
    omega
  · obtain ⟨m, hm, htext, hdecimal⟩ := exists_numeral_scientific hds hne d.leadingExponent
    refine ⟨m, hm, htext, 0, ?_⟩
    rw [hdecimal, hdigits, Decimal.leadingExponent, Nat.pow_zero, Nat.mul_one]
    congr 1
    omega

end Layout

/-! ### Shortest digits -/

theorem Decimal.coefficient_dropZeros_ne {fuel : Nat} {d : Decimal} (h : d.coefficient ≠ 0) :
    (Decimal.dropZeros fuel d).coefficient ≠ 0 := by
  induction fuel generalizing d with
  | zero => exact h
  | succ fuel ih =>
    rw [Decimal.dropZeros]
    split
    · rename_i hzero
      apply ih
      simp only
      omega
    · exact h

theorem Decimal.exponent_normal {d : Decimal} (h : d.normal.coefficient = 0) :
    d.normal.exponent = 0 := by
  rw [Decimal.normal] at h ⊢
  split at h
  · rename_i hzero
    rw [if_pos hzero]
  · rename_i hzero
    exact absurd h (Decimal.coefficient_dropZeros_ne hzero)

theorem Binary.exponent_shortest {b : Binary} (h : b.shortest.coefficient = 0) :
    b.shortest.exponent = 0 := by
  rw [Binary.shortest] at h ⊢
  split at h
  · rename_i hzero
    rw [if_pos hzero]
  · rename_i hzero
    rw [if_neg hzero]
    exact Decimal.exponent_normal h

/-! ### Doubles -/

theorem isNaN_of_isFinite {x : Float} (h : x.isFinite = true) :
    x.isNaN = false ∧ x.isInf = false := by
  change x.toModel.unpack.isFinite = true at h
  show x.toModel.unpack.isNaN = false ∧ x.toModel.unpack.isInf = false
  generalize x.toModel.unpack = u at h ⊢
  cases u with
  | infinity => cases h
  | notANumber => cases h
  | zero => exact ⟨rfl, rfl⟩
  | finite => exact ⟨rfl, rfl⟩

/-- A finite double is written as a numeral with a sign. -/
theorem exists_numeral_of_isFinite {x : Float} (h : x.isFinite = true) :
    ∃ m : Numeral, m.IsDouble ∧
      Layout.exact.double Binary.shortest x = signed (Binary.ofFloat x).negative m.text := by
  obtain ⟨m, hm, htext, _⟩ :=
    Layout.exists_numeral (Binary.exponent_shortest (b := Binary.ofFloat x))
  obtain ⟨hnan, hinf⟩ := isNaN_of_isFinite h
  refine ⟨m, hm, ?_⟩
  rw [Layout.double, signed]
  simp only [hnan, hinf, htext, Bool.false_eq_true, if_false]

/-! ### Reading a double -/

theorem toNat_of_isDigit {c : Char} (h : c.isDigit = true) : 48 ≤ c.toNat ∧ c.toNat ≤ 57 := by
  simpa [Char.isDigit, UInt32.le_iff_toNat_le] using h

/-- No digit is another one of the characters that a reader looks for. -/
theorem ne_of_isDigit {c d : Char} (h : c.isDigit = true) (hd : d.isDigit = false) : c ≠ d := by
  rintro rfl
  rw [h] at hd
  cases hd

theorem toLower_of_isDigit {c : Char} (hc : c.isDigit = true) : c.toLower = c := by
  obtain ⟨_, hhigh⟩ := toNat_of_isDigit hc
  have hupper : ¬(c.val ≥ 'A'.val ∧ c.val ≤ 'Z'.val) := by
    rintro ⟨hlow, _⟩
    have hle : 65 ≤ c.toNat := hlow
    omega
  exact dif_neg hupper

theorem isNumberBlank_of_toNat {c : Char} (hlow : 33 ≤ c.toNat) (hhigh : c.toNat < 127) :
    isNumberBlank c = false := by
  rw [isNumberBlank, isBlank]
  simp
  omega

theorem trimWhere_of_forall {α : Type} {p : α → Bool} {xs : List α} (h : ∀ x ∈ xs, p x = false) :
    trimWhere p xs = xs := by
  have hdrop : ∀ ys : List α, (∀ y ∈ ys, p y = false) → ys.dropWhile p = ys := by
    intro ys hys
    cases ys with
    | nil => rfl
    | cons y ys => exact List.dropWhile_cons_of_neg (by simp [hys y (List.mem_cons_self ..)])
  rw [trimWhere]
  rw [hdrop xs h, hdrop xs.reverse fun x hx => h x (List.mem_reverse.mp hx), List.reverse_reverse]

namespace Numeral

variable {n : Numeral} (h : n.IsProper)

include h

theorem mem_text {c : Char} (hc : c ∈ n.text) : c.isDigit = true ∨ c ∈ ['.', 'e', '-', '+'] := by
  rw [text] at hc
  rcases List.mem_append.mp hc with hc | hc
  · exact Or.inl (h.whole c hc)
  rcases List.mem_append.mp hc with hc | hc
  · unfold pointPart at hc
    split at hc
    · cases hc
    · rcases List.mem_cons.mp hc with rfl | hc
      · exact Or.inr (by decide)
      · exact Or.inl (h.fraction c hc)
  · unfold powerPart at hc
    split at hc
    · cases hc
    · rename_i negative ds hp
      rcases List.mem_cons.mp hc with rfl | hc
      · exact Or.inr (by decide)
      rcases List.mem_cons.mp hc with rfl | hc
      · exact Or.inr (by cases negative <;> decide)
      · exact Or.inl ((h.power _ hp).2 c hc)

theorem isNumberBlank_of_mem_signed {negative : Bool} {c : Char} (hc : c ∈ signed negative n.text) :
    isNumberBlank c = false := by
  have hcases : c.isDigit = true ∨ c ∈ ['.', 'e', '-', '+'] := by
    rw [signed] at hc
    split at hc
    · rcases List.mem_cons.mp hc with rfl | hc
      · exact Or.inr (by decide)
      · exact mem_text h hc
    · exact mem_text h hc
  rcases hcases with hdigit | hmark
  · obtain ⟨hlow, hhigh⟩ := toNat_of_isDigit hdigit
    exact isNumberBlank_of_toNat (by omega) (by omega)
  · have hall : ∀ d ∈ ['.', 'e', '-', '+'], isNumberBlank d = false := by
      simp [isNumberBlank, isBlank]
    exact hall c hmark

/-- A numeral begins with a digit. -/
theorem exists_text_eq_cons : ∃ c cs, n.text = c :: cs ∧ c.isDigit = true := by
  obtain ⟨c, cs, hcons⟩ := List.exists_cons_of_ne_nil h.whole_ne
  refine ⟨c, cs ++ (n.pointPart ++ n.powerPart), ?_, ?_⟩
  · rw [text, hcons, List.cons_append]
  · apply h.whole
    rw [hcons]
    exact List.mem_cons_self ..

theorem readSign_signed (negative : Bool) :
    Decimal.readSign (signed negative n.text) = (negative, n.text) := by
  obtain ⟨c, cs, hcons, hc⟩ := exists_text_eq_cons h
  cases negative with
  | true => rfl
  | false =>
    have hminus := ne_of_isDigit hc (d := '-') rfl
    have hplus := ne_of_isDigit hc (d := '+') rfl
    unfold Decimal.readSign signed
    rw [hcons]
    split
    · rename_i heq
      exact absurd (List.cons.inj heq).1 hminus
    · rename_i heq
      exact absurd (List.cons.inj heq).1 hplus
    · rfl

/-- The value of a numeral with a sign. -/
theorem readDouble?_signed (negative : Bool) :
    readDouble? (String.ofList (signed negative n.text))
      = some (if negative then -n.decimal.toFloat else n.decimal.toFloat) := by
  have hword : ∀ w : String, ∀ c ∈ w.toList.head?, c.isDigit = false →
      String.ofList (n.text.map Char.toLower) ≠ w := by
    rintro _ c hc hnot rfl
    obtain ⟨d, ds, hcons, hd⟩ := exists_text_eq_cons h
    rw [String.toList_ofList, hcons, List.map_cons, List.head?_cons, toLower_of_isDigit hd] at hc
    obtain rfl := Option.some.inj hc
    rw [hd] at hnot
    cases hnot
  rw [readDouble?, doubleOfChars?]
  rw [String.toList_ofList,
    trimWhere_of_forall fun c hc => isNumberBlank_of_mem_signed h hc, readSign_signed h]
  simp only
  rw [if_neg, if_neg, Decimal.read?_text h, Option.map_some, Option.map_some]
  · exact hword "nan" 'n' (by decide) rfl
  · rintro (heq | heq)
    · exact hword "inf" 'i' (by decide) rfl heq
    · exact hword "infinity" 'i' (by decide) rfl heq

end Numeral

end NoticeLedger

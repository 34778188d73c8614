import Mathlib.Data.Set.List
import NoticeLedger.Proofs.Json.Documents
import NoticeLedger.Proofs.SummaryFormat

/-!
# What documents are spelled with

A document is made of visible characters and of what the symbols of its strings are written as
(`Json.forall_mem_write`). So it holds only symbols that its alphabet writes as they are, since
everything else is escaped (`Json.isPlain_write`): no control character, and over ASCII it is a
string of a single line (`Json.exists_line_of_ascii`). Surrogates come from nowhere but the strings
(`Json.exists_string_of_isSpelled`).
-/

namespace NoticeLedger.Json

variable {alphabet : Alphabet}

/-- All characters are between the space and the tilde. -/
def IsVisible (cs : List Char) : Prop :=
  ∀ c ∈ cs, 0x20 ≤ c.toNat ∧ c.toNat < 0x7F

instance (cs : List Char) : Decidable (IsVisible cs) :=
  List.decidableBAll (fun c : Char => 0x20 ≤ c.toNat ∧ c.toNat < 0x7F) cs

/-- All symbols are written as they are. -/
def IsPlain (alphabet : Alphabet) (t : Text) : Prop :=
  ∀ x ∈ t, alphabet.isPlain x.codePoint = true

/-- Both alphabets write visible characters as they are. -/
theorem IsVisible.isPlain {s : List Char} (h : IsVisible s) : IsPlain alphabet (s.map .char) := by
  intro x hx
  obtain ⟨c, hc, rfl⟩ := List.mem_map.mp hx
  obtain ⟨hlow, hhigh⟩ := h c hc
  rw [Symbol.codePoint_char]
  cases alphabet with
  | unicode => exact decide_eq_true hlow
  | ascii => exact Bool.and_eq_true_iff.mpr ⟨decide_eq_true hlow, decide_eq_true hhigh⟩

/-! ### Strings -/

theorem isVisible_unitEscape (n : Nat) : IsVisible (unitEscape n) := by
  have hdigit : ∀ m : Fin 16, IsVisible [hexDigit m] := by decide
  have hmod : ∀ m, IsVisible [hexDigit (m % 16)] := fun m =>
    hdigit ⟨m % 16, Nat.mod_lt m (by decide)⟩
  have hmarks : IsVisible ['\\', 'u'] := by decide
  intro c hc
  simp only [unitEscape, List.mem_cons, List.not_mem_nil, or_false] at hc
  rcases hc with rfl | rfl | rfl | rfl | rfl | rfl
  · exact hmarks _ (by decide)
  · exact hmarks _ (by decide)
  · exact hmod _ _ (List.mem_singleton_self _)
  · exact hmod _ _ (List.mem_singleton_self _)
  · exact hmod _ _ (List.mem_singleton_self _)
  · exact hmod _ _ (List.mem_singleton_self _)

theorem isVisible_pointEscape (n : Nat) : IsVisible (pointEscape n) := by
  rw [pointEscape]
  split
  · exact isVisible_unitEscape _
  · intro c hc
    rcases List.mem_append.mp hc with hc | hc
    · exact isVisible_unitEscape _ c hc
    · exact isVisible_unitEscape _ c hc

/-- A symbol is written as it is or as visible characters. -/
theorem writeSymbol_cases (alphabet : Alphabet) (x : Symbol) :
    (alphabet.isPlain x.codePoint = true ∧ writeSymbol alphabet x = [x]) ∨
      ∃ cs, IsVisible cs ∧ writeSymbol alphabet x = cs.map .char := by
  unfold writeSymbol
  split
  case h_8 =>
    split
    · rename_i hplain
      exact .inl ⟨hplain, rfl⟩
    · exact .inr ⟨_, isVisible_pointEscape _, rfl⟩
  all_goals exact .inr ⟨_, by decide, rfl⟩

/-! ### Numbers -/

theorem isVisible_of_isDigit {c : Char} (h : c.isDigit = true) : IsVisible [c] := by
  intro d hd
  obtain rfl := List.mem_singleton.mp hd
  have := toNat_of_isDigit h
  omega

theorem isVisible_signed {n : Numeral} (h : n.IsProper) (negative : Bool) :
    IsVisible (signed negative n.text) := by
  have hmarks : IsVisible ['.', 'e', '-', '+'] := by decide
  have htext : IsVisible n.text := by
    intro c hc
    rcases Numeral.mem_text h hc with hdigit | hmark
    · exact isVisible_of_isDigit hdigit c (List.mem_singleton_self c)
    · exact hmarks c hmark
  rw [signed]
  split
  · intro c hc
    rcases List.mem_cons.mp hc with rfl | hc
    · exact hmarks _ (by decide)
    · exact htext c hc
  · exact htext

/-! ### Values -/

theorem writeItems_cons_cons (j k : Json) (js : List Json) : writeItems alphabet (j :: k :: js) =
    write alphabet j ++ .char ',' :: writeItems alphabet (k :: js) := by
  rw [writeItems]
  exact List.cons_ne_nil k js

theorem writeMembers_cons_cons (m m' : Text × Json) (ms : List (Text × Json)) :
    writeMembers alphabet (m :: m' :: ms) =
      writeText alphabet m.1 ++ .char ':' :: write alphabet m.2 ++
        .char ',' :: writeMembers alphabet (m' :: ms) := by
  rw [writeMembers]
  exact List.cons_ne_nil m' ms

theorem mem_writeItems {js : List Json} {x : Symbol} (hx : x ∈ writeItems alphabet js) :
    x = .char ',' ∨ ∃ j ∈ js, x ∈ write alphabet j := by
  induction js with
  | nil => cases hx
  | cons j js ih =>
    cases js with
    | nil => exact .inr ⟨j, List.mem_cons_self .., hx⟩
    | cons k js =>
      rw [writeItems_cons_cons] at hx
      rcases List.mem_append.mp hx with hx | hx
      · exact .inr ⟨j, List.mem_cons_self .., hx⟩
      rcases List.mem_cons.mp hx with rfl | hx
      · exact .inl rfl
      rcases ih hx with hcomma | ⟨i, hi, hx⟩
      · exact .inl hcomma
      · exact .inr ⟨i, List.mem_cons_of_mem j hi, hx⟩

theorem mem_writeMembers {ms : List (Text × Json)} {x : Symbol}
    (hx : x ∈ writeMembers alphabet ms) :
    x = .char ',' ∨ ∃ m ∈ ms, x ∈ writeText alphabet m.1 ++ .char ':' :: write alphabet m.2 := by
  induction ms with
  | nil => cases hx
  | cons m ms ih =>
    cases ms with
    | nil => exact .inr ⟨m, List.mem_cons_self .., hx⟩
    | cons m' ms =>
      rw [writeMembers_cons_cons] at hx
      rcases List.mem_append.mp hx with hx | hx
      · exact .inr ⟨m, List.mem_cons_self .., hx⟩
      rcases List.mem_cons.mp hx with rfl | hx
      · exact .inl rfl
      rcases ih hx with hcomma | ⟨i, hi, hx⟩
      · exact .inl hcomma
      · exact .inr ⟨i, List.mem_cons_of_mem m hi, hx⟩

section Symbols

variable {p : Symbol → Prop} {spelling : Alphabet}

theorem forall_mem_writeText (hvisible : ∀ cs, IsVisible cs → ∀ x ∈ cs.map Symbol.char, p x)
    (hwritten : ∀ x, spelling.Spells x → ∀ y ∈ writeSymbol alphabet x, p y) {t : Text}
    (ht : ∀ x ∈ t, spelling.Spells x) : ∀ x ∈ writeText alphabet t, p x := by
  have hquote : p (.char '\x22') := hvisible ['\x22'] (by decide) _ (List.mem_singleton_self _)
  intro x hx
  simp only [writeText, List.cons_append, List.mem_cons, List.mem_append, List.mem_flatMap,
    List.not_mem_nil, or_false] at hx
  rcases hx with rfl | ⟨y, hy, hx⟩ | rfl
  · exact hquote
  · exact hwritten y (ht y hy) x hx
  · exact hquote

/-- A document is made of visible characters and of what the symbols of its strings are written
as. -/
theorem forall_mem_write (hvisible : ∀ cs, IsVisible cs → ∀ x ∈ cs.map Symbol.char, p x)
    (hwritten : ∀ x, spelling.Spells x → ∀ y ∈ writeSymbol alphabet x, p y) {j : Json}
    (hproper : j.IsProper) (hspelled : j.IsSpelled spelling) : ∀ x ∈ write alphabet j, p x := by
  have hmark : ∀ c, IsVisible [c] → p (.char c) := fun c hc =>
    hvisible [c] hc _ (List.mem_singleton_self _)
  induction j using induction_on with
  | step j ih =>
    have hinside : ∀ k ∈ j.children, ∀ x ∈ write alphabet k, p x := fun k hk =>
      ih k hk (hproper.inside k hk) (hspelled.inside k hk)
    cases j with
    | null => exact hvisible "null".toList (by decide)
    | bool b => cases b with
      | true => exact hvisible "true".toList (by decide)
      | false => exact hvisible "false".toList (by decide)
    | int n =>
      rw [write, intText_eq_signed]
      exact hvisible _ (isVisible_signed (isProper_toDigits _) _)
    | float x =>
      have hfinite : x.isFinite = true := hproper.here
      obtain ⟨m, ⟨hm, -⟩, htext⟩ := exists_numeral_of_isFinite hfinite
      rw [write, json_double_eq_exact hfinite, htext]
      exact hvisible _ (isVisible_signed hm _)
    | str t =>
      rw [write]
      exact forall_mem_writeText hvisible hwritten hspelled.here
    | arr items =>
      intro x hx
      simp only [write, List.cons_append, List.mem_cons, List.mem_append, List.not_mem_nil,
        or_false] at hx
      rcases hx with rfl | hx | rfl
      · exact hmark _ (by decide)
      · rcases mem_writeItems hx with rfl | ⟨k, hk, hx⟩
        · exact hmark _ (by decide)
        · exact hinside k hk x hx
      · exact hmark _ (by decide)
    | obj ms =>
      intro x hx
      simp only [write, List.cons_append, List.mem_cons, List.mem_append, List.not_mem_nil,
        or_false] at hx
      rcases hx with rfl | hx | rfl
      · exact hmark _ (by decide)
      · rcases mem_writeMembers hx with rfl | ⟨m, hm, hx⟩
        · exact hmark _ (by decide)
        rcases List.mem_append.mp hx with hx | hx
        · exact forall_mem_writeText hvisible hwritten (hspelled.here m hm) x hx
        rcases List.mem_cons.mp hx with rfl | hx
        · exact hmark _ (by decide)
        · exact hinside m.2 (mem_children_obj hm) x hx
      · exact hmark _ (by decide)

end Symbols

/-- A document is made of symbols that its alphabet writes as they are. -/
theorem isPlain_write {j : Json} (h : j.IsProper) : IsPlain alphabet (write alphabet j) := by
  refine forall_mem_write (fun cs hcs => hcs.isPlain) (fun x _ => ?_) h (isSpelled_unicode j)
  rcases writeSymbol_cases alphabet x with ⟨hplain, heq⟩ | ⟨cs, hcs, heq⟩
  · rw [heq, List.forall_mem_singleton]
    exact hplain
  · rw [heq]
    exact hcs.isPlain

theorem exists_string_of_forall_char {t : Text} (h : ∀ x ∈ t, ∃ c, x = Symbol.char c) :
    ∃ s, t = Text.ofString s := by
  obtain ⟨cs, hcs⟩ : t ∈ Set.range (List.map Symbol.char) := by
    rw [Set.range_list_map]
    intro x hx
    obtain ⟨c, rfl⟩ := h x hx
    exact ⟨c, rfl⟩
  refine ⟨String.ofList cs, ?_⟩
  rw [Text.ofString, String.toList_ofList, hcs]

/-- A document has no surrogates but those of its strings. -/
theorem exists_string_of_isSpelled {j : Json} (hproper : j.IsProper)
    (hspelled : j.IsSpelled .ascii) : ∃ s, write alphabet j = Text.ofString s := by
  have hchar : ∀ cs : List Char, ∀ x ∈ cs.map Symbol.char, ∃ c, x = .char c := by
    intro cs x hx
    obtain ⟨c, -, rfl⟩ := List.mem_map.mp hx
    exact ⟨c, rfl⟩
  refine exists_string_of_forall_char
    (forall_mem_write (fun cs _ => hchar cs) (fun x hx => ?_) hproper hspelled)
  rcases writeSymbol_cases alphabet x with ⟨-, heq⟩ | ⟨cs, -, heq⟩
  · rw [heq, List.forall_mem_singleton]
    exact hx rfl
  · rw [heq]
    exact hchar cs

/-! ### Lines -/

theorem exists_char_of_isPlain_ascii {x : Symbol} (h : Alphabet.ascii.isPlain x.codePoint = true) :
    ∃ c, x = .char c ∧ 0x20 ≤ c.toNat := by
  simp only [Alphabet.isPlain, Bool.and_eq_true, decide_eq_true_eq] at h
  cases x with
  | char c => exact ⟨c, rfl, h.1⟩
  | surrogate s =>
    rw [Symbol.codePoint_surrogate] at h
    omega

/-- A document over ASCII is a string without control characters. -/
theorem exists_line_of_ascii {j : Json} (h : j.IsProper) :
    ∃ line : String, write .ascii j = Text.ofString line ∧ ∀ c ∈ line.toList, 0x20 ≤ c.toNat := by
  have hplain : ∀ x ∈ write .ascii j, ∃ c, x = .char c ∧ 0x20 ≤ c.toNat := fun x hx =>
    exists_char_of_isPlain_ascii (isPlain_write h x hx)
  obtain ⟨line, hline⟩ := exists_string_of_forall_char fun x hx =>
    (hplain x hx).imp fun _ => And.left
  refine ⟨line, hline, fun c hc => ?_⟩
  obtain ⟨d, hd, hle⟩ := hplain (.char c) (hline ▸ List.mem_map_of_mem hc)
  obtain rfl := Symbol.char.inj hd
  exact hle

end NoticeLedger.Json

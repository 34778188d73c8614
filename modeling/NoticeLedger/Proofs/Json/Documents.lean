import NoticeLedger.Proofs.Json.Numbers
import NoticeLedger.Proofs.Json.Reordering
import NoticeLedger.Proofs.Json.Strings
import NoticeLedger.Value.Document

/-!
# Documents that are written and read back

In front of the text of a value the machine of the reader comes to the point behind it, whatever is
still open (`Json.run_write`): by induction over nested values, with one run over the items of an
array and one over the members of an object. A value whose objects have distinct names, whose
integers are not too long and whose doubles are read back from their exact texts is therefore read
back from its document (`Json.read_write`), over ASCII if its strings hold no surrogates.
-/

namespace NoticeLedger.Json

variable {alphabet : Alphabet}

/-- An integer is not too long, and a double is read back from its exact text. -/
def LegibleHere : Json → Prop
  | int n   => Value.isConvertible n = true
  | float x => readDouble? (exactText x) = some x
  | _       => True

/-- A value whose numbers are read back from their texts. -/
abbrev IsLegible (j : Json) : Prop :=
  Everywhere LegibleHere j

/-- An integer is not too long. -/
def ShortHere : Json → Prop
  | int n => Value.isConvertible n = true
  | _     => True

/-- A value that has no integer that is too long. -/
abbrev IsShort (j : Json) : Prop :=
  Everywhere ShortHere j

theorem IsLegible.isShort {j : Json} (h : j.IsLegible) : j.IsShort := by
  refine Everywhere.mono (fun k hk => ?_) h
  cases k with
  | int n => exact hk
  | float x => trivial
  | null => trivial
  | bool b => trivial
  | str t => trivial
  | arr items => trivial
  | obj ms => trivial

theorem IsShort.of_reordered {j k : Json} (hj : j.IsShort) (h : Reordered j k) : k.IsShort :=
  Everywhere.of_reordered (fun _ _ _ => trivial) (fun _ _ _ _ => trivial) h hj

theorem IsLegible.sorted {j : Json} (h : j.IsLegible) : j.sorted.IsLegible :=
  Everywhere.of_reordered (fun _ _ _ => trivial) (fun _ _ _ _ => trivial) (.sorted j) h

/-- A string and the names of an object are read back where they are written over an alphabet. -/
def SpelledHere (alphabet : Alphabet) : Json → Prop
  | str t  => ∀ x ∈ t, alphabet.Spells x
  | obj ms => ∀ m ∈ ms, ∀ x ∈ m.1, alphabet.Spells x
  | _      => True

/-- A value whose strings are read back where they are written over an alphabet. -/
abbrev IsSpelled (alphabet : Alphabet) (j : Json) : Prop :=
  Everywhere (SpelledHere alphabet) j

theorem isSpelled_unicode (j : Json) : j.IsSpelled .unicode := by
  induction j using induction_on with
  | step j ih =>
    refine .intro ?_ ih
    cases j with
    | str t => exact fun _ _ => nofun
    | obj ms => exact fun _ _ _ _ => nofun
    | null => trivial
    | bool b => trivial
    | int n => trivial
    | float x => trivial
    | arr items => trivial

theorem IsSpelled.sorted {j : Json} (h : j.IsSpelled alphabet) : j.sorted.IsSpelled alphabet := by
  refine Everywhere.of_reordered (fun _ _ _ => trivial) (fun ms ns hperm hms => ?_) (.sorted j) h
  intro n hn
  obtain ⟨m, hm, hname⟩ := List.mem_map.mp (hperm.mem_iff.mpr (List.mem_map_of_mem hn))
  rw [← hname]
  exact hms m hm

/-! ### Where a value begins -/

/-- The text begins like the text of a value. -/
def BeginsValue (s : Text) : Prop :=
  ∃ c t, s = .char c :: t ∧ (c.isDigit = true ∨ c ∈ ['n', 't', 'f', '-', '\x22', '[', '\x7b'])

theorem BeginsValue.append {s : Text} (h : BeginsValue s) (t : Text) : BeginsValue (s ++ t) := by
  obtain ⟨c, u, rfl, hc⟩ := h
  exact ⟨c, u ++ t, rfl, hc⟩

theorem beginsValue_signed {n : Numeral} (h : n.IsProper) (negative : Bool) :
    BeginsValue ((signed negative n.text).map .char) := by
  obtain ⟨c, cs, hcons, hc⟩ := Numeral.exists_text_eq_cons h
  rw [signed, hcons]
  cases negative with
  | true => exact ⟨'-', _, rfl, Or.inr (by decide)⟩
  | false => exact ⟨c, _, rfl, Or.inl hc⟩

theorem beginsValue_write {j : Json} (h : ProperHere j) : BeginsValue (write alphabet j) := by
  cases j with
  | null => exact ⟨'n', _, rfl, Or.inr (by decide)⟩
  | bool b => cases b with
    | true => exact ⟨'t', _, rfl, Or.inr (by decide)⟩
    | false => exact ⟨'f', _, rfl, Or.inr (by decide)⟩
  | int n =>
    rw [write, intText_eq_signed]
    exact beginsValue_signed (isProper_toDigits _) _
  | float x =>
    obtain ⟨m, ⟨hm, _⟩, htext⟩ := exists_numeral_of_isFinite h
    rw [write, json_double_eq_exact h, htext]
    exact beginsValue_signed hm _
  | str t => exact ⟨'\x22', _, rfl, Or.inr (by decide)⟩
  | arr items =>
    rw [write]
    exact ⟨'[', _, rfl, Or.inr (by decide)⟩
  | obj ms =>
    rw [write]
    exact ⟨'\x7b', _, rfl, Or.inr (by decide)⟩

theorem beginsValue_writeItems {j : Json} (h : ProperHere j) (js : List Json) :
    BeginsValue (writeItems alphabet (j :: js)) := by
  cases js with
  | nil => exact beginsValue_write h
  | cons k js =>
    rw [writeItems]
    · exact (beginsValue_write h).append _
    · exact nofun

theorem beginsValue_writeMembers (m : Text × Json) (ms : List (Text × Json)) :
    BeginsValue (writeMembers alphabet (m :: ms)) := by
  cases ms with
  | nil => exact ⟨'\x22', _, rfl, Or.inr (by decide)⟩
  | cons m' ms => exact ⟨'\x22', _, rfl, Or.inr (by decide)⟩

/-- What a value begins with is none of the other marks of a document. -/
theorem BeginsValue.ne_char {s : Text} (h : BeginsValue s) {d : Char} (hdigit : d.isDigit = false)
    (hd : d ∉ ['n', 't', 'f', '-', '\x22', '[', '\x7b']) (t : Text) : s ≠ .char d :: t := by
  obtain ⟨c, u, rfl, hc⟩ := h
  intro heq
  obtain rfl : c = d := by simpa using (List.cons.inj heq).1
  rcases hc with hc | hc
  · rw [hc] at hdigit
    cases hdigit
  · exact hd hc

/-! ### Blanks -/

theorem skipSpace_cons {c : Char} (h : isSpace (.char c) = false) (s : Text) :
    skipSpace (.char c :: s) = .char c :: s :=
  List.dropWhile_cons_of_neg (by rw [h]; exact Bool.false_ne_true)

theorem skipSpace_of_beginsValue {s : Text} (h : BeginsValue s) : skipSpace s = s := by
  have hspace : ∀ d ∈ [' ', '\t', '\n', '\r'], s.head? ≠ some (.char d) := by
    intro d hd hhead
    have hall : ∀ d ∈ [' ', '\t', '\n', '\r'],
        d.isDigit = false ∧ d ∉ ['n', 't', 'f', '-', '\x22', '[', '\x7b'] := by simp
    obtain ⟨t, ht⟩ := List.head?_eq_some_iff.mp hhead
    exact h.ne_char (hall d hd).1 (hall d hd).2 t ht
  obtain ⟨c, t, rfl, _⟩ := h
  apply skipSpace_cons
  simp only [List.mem_cons, List.not_mem_nil, or_false, forall_eq_or_imp, forall_eq,
    List.head?_cons, ne_eq, Option.some.injEq] at hspace
  simp [isSpace, hspace]

/-! ### Steps -/

theorem run_of_step {next next' : Next} {frames fs : List Frame} {s r : Text}
    (h : step next frames s = .ok (.on next' fs r)) : run next frames s = run next' fs r := by
  rw [run.eq_def]
  split
  · rename_i hs
    rw [h] at hs
    cases hs
  · rename_i hs
    rw [h] at hs
    cases hs
  · rename_i hs
    rw [h] at hs
    cases hs
    rfl

theorem run_after_nil (j : Json) (s : Text) : run (.after j) [] s = .ok (j, s) := by
  rw [run.eq_def]
  rfl

/-- What is no text and opens nothing is read in one step. -/
theorem run_scalar {c : Char} {s rest : Text} {j : Json} (hc : c ∉ ['\x22', '[', '\x7b'])
    (h : readScalar (.char c :: s) = .ok (j, rest)) (frames : List Frame) :
    run .value frames (.char c :: s) = run (.after j) frames rest := by
  apply run_of_step
  show stepValue frames (.char c :: s) = _
  have hne : ∀ d ∈ ['\x22', '[', '\x7b'], ∀ t, .char c :: s ≠ Symbol.char d :: t := by
    rintro d hd t heq
    obtain rfl : c = d := by simpa using (List.cons.inj heq).1
    exact hc hd
  unfold stepValue
  split
  · rename_i heq
    exact absurd heq (hne '\x22' (by decide) _)
  · rename_i heq
    exact absurd heq (hne '\x7b' (by decide) _)
  · rename_i heq
    exact absurd heq (hne '[' (by decide) _)
  · rw [h]
    rfl

theorem run_signed {n : Numeral} (hn : n.IsProper) (negative : Bool) {j : Json} {rest : Text}
    (h : readScalar ((signed negative n.text).map .char ++ rest) = .ok (j, rest))
    (frames : List Frame) :
    run .value frames ((signed negative n.text).map .char ++ rest)
      = run (.after j) frames rest := by
  have hall : ∀ d ∈ ['\x22', '[', '\x7b'], d.isDigit = false := by simp
  obtain ⟨c, cs, hcons, hc⟩ := Numeral.exists_text_eq_cons hn
  rw [signed, hcons] at h ⊢
  cases negative with
  | true => exact run_scalar (c := '-') (by decide) h frames
  | false =>
    refine run_scalar (c := c) (fun hmem => ?_) h frames
    rw [hall c hmem] at hc
    cases hc

theorem run_writeText {t : Text} (ht : ∀ x ∈ t, alphabet.Spells x) (rest : Text)
    (frames : List Frame) :
    run .value frames (writeText alphabet t ++ rest) = run (.after (.str t)) frames rest := by
  apply run_of_step
  rw [writeText, List.append_assoc, List.cons_append, List.singleton_append, step, stepValue,
    readString_flatMap_writeSymbol _ ht]
  rfl

theorem run_name {name rest : Text} (hname : ∀ x ∈ name, alphabet.Spells x)
    (hrest : BeginsValue rest) (before : List (Text × Json)) (frames : List Frame) :
    run (.name before) frames (writeText alphabet name ++ .char ':' :: rest)
      = run .value (.object before name :: frames) rest := by
  apply run_of_step
  rw [writeText, List.append_assoc, List.cons_append, List.singleton_append, step, stepName,
    readString_flatMap_writeSymbol _ hname]
  simp only
  rw [skipSpace_cons (by decide)]
  simp only
  rw [skipSpace_of_beginsValue hrest]

theorem run_comma_array (j : Json) {rest : Text} (hrest : BeginsValue rest) (before : List Json)
    (frames : List Frame) :
    run (.after j) (.array before :: frames) (.char ',' :: rest)
      = run .value (.array (j :: before) :: frames) rest := by
  apply run_of_step
  rw [step, stepAfter, skipSpace_cons (by decide)]
  simp only
  rw [skipSpace_of_beginsValue hrest]

theorem run_close_array (j : Json) (rest : Text) (before : List Json) (frames : List Frame) :
    run (.after j) (.array before :: frames) (.char ']' :: rest)
      = run (.after (.arr (j :: before).reverse)) frames rest := by
  apply run_of_step
  simp only [step, stepAfter, skipSpace_cons (c := ']') (by decide)]

theorem run_comma_object (j : Json) {rest : Text} (hrest : BeginsValue rest)
    (before : List (Text × Json)) (name : Text) (frames : List Frame) :
    run (.after j) (.object before name :: frames) (.char ',' :: rest)
      = run (.name ((name, j) :: before)) frames rest := by
  apply run_of_step
  rw [step, stepAfter, skipSpace_cons (by decide)]
  simp only
  rw [skipSpace_of_beginsValue hrest]

theorem run_close_object (j : Json) (rest : Text) (before : List (Text × Json)) (name : Text)
    (frames : List Frame) :
    run (.after j) (.object before name :: frames) (.char '\x7d' :: rest)
      = run (.after (.ofMembers ((name, j) :: before).reverse)) frames rest := by
  apply run_of_step
  simp only [step, stepAfter, skipSpace_cons (c := '\x7d') (by decide)]

theorem run_open_array {rest : Text} (hrest : BeginsValue rest) (frames : List Frame) :
    run .value frames (.char '[' :: rest) = run .value (.array [] :: frames) rest := by
  apply run_of_step
  rw [step, stepValue, skipSpace_of_beginsValue hrest]
  split
  · exact absurd rfl (hrest.ne_char (by decide) (by decide) _)
  · rfl

theorem run_open_object {rest : Text} (hrest : BeginsValue rest) (frames : List Frame) :
    run .value frames (.char '\x7b' :: rest) = run (.name []) frames rest := by
  apply run_of_step
  rw [step, stepValue, skipSpace_of_beginsValue hrest]
  split
  · exact absurd rfl (hrest.ne_char (by decide) (by decide) _)
  · rfl

/-! ### Values -/

/-- In front of the text of the value the machine comes to the point behind it. -/
def RunsOver (alphabet : Alphabet) (j : Json) : Prop :=
  ∀ (frames : List Frame) (rest : Text), EndsValue rest →
    run .value frames (write alphabet j ++ rest) = run (.after j) frames rest

theorem run_items {js : List Json} (hproper : ∀ j ∈ js, ProperHere j)
    (hruns : ∀ j ∈ js, RunsOver alphabet j) (hne : js ≠ []) (before : List Json)
    (frames : List Frame) (rest : Text) :
    run .value (.array before :: frames) (writeItems alphabet js ++ .char ']' :: rest)
      = run (.after (.arr (before.reverse ++ js))) frames rest := by
  induction js generalizing before with
  | nil => exact absurd rfl hne
  | cons j js ih =>
    have hj := hruns j (List.mem_cons_self ..)
    cases js with
    | nil =>
      rw [writeItems, hj _ _ (endsValue_cons (by decide) _), run_close_array, List.reverse_cons]
    | cons k js =>
      have hproper' : ∀ i ∈ k :: js, ProperHere i := fun i hi =>
        hproper i (List.mem_cons_of_mem _ hi)
      have hbegins : BeginsValue (writeItems alphabet (k :: js)) :=
        beginsValue_writeItems (hproper' k (List.mem_cons_self ..)) js
      rw [writeItems, List.append_assoc, List.cons_append, hj _ _ (endsValue_cons (by decide) _),
        run_comma_array j (hbegins.append _),
        ih hproper' (fun i hi => hruns i (List.mem_cons_of_mem _ hi)) nofun]
      · simp
      · exact nofun

theorem run_members {ms : List (Text × Json)} (hproper : ∀ m ∈ ms, ProperHere m.2)
    (hnames : ∀ m ∈ ms, ∀ x ∈ m.1, alphabet.Spells x) (hruns : ∀ m ∈ ms, RunsOver alphabet m.2)
    (hne : ms ≠ []) (before : List (Text × Json)) (frames : List Frame) (rest : Text) :
    run (.name before) frames (writeMembers alphabet ms ++ .char '\x7d' :: rest)
      = run (.after (.ofMembers (before.reverse ++ ms))) frames rest := by
  induction ms generalizing before with
  | nil => exact absurd rfl hne
  | cons m ms ih =>
    obtain ⟨name, j⟩ := m
    have hj : RunsOver alphabet j := hruns (name, j) (List.mem_cons_self ..)
    have hname : ∀ x ∈ name, alphabet.Spells x := hnames (name, j) (List.mem_cons_self ..)
    have hbegins : BeginsValue (write alphabet j) :=
      beginsValue_write (hproper (name, j) (List.mem_cons_self ..))
    cases ms with
    | nil =>
      rw [writeMembers, List.append_assoc, List.cons_append, run_name hname (hbegins.append _),
        hj _ _ (endsValue_cons (by decide) _), run_close_object, List.reverse_cons]
    | cons m ms =>
      rw [writeMembers]
      · simp only [List.append_assoc, List.cons_append]
        rw [run_name hname (hbegins.append _), hj _ _ (endsValue_cons (by decide) _),
          run_comma_object j ((beginsValue_writeMembers m ms).append _),
          ih (fun i hi => hproper i (List.mem_cons_of_mem _ hi))
            (fun i hi => hnames i (List.mem_cons_of_mem _ hi))
            (fun i hi => hruns i (List.mem_cons_of_mem _ hi)) nofun]
        simp
      · exact nofun

/-- The machine comes over the text of every value whose numbers are read back, and whose members
are found again under their names. -/
theorem run_write {j : Json} (hproper : j.IsProper) (hlegible : j.IsLegible)
    (hspelled : j.IsSpelled alphabet) : RunsOver alphabet j := by
  induction j using induction_on with
  | step j ih =>
    -- What is inside runs over its own text whatever is open around it.
    have hinside : ∀ k ∈ j.children, RunsOver alphabet k := fun k hk =>
      ih k hk (hproper.inside k hk) (hlegible.inside k hk) (hspelled.inside k hk)
    have hhere : ∀ k ∈ j.children, ProperHere k := fun k hk => (hproper.inside k hk).here
    have hj := hlegible.here
    intro frames rest hrest
    cases j with
    | null => exact run_scalar (c := 'n') (by decide) rfl frames
    | bool b => cases b with
      | true => exact run_scalar (c := 't') (by decide) rfl frames
      | false => exact run_scalar (c := 'f') (by decide) rfl frames
    | int n =>
      have hread := readScalar_intText hj hrest
      rw [intText_eq_signed] at hread
      rw [write, intText_eq_signed]
      exact run_signed (isProper_toDigits _) _ hread frames
    | float x =>
      have hfinite : x.isFinite = true := hproper.here
      obtain ⟨m, ⟨hm, _⟩, htext⟩ := exists_numeral_of_isFinite hfinite
      have hread := readScalar_double hfinite hj hrest
      rw [json_double_eq_exact hfinite, htext] at hread
      rw [write, json_double_eq_exact hfinite, htext]
      exact run_signed hm _ hread frames
    | str t =>
      rw [write]
      exact run_writeText hspelled.here rest frames
    | arr items =>
      rw [write, List.append_assoc, List.cons_append, List.singleton_append]
      cases items with
      | nil =>
        apply run_of_step
        simp only [step, stepValue, writeItems, List.nil_append,
          skipSpace_cons (c := ']') (by decide)]
      | cons k items =>
        have hbegins : BeginsValue (writeItems alphabet (k :: items)) :=
          beginsValue_writeItems (hhere k (List.mem_cons_self ..)) items
        rw [run_open_array (hbegins.append _)]
        exact run_items hhere hinside nofun [] frames rest
    | obj ms =>
      rw [write, List.append_assoc, List.cons_append, List.singleton_append]
      cases ms with
      | nil =>
        apply run_of_step
        simp only [step, stepValue, writeMembers, List.nil_append,
          skipSpace_cons (c := '\x7d') (by decide)]
      | cons m ms =>
        have hmembers := ofMembers_of_nodup hproper.here
        rw [run_open_object ((beginsValue_writeMembers m ms).append _),
          run_members (fun i hi => hhere _ (mem_children_obj hi)) hspelled.here
            (fun i hi => hinside _ (mem_children_obj hi)) nofun,
          List.reverse_nil, List.nil_append, hmembers]

/-! ### Documents -/

theorem read_of_beginsValue {s : Text} (h : BeginsValue s) :
    read s = (readDocument s).mapError (Stop.within s) := by
  rw [read]
  rw [if_neg]
  intro hhead
  obtain ⟨t, ht⟩ := List.head?_eq_some_iff.mp hhead
  exact h.ne_char (by decide) (by decide) t ht

/-- A value is read back from its document. -/
theorem read_write {j : Json} (hproper : j.IsProper) (hlegible : j.IsLegible)
    (hspelled : j.IsSpelled alphabet) : read (write alphabet j) = .ok j := by
  have hbegins : BeginsValue (write alphabet j) := beginsValue_write hproper.here
  have hrun := run_write hproper hlegible hspelled [] [] endsValue_nil
  rw [List.append_nil, run_after_nil] at hrun
  rw [read_of_beginsValue hbegins, readDocument, skipSpace_of_beginsValue hbegins, hrun]
  rfl

end NoticeLedger.Json

namespace NoticeLedger.Value

open NoticeLedger.Json

theorem isConvertible_of_lt {n : Int} (h : n.natAbs < 10) : isConvertible n = true := by
  rw [isConvertible, Nat.toDigits_of_lt_base h]
  rfl

/-! ### Canonical texts -/

/-- Entries whose keys are texts are ordered by them. -/
theorem orderEntries?_map_text {α β : Type} (name : α → Text) (value : α → β) (as : List α) :
    orderEntries? (as.map fun a => (text (name a), value a))
      = some ((as.mergeSort fun a b => Text.le (name a) (name b)).map
          fun a => (text (name a), value a)) := by
  have hall : (as.map fun a => (text (name a), value a)).all (·.1.text?.isSome) = true := by
    rw [List.all_map, List.all_eq_true]
    exact fun _ _ => rfl
  have hsort := List.map_mergeSort (r := fun a b => Text.le (name a) (name b)) (s := entryLe)
    (l := as) (f := fun a => (text (name a), value a)) fun _ _ _ _ => rfl
  rw [orderEntries?, if_pos hall, hsort]

theorem objectOf_map_ok (ms : List (Text × Json)) :
    objectOf (ms.map fun m => (text m.1, .ok m.2)) = .ok (.obj (ms.mergeSort memberLe)) := by
  have hmember : ∀ m : Text × Json, member (text m.1, .ok m.2) = .ok m := fun _ => rfl
  have horder := orderEntries?_map_text (β := Except Unwritable Json) (·.1) (fun m => .ok m.2) ms
  simp only [objectOf, horder, List.map_map, Function.comp_def, hmember, collect_map_ok]
  rfl

/-- As a document a JSON value is its sorted form. -/
theorem toJson?_ofJson {j : Json} (hproper : j.IsProper) (hshort : j.IsShort) :
    (ofJson j).toJson? = .ok j.sorted := by
  induction j using Json.induction_on with
  | step j ih =>
    have hinside : ∀ k ∈ j.children, (ofJson k).toJson? = .ok k.sorted := fun k hk =>
      ih k hk (hproper.inside k hk) (hshort.inside k hk)
    have hj := hshort.here
    cases j with
    | null => rfl
    | bool b => rfl
    | int n =>
      rw [ofJson, toJson?]
      exact if_pos hj
    | float x =>
      rw [ofJson, toJson?]
      exact if_pos hproper.here
    | str t => rfl
    | arr items =>
      have hmap : items.map (fun k => (ofJson k).toJson?) = (items.map Json.sorted).map .ok := by
        rw [List.map_map]
        exact List.map_congr_left hinside
      rw [ofJson, ofJsons_eq_map, toJson?, itemsToJson?_eq_map, List.map_map]
      show (collect (items.map fun k => (ofJson k).toJson?)).map Json.arr = _
      rw [hmap, collect_map_ok, sorted_arr]
      rfl
    | obj ms =>
      have hmap : ms.map (fun m => (text m.1, (ofJson m.2).toJson?))
          = (ms.map fun m => (m.1, m.2.sorted)).map fun m => (text m.1, .ok m.2) := by
        rw [List.map_map]
        apply List.map_congr_left
        intro m hm
        rw [hinside m.2 (mem_children_obj hm)]
        rfl
      rw [ofJson, ofMembers_eq_map, toJson?, entriesToJson?_eq_map, List.map_map]
      show objectOf (ms.map fun m => (text m.1, (ofJson m.2).toJson?)) = _
      rw [hmap, objectOf_map_ok, sorted_obj]

theorem canonicalText?_ofJson {j : Json} (hproper : j.IsProper) (hshort : j.IsShort) :
    (ofJson j).canonicalText? = .ok (write .unicode j.sorted) := by
  rw [canonicalText?, toJson?_ofJson hproper hshort]
  rfl

/-- A canonical text is read as the sorted form of its value. -/
theorem read_canonicalText {j : Json} (hproper : j.IsProper) (hlegible : j.IsLegible) :
    Json.read (write .unicode j.sorted) = .ok j.sorted :=
  read_write hproper.sorted hlegible.sorted (isSpelled_unicode _)

end NoticeLedger.Value
